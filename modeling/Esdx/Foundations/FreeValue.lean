import Mathlib.Tactic
import Mathlib.Order.Bounds.Basic

/-!
# Free values

The lowest value from a minimum on that a set does not contain.  A search that starts at the lowest
value of the set, instead of at the minimum, ends at the same value exactly when the set has no gap
below the minimum.
-/

namespace FreeValue

/-- The lowest value from `minValue` on that is not used. -/
def IsLowestFree (used : Set ℤ) (minValue v : ℤ) : Prop :=
  IsLeast {w | minValue ≤ w ∧ w ∉ used} v

/-- From every used value below `minValue` the values are used up to `minValue`. -/
def GapFree (used : Set ℤ) (minValue : ℤ) : Prop :=
  ∀ v ∈ used, v < minValue → v + 1 = minValue ∨ v + 1 ∈ used

variable {used : Set ℤ} {minValue start v w : ℤ}

namespace IsLowestFree

/-- There is one lowest free value. -/
lemma unique (hv : IsLowestFree used minValue v) (hw : IsLowestFree used minValue w) : v = w :=
  IsLeast.unique hv hw

/-- All values before it are used. -/
lemma mem_of_lt (h : IsLowestFree used minValue v) (hmin : minValue ≤ w) (hlt : w < v) :
    w ∈ used := by
  by_contra hfree
  exact absurd (h.2 ⟨hmin, hfree⟩) (not_le.mpr hlt)

/-- It is the lowest free value from any earlier minimum, if all values between are used. -/
lemma of_le (h : IsLowestFree used start v) (hle : minValue ≤ start)
    (hbetween : ∀ w, minValue ≤ w → w < start → w ∈ used) : IsLowestFree used minValue v := by
  refine ⟨⟨hle.trans h.1.1, h.1.2⟩, fun w hw => ?_⟩
  rcases lt_or_ge w start with hlt | hge
  · exact absurd (hbetween w hw.1 hlt) hw.2
  · exact h.2 ⟨hge, hw.2⟩

/-- It is the lowest free value from any later minimum up to itself. -/
lemma of_ge (h : IsLowestFree used start v) (hle : start ≤ minValue) (hv : minValue ≤ v) :
    IsLowestFree used minValue v :=
  ⟨⟨hv, h.1.2⟩, fun _ hw => h.2 ⟨hle.trans hw.1, hw.2⟩⟩

end IsLowestFree

/-- Without a gap all values from a used one up to the minimum are used. -/
lemma GapFree.mem (h : GapFree used minValue) (hv : v ∈ used) :
    ∀ n : ℕ, v + n < minValue → v + n ∈ used := by
  intro n
  induction n with
  | zero =>
    intro _
    simpa using hv
  | succ n ih =>
    intro hlt
    push_cast at hlt ⊢
    rcases h (v + n) (ih (by omega)) (by omega) with heq | hmem
    · omega
    · rwa [← add_assoc]

/-- **Searching from the lowest value.**  When the search starts at the lowest used value, or at the
minimum if that is lower, it finds the lowest free value from the minimum on exactly when there is
no gap below the minimum. -/
theorem isLowestFree_iff_gapFree (hstart : IsLeast (insert minValue used) start)
    (hv : IsLowestFree used start v) : IsLowestFree used minValue v ↔ GapFree used minValue := by
  have hle : start ≤ minValue := hstart.2 (Set.mem_insert minValue used)
  constructor
  · intro hmin w hw hlt
    have hge : start ≤ w := hstart.2 (Set.mem_insert_of_mem minValue hw)
    rcases eq_or_ne (w + 1) minValue with heq | hne
    · exact .inl heq
    · have := hmin.1.1
      exact .inr (hv.mem_of_lt (by omega) (by omega))
  · intro hgap
    apply hv.of_ge hle
    rcases hstart.1 with heq | hused
    · rw [← heq]
      exact hv.1.1
    · by_contra hlt
      have hfree := hv.1.1
      obtain ⟨n, hn⟩ := Int.eq_ofNat_of_zero_le (Int.sub_nonneg.mpr hfree)
      have hmem := hgap.mem hused n (by omega)
      rw [← hn, add_sub_cancel] at hmem
      exact hv.1.2 hmem

end FreeValue
