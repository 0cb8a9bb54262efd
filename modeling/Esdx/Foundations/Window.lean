import Mathlib.Tactic
import Mathlib.Algebra.Order.BigOperators.Group.List
import Mathlib.Data.List.GetD

/-!
# Selling windows of a profile

A profile is a list of amounts, one for every period.  A request takes amounts from a window of
consecutive periods.  `Account` is the abstract ledger of one profile: it remembers what was there
at the start, what was sold, and what is left, and carries the proof that nothing is lost.
-/

namespace Window

variable {α : Type}

section Amounts

variable [AddCommGroup α]

/-- What the request `q`, starting at period `k`, takes in period `i`. -/
def amount (k : ℕ) (q : List α) (i : ℕ) : α := if k ≤ i then q.getD (i - k) 0 else 0

/-- The profile left after taking the request `q` from the window starting at period `k`. -/
def deduct (p : List α) (k : ℕ) (q : List α) : List α :=
  p.take k ++ List.zipWith (· - ·) (p.drop k) q ++ p.drop (k + q.length)

/-- Taking a window keeps the number of periods. -/
lemma length_deduct {p q : List α} {k : ℕ} (h : k + q.length ≤ p.length) :
    (deduct p k q).length = p.length := by
  simp only [deduct, List.length_append, List.length_take, List.length_zipWith, List.length_drop]
  omega

/-- Every period loses what the request takes in it. -/
lemma getD_deduct {p q : List α} {k : ℕ} (h : k + q.length ≤ p.length) (i : ℕ) :
    (deduct p k q).getD i 0 = p.getD i 0 - amount k q i := by
  have htake : (p.take k).length = k := List.length_take_of_le (by omega)
  have hzip : (List.zipWith (· - ·) (p.drop k) q).length = q.length := by
    rw [List.length_zipWith, List.length_drop]
    omega
  simp only [deduct, amount, List.getD_eq_getElem?_getD]
  rcases Nat.lt_or_ge i k with hlt | hge
  · -- before the window
    rw [List.append_assoc, List.getElem?_append_left (by omega), List.getElem?_take_of_lt hlt,
      if_neg (by omega), sub_zero]
  · rw [if_pos hge]
    rcases Nat.lt_or_ge i (k + q.length) with hin | hout
    · -- inside the window
      have hp : i < p.length := by omega
      have hq : i - k < q.length := by omega
      rw [List.append_assoc, List.getElem?_append_right (by omega), htake,
        List.getElem?_append_left (by omega), List.getElem?_zipWith, List.getElem?_drop,
        Nat.add_sub_cancel' hge, List.getElem?_eq_getElem hp, List.getElem?_eq_getElem hq]
      rfl
    · -- after the window
      have hlen : (p.take k ++ List.zipWith (· - ·) (p.drop k) q).length = k + q.length := by
        rw [List.length_append, htake, hzip]
      rw [List.getElem?_append_right (by omega), hlen, List.getElem?_drop,
        Nat.add_sub_cancel' hout, List.getElem?_eq_none (l := q) (by omega)]
      simp

/-- Inside its window a request takes its own amounts. -/
lemma amount_add {k : ℕ} {q : List α} (i : ℕ) : amount k q (k + i) = q.getD i 0 := by
  rw [amount, if_pos (Nat.le_add_right k i), Nat.add_sub_cancel_left]

/-- Outside its window a request takes nothing. -/
lemma amount_of_notMem {k i : ℕ} {q : List α} (h : i < k ∨ k + q.length ≤ i) :
    amount k q i = 0 := by
  unfold amount
  split
  · rw [List.getD_eq_default _ _ (by omega)]
  · rfl

/-- Profiles of one length with the same amounts are equal. -/
lemma ext_getD {p p' : List α} (hlength : p.length = p'.length)
    (h : ∀ i, p.getD i 0 = p'.getD i 0) : p = p' := by
  refine List.ext_getElem hlength fun i hi hi' => ?_
  have hi := h i
  rwa [List.getD_eq_getElem _ _ ‹i < p.length›, List.getD_eq_getElem _ _ hi'] at hi

/-- Two windows can be taken in either order. -/
lemma deduct_comm {p q q' : List α} {k k' : ℕ} (h : k + q.length ≤ p.length)
    (h' : k' + q'.length ≤ p.length) :
    deduct (deduct p k q) k' q' = deduct (deduct p k' q') k q := by
  have hafter : k' + q'.length ≤ (deduct p k q).length := by rwa [length_deduct h]
  have hafter' : k + q.length ≤ (deduct p k' q').length := by rwa [length_deduct h']
  apply ext_getD
  · rw [length_deduct hafter, length_deduct hafter', length_deduct h, length_deduct h']
  · intro i
    rw [getD_deduct hafter, getD_deduct hafter', getD_deduct h, getD_deduct h']
    abel

end Amounts

section Accounts

variable [AddCommGroup α] [PartialOrder α]

/-- The request `q` fits the profile `p` at period `k`: no amount is negative, and none exceeds
what is left in its period. -/
def Fits (p : List α) (k : ℕ) (q : List α) : Prop :=
  k + q.length ≤ p.length ∧ ∀ i < q.length, 0 ≤ q.getD i 0 ∧ q.getD i 0 ≤ p.getD (k + i) 0

/-- A request that fits takes no more than there is, in any period. -/
lemma Fits.amount_le {p q : List α} {k : ℕ} (h : Fits p k q) (hp : ∀ i, 0 ≤ p.getD i 0) (i : ℕ) :
    0 ≤ amount k q i ∧ amount k q i ≤ p.getD i 0 := by
  unfold amount
  split
  · rename_i hki
    rcases Nat.lt_or_ge (i - k) q.length with hlt | hge
    · have := h.2 (i - k) hlt
      rwa [Nat.add_sub_cancel' hki] at this
    · rw [List.getD_eq_default _ _ hge]
      exact ⟨le_rfl, hp i⟩
  · exact ⟨le_rfl, hp i⟩

/-- A request that fits takes no negative amount, in any period. -/
lemma Fits.amount_nonneg {p q : List α} {k : ℕ} (h : Fits p k q) (i : ℕ) : 0 ≤ amount k q i := by
  unfold amount
  split
  · rcases Nat.lt_or_ge (i - k) q.length with hlt | hge
    · exact (h.2 _ hlt).1
    · rw [List.getD_eq_default _ _ hge]
  · exact le_rfl

/-- A list without negative amounts has none in any period. -/
lemma getD_nonneg {p : List α} (h : ∀ z ∈ p, 0 ≤ z) (i : ℕ) : 0 ≤ p.getD i 0 := by
  rcases Nat.lt_or_ge i p.length with hi | hi
  · rw [List.getD_eq_getElem _ _ hi]
    exact h _ (List.getElem_mem hi)
  · rw [List.getD_eq_default _ _ hi]

/-- What fits after another request fits before it, and then the other one fits after it. -/
lemma Fits.swap [IsOrderedAddMonoid α] {p q q' : List α} {k k' : ℕ} (h : Fits p k q)
    (h' : Fits (deduct p k q) k' q') : Fits p k' q' ∧ Fits (deduct p k' q') k q := by
  have hwindow : k' + q'.length ≤ p.length := by
    rw [← length_deduct h.1]
    exact h'.1
  have hleft : ∀ i < q'.length, q'.getD i 0 ≤ p.getD (k' + i) 0 - amount k q (k' + i) := by
    intro i hi
    rw [← getD_deduct h.1]
    exact (h'.2 i hi).2
  refine ⟨⟨hwindow, fun i hi => ⟨(h'.2 i hi).1, ?_⟩⟩, ?_, fun i hi => ⟨(h.2 i hi).1, ?_⟩⟩
  · exact (hleft i hi).trans (sub_le_self _ (h.amount_nonneg _))
  · rw [length_deduct hwindow]
    exact h.1
  · rw [getD_deduct hwindow]
    by_cases hin : k' ≤ k + i ∧ k + i < k' + q'.length
    · -- the windows overlap in this period
      obtain ⟨j, hj⟩ := Nat.exists_eq_add_of_le hin.1
      have hboth := hleft j (by omega)
      rw [← hj, amount_add] at hboth
      rw [hj, amount_add, ← hj]
      exact le_sub_comm.mp hboth
    · rw [amount_of_notMem (by omega), sub_zero]
      exact (h.2 i hi).2

/-- The ledger of one profile. -/
structure Account (α : Type) [AddCommGroup α] [PartialOrder α] where
  /-- the profile offered -/
  initial : List α
  /-- the requests sold, each with the period it starts in -/
  sold : List (ℕ × List α)
  /-- the profile left -/
  remaining : List α
  length_remaining : remaining.length = initial.length
  windows : ∀ s ∈ sold, s.1 + s.2.length ≤ initial.length
  sold_nonneg : ∀ s ∈ sold, ∀ i, 0 ≤ amount s.1 s.2 i
  conserved : ∀ i, initial.getD i 0 =
    remaining.getD i 0 + (sold.map fun s => amount s.1 s.2 i).sum
  remaining_nonneg : ∀ i, 0 ≤ remaining.getD i 0

namespace Account

/-- The account of a profile from which nothing was sold. -/
def opened (p : List α) (hp : ∀ i, 0 ≤ p.getD i 0) : Account α where
  initial := p
  sold := []
  remaining := p
  length_remaining := rfl
  windows := by simp
  sold_nonneg := by simp
  conserved := by simp
  remaining_nonneg := hp

variable [IsOrderedAddMonoid α]

/-- Sell a request that fits what is left. -/
def sell (a : Account α) (k : ℕ) (q : List α) (h : Fits a.remaining k q) : Account α where
  initial := a.initial
  sold := a.sold ++ [(k, q)]
  remaining := deduct a.remaining k q
  length_remaining := (length_deduct h.1).trans a.length_remaining
  windows s hs := by
    rcases List.mem_append.mp hs with hs | hs
    · exact a.windows s hs
    · rw [List.mem_singleton.mp hs, ← a.length_remaining]
      exact h.1
  sold_nonneg s hs i := by
    rcases List.mem_append.mp hs with hs | hs
    · exact a.sold_nonneg s hs i
    · rw [List.mem_singleton.mp hs]
      exact (h.amount_le a.remaining_nonneg i).1
  conserved i := by
    rw [getD_deduct h.1, a.conserved i]
    simp only [List.map_append, List.map_cons, List.map_nil, List.sum_append, List.sum_singleton]
    abel
  remaining_nonneg i := by
    rw [getD_deduct h.1]
    exact sub_nonneg.mpr (h.amount_le a.remaining_nonneg i).2

@[simp] lemma sell_initial (a : Account α) (k : ℕ) (q : List α) (h : Fits a.remaining k q) :
    (a.sell k q h).initial = a.initial := rfl

@[simp] lemma sell_sold (a : Account α) (k : ℕ) (q : List α) (h : Fits a.remaining k q) :
    (a.sell k q h).sold = a.sold ++ [(k, q)] := rfl

@[simp] lemma sell_remaining (a : Account α) (k : ℕ) (q : List α) (h : Fits a.remaining k q) :
    (a.sell k q h).remaining = deduct a.remaining k q := rfl

/-- No period is oversold. -/
theorem sum_sold_le (a : Account α) (i : ℕ) :
    (a.sold.map fun s => amount s.1 s.2 i).sum ≤ a.initial.getD i 0 := by
  rw [a.conserved i]
  exact le_add_of_nonneg_left (a.remaining_nonneg i)

end Account

end Accounts

end Window
