import Esdx.Util.Conversion

/-!
# The grammar of ISD-AS numbers

What `ia_str_to_int` accepts.  The grammar is stated over a way to write numbers: with plain
numerals it is the intended one (`IsIa`), with the numerals that `int` reads it is the language of
the code (`iaStrToInt_eq_ok_iff`).  The two differ in the texts that `int` reads although they
contain other characters than digits (`IsMisspelledIa`): a plus sign, underscores, `0x`, digits of
other scripts.
-/

namespace Esdx

open PythonText InetAddress

/-! ## The grammar -/

/-- The AS part: a decimal number of 32 bits, or three hexadecimal groups of 16 bits. -/
inductive AsForm (num : ℕ → List Char → ℕ → Prop) : List Char → ℕ → Prop
  | decimal {s : List Char} {n : ℕ} (h : num 10 s n) (hn : n ≤ 2 ^ 32 - 1) : AsForm num s n
  | groups {s₀ s₁ s₂ : List Char} {n₀ n₁ n₂ : ℕ} (h₀ : num 16 s₀ n₀) (h₁ : num 16 s₁ n₁)
    (h₂ : num 16 s₂ n₂) (hn₀ : n₀ ≤ 0xffff) (hn₁ : n₁ ≤ 0xffff) (hn₂ : n₂ ≤ 0xffff) :
    AsForm num (s₀ ++ ':' :: s₁ ++ ':' :: s₂) (n₀ * 2 ^ 32 + n₁ * 2 ^ 16 + n₂)

/-- `IaForm num s isd asn`: the text is a decimal ISD of 16 bits, a hyphen, and an AS part. -/
def IaForm (num : ℕ → List Char → ℕ → Prop) (s : List Char) (isd asn : ℕ) : Prop :=
  ∃ isdPart asPart, s = isdPart ++ '-' :: asPart ∧ num 10 isdPart isd ∧ isd ≤ 65535 ∧
    AsForm num asPart asn

/-- An ISD-AS number in plain digits. -/
def IsIa : List Char → ℕ → ℕ → Prop := IaForm IsPlainNumeral

/-- A numeral that `int` reads without a blank or a minus sign. -/
def IsUnsignedNumeral (base : ℕ) (s : List Char) (n : ℕ) : Prop :=
  IsNumeral base s n ∨ ∃ t, s = '+' :: t ∧ IsNumeral base t n

/-- A character of an ISD-AS number. -/
def isIaChar (c : Char) : Bool := isHexDigit c || c == '-' || c == ':'

/-- An ISD-AS number whose numbers are written with other characters than digits. -/
def IsMisspelledIa (s : List Char) : Prop :=
  (∃ isd asn, IaForm IsUnsignedNumeral s isd asn) ∧ ∃ c ∈ s, isIaChar c = false

/-- `ia_str_to_int` does with a text what the grammar says: it returns the number that the text
denotes, which determines ISD and AS, and raises `ValueError` when there is none. -/
structure FollowsIaGrammar (ia : String) : Prop where
  accepts : ∀ v, iaStrToInt ia = .ok v ↔ ∃ isd asn, IsIa ia.toList isd asn ∧ v = isd * 2 ^ 48 + asn
  determines : ∀ v isd asn, iaStrToInt ia = .ok v → IsIa ia.toList isd asn →
    v < 2 ^ 64 ∧ v / 2 ^ 48 = isd ∧ v % 2 ^ 48 = asn
  refuses : (¬∃ isd asn, IsIa ia.toList isd asn) → ∃ msg, iaStrToInt ia = .error (.valueError msg)

/-! ## Numerals of the code -/

/-- A signed numeral without a minus sign is unsigned. -/
lemma isSignedNumeral_iff {base : ℕ} {s : List Char} {z : ℤ} (hs : '-' ∉ s) :
    IsSignedNumeral base s z ↔ ∃ n : ℕ, z = n ∧ IsUnsignedNumeral base s n := by
  constructor
  · intro h
    cases h with
    | unsigned h => exact ⟨_, rfl, .inl h⟩
    | plus h => exact ⟨_, rfl, .inr ⟨_, rfl, h⟩⟩
    | minus h => exact absurd List.mem_cons_self hs
  · rintro ⟨n, rfl, h | ⟨t, rfl, h⟩⟩
    · exact .unsigned h
    · exact .plus h

/-- An unsigned numeral is one for `int`. -/
lemma IsUnsignedNumeral.isSignedNumeral {base n : ℕ} {s : List Char}
    (h : IsUnsignedNumeral base s n) : IsSignedNumeral base s n := by
  rcases h with h | ⟨t, rfl, h⟩
  · exact .unsigned h
  · exact .plus h

/-- An unsigned numeral is not changed by `strip`. -/
lemma IsUnsignedNumeral.strip_eq {base n : ℕ} {s : List Char} (h : IsUnsignedNumeral base s n) :
    strip s = s := by
  obtain ⟨-, hhead, hlast⟩ := h.isSignedNumeral.ends
  exact stripBy_eq_self hhead hlast

/-- The separators do not occur in an unsigned numeral. -/
lemma IsUnsignedNumeral.notMem {base n : ℕ} {s : List Char} (h : IsUnsignedNumeral base s n) :
    '-' ∉ s ∧ ':' ∉ s := by
  refine ⟨?_, h.isSignedNumeral.notMem (by decide) rfl (by decide)⟩
  rcases h with h | ⟨t, rfl, h⟩
  · exact h.notMem (by decide) rfl (by decide)
  · rw [List.mem_cons, not_or]
    exact ⟨by decide, h.notMem (by decide) rfl (by decide)⟩

/-- What the code requires of the text of a number: it has no blanks at its ends and is read. -/
lemma strip_and_toInt_iff {base : ℕ} {s : List Char} {z : ℤ} (hs : '-' ∉ s) :
    strip s = s ∧ toInt base s = .ok z ↔ ∃ n : ℕ, z = n ∧ IsUnsignedNumeral base s n := by
  rw [toInt_eq_ok, pyInt_eq_some_iff]
  constructor
  · rintro ⟨hstrip, h⟩
    exact (isSignedNumeral_iff hs).mp ((isIntText_iff_of_strip hstrip).mp h)
  · rintro ⟨n, rfl, h⟩
    exact ⟨h.strip_eq, h.isSignedNumeral.isIntText⟩

/-- What holds of the characters of all numbers and of the colon holds of those of the AS part. -/
lemma AsForm.forall_mem {num : ℕ → List Char → ℕ → Prop} {P : Char → Prop} {s : List Char} {n : ℕ}
    (h : AsForm num s n)
    (hnum : ∀ {base : ℕ} {t : List Char} {k : ℕ}, base ≤ 16 → num base t k → ∀ c ∈ t, P c)
    (hcolon : P ':') : ∀ c ∈ s, P c := by
  intro c hc
  cases h with
  | decimal h _ => exact hnum (by decide) h c hc
  | groups h₀ h₁ h₂ _ _ _ =>
    rcases List.mem_append.mp hc with hc | hc
    · rcases List.mem_append.mp hc with hc | hc
      · exact hnum le_rfl h₀ c hc
      · rcases List.mem_cons.mp hc with rfl | hc
        · exact hcolon
        · exact hnum le_rfl h₁ c hc
    · rcases List.mem_cons.mp hc with rfl | hc
      · exact hcolon
      · exact hnum le_rfl h₂ c hc

/-- What holds of the characters of all numbers and of the separators holds of those of the text. -/
lemma IaForm.forall_mem {num : ℕ → List Char → ℕ → Prop} {P : Char → Prop} {s : List Char}
    {isd asn : ℕ} (h : IaForm num s isd asn)
    (hnum : ∀ {base : ℕ} {t : List Char} {k : ℕ}, base ≤ 16 → num base t k → ∀ c ∈ t, P c)
    (hcolon : P ':') (hhyphen : P '-') : ∀ c ∈ s, P c := by
  obtain ⟨isdPart, asPart, rfl, hisd, -, has⟩ := h
  intro c hc
  rcases List.mem_append.mp hc with hc | hc
  · exact hnum (by decide) hisd c hc
  · rcases List.mem_cons.mp hc with rfl | hc
    · exact hhyphen
    · exact has.forall_mem hnum hcolon c hc

/-! ## The language of the code -/

/-- Appending sixteen bits. -/
lemma shiftLeft_or {a b i : ℕ} (h : b < 2 ^ i) : a <<< i ||| b = a * 2 ^ i + b := by
  rw [← Nat.shiftLeft_add_eq_or_of_lt h, Nat.shiftLeft_eq]

/-- One more group. -/
lemma asGroups_cons_eq_ok {s : List Char} {ss : List (List Char)} {acc v : ℕ} (hs : '-' ∉ s) :
    asGroups (s :: ss) acc = .ok v ↔
      ∃ n, IsUnsignedNumeral 16 s n ∧ n ≤ 0xffff ∧ asGroups ss (acc * 2 ^ 16 + n) = .ok v := by
  rw [asGroups]
  constructor
  · intro h
    by_cases hstrip : strip s = s
    · rcases hz : toInt 16 s with e | z
      · simp [hstrip, hz, bind, Except.bind] at h
      obtain ⟨n, rfl, hn⟩ := (strip_and_toInt_iff hs).mp ⟨hstrip, hz⟩
      by_cases hlarge : 65535 < (n : ℤ)
      · simp [hstrip, hz, hlarge, bind, Except.bind, throw, throwThe, MonadExceptOf.throw] at h
      · simp only [hstrip, hz, hlarge, bind, Except.bind, ne_eq, not_true_eq_false, if_false,
          Int.toNat_natCast] at h
        rw [shiftLeft_or (by omega)] at h
        exact ⟨n, hn, by omega, h⟩
    · simp [hstrip, bind, Except.bind, throw, throwThe, MonadExceptOf.throw] at h
  · rintro ⟨n, hn, hle, h⟩
    obtain ⟨hstrip, hz⟩ := (strip_and_toInt_iff hs).mpr ⟨n, rfl, hn⟩
    have hlarge : ¬65535 < (n : ℤ) := by omega
    simp only [hstrip, hz, hlarge, bind, Except.bind, ne_eq, not_true_eq_false, if_false,
      Int.toNat_natCast]
    rw [shiftLeft_or (by omega)]
    exact h

/-- The three groups together. -/
lemma asGroups_three_eq_ok {s₀ s₁ s₂ : List Char} {v : ℕ} (h₀ : '-' ∉ s₀) (h₁ : '-' ∉ s₁)
    (h₂ : '-' ∉ s₂) :
    asGroups [s₀, s₁, s₂] 0 = .ok v ↔
      ∃ n₀ n₁ n₂, IsUnsignedNumeral 16 s₀ n₀ ∧ IsUnsignedNumeral 16 s₁ n₁ ∧
        IsUnsignedNumeral 16 s₂ n₂ ∧ n₀ ≤ 0xffff ∧ n₁ ≤ 0xffff ∧ n₂ ≤ 0xffff ∧
        v = n₀ * 2 ^ 32 + n₁ * 2 ^ 16 + n₂ := by
  rw [asGroups_cons_eq_ok h₀]
  constructor
  · rintro ⟨n₀, hn₀, hle₀, h⟩
    obtain ⟨n₁, hn₁, hle₁, h⟩ := (asGroups_cons_eq_ok h₁).mp h
    obtain ⟨n₂, hn₂, hle₂, h⟩ := (asGroups_cons_eq_ok h₂).mp h
    rw [asGroups, Except.ok.injEq] at h
    refine ⟨n₀, n₁, n₂, hn₀, hn₁, hn₂, hle₀, hle₁, hle₂, ?_⟩
    rw [← h]
    ring
  · rintro ⟨n₀, n₁, n₂, hn₀, hn₁, hn₂, hle₀, hle₁, hle₂, rfl⟩
    refine ⟨n₀, hn₀, hle₀, (asGroups_cons_eq_ok h₁).mpr ⟨n₁, hn₁, hle₁, ?_⟩⟩
    refine (asGroups_cons_eq_ok h₂).mpr ⟨n₂, hn₂, hle₂, ?_⟩
    rw [asGroups, Except.ok.injEq]
    ring

/-- The AS part of one piece. -/
lemma asPartToInt_singleton_eq_ok {s : List Char} {v : ℕ} (hs : '-' ∉ s) (hcolon : ':' ∉ s) :
    asPartToInt s = .ok v ↔ IsUnsignedNumeral 10 s v ∧ v ≤ 2 ^ 32 - 1 := by
  unfold asPartToInt
  rw [List.splitOn_eq_singleton hcolon]
  constructor
  · intro h
    by_cases hstrip : strip s = s
    · rcases hz : toInt 10 s with e | z
      · simp [hstrip, hz, bind, Except.bind] at h
      obtain ⟨n, rfl, hn⟩ := (strip_and_toInt_iff hs).mp ⟨hstrip, hz⟩
      simp only [hstrip, hz, bind, Except.bind, ne_eq, not_true_eq_false, if_false] at h
      split at h
      · simp [throw, throwThe, MonadExceptOf.throw] at h
      · simp only [pure, Except.pure, Int.toNat_natCast, Except.ok.injEq] at h
        rw [← h]
        exact ⟨hn, by omega⟩
    · simp [hstrip, bind, Except.bind, throw, throwThe, MonadExceptOf.throw] at h
  · rintro ⟨hn, hle⟩
    obtain ⟨hstrip, hz⟩ := (strip_and_toInt_iff hs).mpr ⟨v, rfl, hn⟩
    have hlarge : ¬2 ^ 32 - 1 < (v : ℤ) := by omega
    simp only [hstrip, hz, bind, Except.bind, ne_eq, not_true_eq_false, if_false]
    rw [if_neg hlarge]
    rfl

/-- The groups fit in 48 bits, so the last check of the code never fails. -/
lemma asPartToInt_groups_eq_ok {s₀ s₁ s₂ : List Char} {v : ℕ} (h₀ : '-' ∉ s₀) (h₁ : '-' ∉ s₁)
    (h₂ : '-' ∉ s₂) {s : List Char} (hs : s.splitOn ':' = [s₀, s₁, s₂]) :
    asPartToInt s = .ok v ↔ asGroups [s₀, s₁, s₂] 0 = .ok v := by
  unfold asPartToInt
  rw [hs]
  dsimp only
  rcases hv : asGroups [s₀, s₁, s₂] 0 with e | w
  · simp [bind, Except.bind]
  · have hsmall : ¬2 ^ 48 - 1 < w := by
      obtain ⟨n₀, n₁, n₂, -, -, -, hle₀, hle₁, hle₂, rfl⟩ := (asGroups_three_eq_ok h₀ h₁ h₂).mp hv
      omega
    simp only [bind, Except.bind]
    rw [if_neg hsmall]
    exact Iff.rfl

/-- The AS parts that are accepted. -/
lemma asPartToInt_eq_ok_iff {s : List Char} {v : ℕ} (hs : '-' ∉ s) :
    asPartToInt s = .ok v ↔ AsForm IsUnsignedNumeral s v := by
  have hparts : ∀ t ∈ s.splitOn ':', '-' ∉ t := fun t ht hmem => hs (mem_of_mem_splitOn ht hmem)
  constructor
  · intro h
    have hjoin := @List.intercalate_splitOn _ s _ _ ':'
    rcases hsplit : s.splitOn ':' with _ | ⟨s₀, _ | ⟨s₁, _ | ⟨s₂, _ | ⟨s₃, ss⟩⟩⟩⟩
    · exact absurd hsplit (List.splitOn_ne_nil ':' s)
    · have hcolon : ':' ∉ s := by
        rw [hsplit, List.intercalate_singleton] at hjoin
        rw [← hjoin]
        exact notMem_of_mem_splitOn (hsplit ▸ List.mem_cons_self)
      obtain ⟨hv, hle⟩ := (asPartToInt_singleton_eq_ok hs hcolon).mp h
      exact .decimal hv hle
    · unfold asPartToInt at h
      rw [hsplit] at h
      simp [throw, throwThe, MonadExceptOf.throw] at h
    · rw [hsplit] at hparts
      have h₀ := hparts s₀ (by simp)
      have h₁ := hparts s₁ (by simp)
      have h₂ := hparts s₂ (by simp)
      rw [asPartToInt_groups_eq_ok h₀ h₁ h₂ hsplit, asGroups_three_eq_ok h₀ h₁ h₂] at h
      obtain ⟨n₀, n₁, n₂, hn₀, hn₁, hn₂, hle₀, hle₁, hle₂, rfl⟩ := h
      have hs : s = s₀ ++ ':' :: s₁ ++ ':' :: s₂ := by
        rw [← hjoin, hsplit]
        simp [List.intercalate_cons_cons]
      rw [hs]
      exact .groups hn₀ hn₁ hn₂ hle₀ hle₁ hle₂
    · unfold asPartToInt at h
      rw [hsplit] at h
      simp [throw, throwThe, MonadExceptOf.throw] at h
  · intro h
    cases h with
    | decimal h hn => exact (asPartToInt_singleton_eq_ok hs h.notMem.2).mpr ⟨h, hn⟩
    | @groups s₀ s₁ s₂ n₀ n₁ n₂ h₀ h₁ h₂ hn₀ hn₁ hn₂ =>
      have hsplit : (s₀ ++ ':' :: s₁ ++ ':' :: s₂).splitOn ':' = [s₀, s₁, s₂] := by
        rw [List.append_assoc, List.cons_append,
          List.splitOn_append_cons_self_of_not_mem h₀.notMem.2,
          List.splitOn_append_cons_self_of_not_mem h₁.notMem.2,
          List.splitOn_eq_singleton h₂.notMem.2]
      rw [asPartToInt_groups_eq_ok h₀.notMem.1 h₁.notMem.1 h₂.notMem.1 hsplit,
        asGroups_three_eq_ok h₀.notMem.1 h₁.notMem.1 h₂.notMem.1]
      exact ⟨n₀, n₁, n₂, h₀, h₁, h₂, hn₀, hn₁, hn₂, rfl⟩

/-- An AS number has at most 48 bits. -/
lemma AsForm.lt {num : ℕ → List Char → ℕ → Prop} {s : List Char} {n : ℕ} (h : AsForm num s n) :
    n < 2 ^ 48 := by
  cases h with
  | decimal _ hn => omega
  | groups _ _ _ hn₀ hn₁ hn₂ => omega

/-- The AS part of the grammar of the code has neither blanks at its ends nor a hyphen. -/
lemma AsForm.strip_and_notMem {s : List Char} {n : ℕ} (h : AsForm IsUnsignedNumeral s n) :
    strip s = s ∧ '-' ∉ s := by
  have hhyphen : ∀ c ∈ s, c ≠ '-' :=
    h.forall_mem (fun _ hnum _ hc heq => hnum.notMem.1 (heq ▸ hc)) (by decide)
  refine ⟨?_, fun hc => hhyphen _ hc rfl⟩
  cases h with
  | decimal h _ => exact h.strip_eq
  | @groups s₀ s₁ s₂ n₀ n₁ n₂ h₀ h₁ h₂ _ _ _ =>
    obtain ⟨hne₀, hhead₀, -⟩ := h₀.isSignedNumeral.ends
    obtain ⟨hne₂, -, hlast₂⟩ := h₂.isSignedNumeral.ends
    refine stripBy_eq_self ?_ ?_
    · rw [List.append_assoc, List.head?_append_of_ne_nil _ hne₀]
      exact hhead₀
    · rw [List.getLast?_append_of_ne_nil _ (List.cons_ne_nil _ _),
        List.getLast?_cons_of_ne_nil hne₂]
      exact hlast₂

/-- **The language of the code**: numbers as `int` reads them, in the places of the grammar. -/
theorem iaStrToInt_eq_ok_iff {ia : String} {v : ℕ} :
    iaStrToInt ia = .ok v ↔
      ∃ isd asn, IaForm IsUnsignedNumeral ia.toList isd asn ∧ v = isd * 2 ^ 48 + asn := by
  constructor
  · intro h
    unfold iaStrToInt at h
    split at h
    · rename_i isdPart asPart hparts
      have hisdPart : '-' ∉ isdPart := notMem_of_mem_splitOn (hparts ▸ List.mem_cons_self)
      have hasPart : '-' ∉ asPart := notMem_of_mem_splitOn (s := ia.toList) (by simp [hparts])
      have hjoin := @List.intercalate_splitOn _ ia.toList _ _ '-'
      rw [hparts] at hjoin
      by_cases hisd : strip isdPart = isdPart
      · by_cases has : strip asPart = asPart
        · rcases hz : toInt 10 isdPart with e | z
          · simp [hisd, has, hz, bind, Except.bind] at h
          obtain ⟨isd, rfl, hnum⟩ := (strip_and_toInt_iff hisdPart).mp ⟨hisd, hz⟩
          by_cases hlarge : 65535 < (isd : ℤ)
          · simp [hisd, has, hz, hlarge, bind, Except.bind, throw, throwThe,
              MonadExceptOf.throw] at h
          rcases hv : asPartToInt asPart with e | asn
          · simp [hisd, has, hz, hlarge, hv, bind, Except.bind] at h
          have hform := (asPartToInt_eq_ok_iff hasPart).mp hv
          simp only [hisd, has, hz, hlarge, hv, bind, Except.bind, pure, Except.pure, ne_eq,
            not_true_eq_false, if_false, Int.toNat_natCast, Except.ok.injEq] at h
          refine ⟨isd, asn, ⟨isdPart, asPart, ?_, hnum, by omega, hform⟩, ?_⟩
          · rw [← hjoin]
            simp [List.intercalate_cons_cons]
          · rw [← h, shiftLeft_or hform.lt]
        · simp [hisd, has, bind, Except.bind, throw, throwThe, MonadExceptOf.throw] at h
      · simp [hisd, bind, Except.bind, throw, throwThe, MonadExceptOf.throw] at h
    · simp [throw, throwThe, MonadExceptOf.throw] at h
  · rintro ⟨isd, asn, ⟨isdPart, asPart, hia, hnum, hle, hform⟩, rfl⟩
    obtain ⟨hstrip, hasPart⟩ := hform.strip_and_notMem
    obtain ⟨hisd, hz⟩ := (strip_and_toInt_iff hnum.notMem.1).mpr ⟨isd, rfl, hnum⟩
    have hparts : ia.toList.splitOn '-' = [isdPart, asPart] := by
      rw [hia, List.splitOn_append_cons_self_of_not_mem hnum.notMem.1,
        List.splitOn_eq_singleton hasPart]
    have hlarge : ¬65535 < (isd : ℤ) := by omega
    have hv := (asPartToInt_eq_ok_iff hasPart).mpr hform
    unfold iaStrToInt
    simp only [hparts, hisd, hstrip, hz, hlarge, hv, bind, Except.bind, pure, Except.pure, ne_eq,
      not_true_eq_false, if_false, Int.toNat_natCast, shiftLeft_or hform.lt]

/-- An ISD-AS number does not contain the letter r. -/
lemma r_notMem_of_iaStrToInt {ia : String} {v : ℕ} (h : iaStrToInt ia = .ok v) :
    'r' ∉ ia.toList := by
  obtain ⟨isd, asn, hform, -⟩ := iaStrToInt_eq_ok_iff.mp h
  intro hmem
  refine hform.forall_mem (P := fun c => c ≠ 'r') ?_ (by decide) (by decide) 'r' hmem rfl
  rintro base t k hbase hnum c hc rfl
  have hvalue : digitValue base 'r' = none := by
    have hlarge : ¬27 < base := by omega
    simp [digitValue, Option.filter, hlarge]
  exact hnum.isSignedNumeral.notMem (by decide) hvalue (by decide) hc

/-! ## Errors -/

/-- The only exception that a computation can raise is `ValueError`. -/
def OnlyValueError {α : Type} (x : Except Exc α) : Prop :=
  ∀ e, x = .error e → ∃ msg, e = .valueError msg

namespace OnlyValueError

variable {α β : Type}

/-- A returned value is no exception. -/
lemma ok (a : α) : OnlyValueError (.ok a) := by
  intro e h
  simp at h

/-- A raised `ValueError`. -/
lemma raise (msg : String) : OnlyValueError (throw (.valueError msg) : Except Exc α) := by
  intro e h
  exact ⟨msg, (Except.error.inj h).symm⟩

/-- One computation after the other. -/
lemma bind {x : Except Exc α} {f : α → Except Exc β} (hx : OnlyValueError x)
    (hf : ∀ a, OnlyValueError (f a)) : OnlyValueError (x >>= f) := by
  cases x with
  | ok a => exact hf a
  | error e =>
    intro e' h
    obtain rfl : e = e' := Except.error.inj h
    exact hx e rfl

/-- A check that raises `ValueError` before the computation goes on. -/
lemma check {p : Prop} [Decidable p] {msg : String} {f : PUnit → Except Exc α}
    (hf : OnlyValueError (f ())) :
    OnlyValueError (if p then throw (.valueError msg) >>= f else f ()) := by
  split
  · apply bind (raise msg)
    intro _
    exact hf
  · exact hf

/-- Reading an integer. -/
lemma toInt (base : ℕ) (s : List Char) : OnlyValueError (toInt base s) := by
  unfold Esdx.toInt
  split
  · exact ok _
  · exact raise _

/-- The groups of an AS number. -/
lemma asGroups (ss : List (List Char)) (acc : ℕ) : OnlyValueError (asGroups ss acc) := by
  induction ss generalizing acc with
  | nil => exact ok acc
  | cons s ss ih =>
    rw [Esdx.asGroups]
    apply check
    apply bind (toInt 16 s)
    intro z
    apply check
    exact ih _

/-- The AS part. -/
lemma asPartToInt (s : List Char) : OnlyValueError (asPartToInt s) := by
  unfold Esdx.asPartToInt
  split
  · rename_i t _
    apply check
    apply bind (toInt 10 t)
    intro z
    apply check
    exact ok _
  · rename_i s₀ s₁ s₂ _
    apply bind (asGroups [s₀, s₁, s₂] 0)
    intro v
    apply check
    exact ok _
  · exact raise _

/-- The whole text. -/
lemma iaStrToInt (ia : String) : OnlyValueError (iaStrToInt ia) := by
  unfold Esdx.iaStrToInt
  split
  · rename_i isdPart asPart _
    apply check
    apply check
    apply bind (toInt 10 isdPart)
    intro isd
    apply check
    apply bind (asPartToInt asPart)
    intro asn
    exact ok _
  · exact raise _

end OnlyValueError

/-! ## The two grammars -/

/-- Another way to write the numbers of the AS part. -/
lemma AsForm.imp {num num' : ℕ → List Char → ℕ → Prop} {s : List Char} {n : ℕ}
    (h : AsForm num s n)
    (himp : ∀ {base : ℕ} {t : List Char} {k : ℕ}, t ⊆ s → num base t k → num' base t k) :
    AsForm num' s n := by
  cases h with
  | decimal h hn => exact .decimal (himp (List.Subset.refl _) h) hn
  | groups h₀ h₁ h₂ hn₀ hn₁ hn₂ =>
    refine .groups (himp ?_ h₀) (himp ?_ h₁) (himp ?_ h₂) hn₀ hn₁ hn₂
    · intro c hc
      simp [hc]
    · intro c hc
      simp [hc]
    · intro c hc
      simp [hc]

/-- Another way to write the numbers. -/
lemma IaForm.imp {num num' : ℕ → List Char → ℕ → Prop} {s : List Char} {isd asn : ℕ}
    (h : IaForm num s isd asn)
    (himp : ∀ {base : ℕ} {t : List Char} {k : ℕ}, t ⊆ s → num base t k → num' base t k) :
    IaForm num' s isd asn := by
  obtain ⟨isdPart, asPart, rfl, hisd, hle, has⟩ := h
  refine ⟨isdPart, asPart, rfl, himp ?_ hisd, hle, has.imp fun ht => himp fun c hc => ?_⟩
  · exact List.subset_append_left _ _
  · exact List.mem_append_right _ (List.mem_cons_of_mem _ (ht hc))

/-- What the grammar accepts, the code accepts. -/
lemma IsIa.unsigned {s : List Char} {isd asn : ℕ} (h : IsIa s isd asn) :
    IaForm IsUnsignedNumeral s isd asn :=
  h.imp fun _ hnum => .inl hnum.isNumeral

/-- A digit of base ten or sixteen is a character of the grammar. -/
lemma isIaChar_of_digitValue {base : ℕ} {c : Char} (hbase : base ≤ 16)
    (h : (digitValue base c).isSome = true) : isIaChar c = true := by
  have hhex : isHexDigit c = true := by
    obtain ⟨d, hd⟩ := Option.isSome_iff_exists.mp h
    obtain ⟨hvalue, hlt⟩ := Option.filter_eq_some_iff.mp hd
    have hlt : d < base := of_decide_eq_true hlt
    refine Option.isSome_iff_exists.mpr ⟨d, Option.filter_eq_some_iff.mpr ⟨hvalue, ?_⟩⟩
    exact decide_eq_true (by omega)
  simp [isIaChar, hhex]

/-- An ISD-AS number in plain digits has no other characters. -/
lemma IsIa.isIaChar {s : List Char} {isd asn : ℕ} (h : IsIa s isd asn) :
    ∀ c ∈ s, isIaChar c = true :=
  h.forall_mem (fun hbase hnum c hc => isIaChar_of_digitValue hbase (hnum.allDigits c hc))
    (by decide) (by decide)

/-- An unsigned numeral of characters of the grammar is plain. -/
lemma IsUnsignedNumeral.isPlainNumeral {base n : ℕ} {s : List Char}
    (h : IsUnsignedNumeral base s n) (hs : ∀ c ∈ s, isIaChar c = true) :
    IsPlainNumeral base s n := by
  rcases h with h | ⟨t, rfl, -⟩
  · apply h.isPlainNumeral
    intro c hc
    have hia := hs c hc
    rcases h.mem c hc with rfl | rfl | rfl | hdigit
    · exact absurd hia (by decide)
    · exact absurd hia (by decide)
    · exact absurd hia (by decide)
    · have hascii : isAscii c = true := by
        simp only [Esdx.isIaChar, Bool.or_eq_true, beq_iff_eq] at hia
        rcases hia with (hia | rfl) | rfl
        · obtain ⟨d, hd⟩ := Option.isSome_iff_exists.mp hia
          exact isAscii_of_digitValue hd
        · decide
        · decide
      rw [digitOf, toAsciiDecimal_of_isAscii hascii] at hdigit
      exact hdigit
  · exact absurd (hs '+' List.mem_cons_self) (by decide)

/-- **ISD-AS grammar.**  `ia_str_to_int` follows the grammar on exactly the texts that are not an
ISD-AS number in other characters than digits. -/
theorem followsIaGrammar_iff (ia : String) : FollowsIaGrammar ia ↔ ¬IsMisspelledIa ia.toList := by
  constructor
  · rintro h ⟨⟨isd, asn, hform⟩, c, hc, hne⟩
    have hok := iaStrToInt_eq_ok_iff.mpr ⟨isd, asn, hform, rfl⟩
    obtain ⟨isd', asn', hia, -⟩ := (h.accepts _).mp hok
    rw [hia.isIaChar c hc] at hne
    exact Bool.noConfusion hne
  · intro hspelled
    have haccepts : ∀ v, iaStrToInt ia = .ok v ↔
        ∃ isd asn, IsIa ia.toList isd asn ∧ v = isd * 2 ^ 48 + asn := by
      intro v
      rw [iaStrToInt_eq_ok_iff]
      constructor
      · rintro ⟨isd, asn, hform, rfl⟩
        have hchars : ∀ c ∈ ia.toList, isIaChar c = true := by
          intro c hc
          by_contra hne
          exact hspelled ⟨⟨isd, asn, hform⟩, c, hc, Bool.not_eq_true _ ▸ hne⟩
        exact ⟨isd, asn, hform.imp fun ht hnum => hnum.isPlainNumeral fun c hc => hchars c (ht hc),
          rfl⟩
      · rintro ⟨isd, asn, hia, rfl⟩
        exact ⟨isd, asn, hia.unsigned, rfl⟩
    refine ⟨haccepts, fun v isd asn hv hia => ?_, fun hnone => ?_⟩
    · have hok := (haccepts _).mpr ⟨isd, asn, hia, rfl⟩
      rw [hv, Except.ok.injEq] at hok
      obtain ⟨_, _, _, _, hisd, has⟩ := hia
      have hasn := has.lt
      refine ⟨?_, ?_, ?_⟩
      · omega
      · omega
      · omega
    · rcases hv : iaStrToInt ia with e | v
      · obtain ⟨msg, rfl⟩ := OnlyValueError.iaStrToInt ia e hv
        exact ⟨msg, rfl⟩
      · obtain ⟨isd, asn, hia, -⟩ := (haccepts v).mp hv
        exact absurd ⟨isd, asn, hia⟩ hnone

/-- A plus sign is accepted. -/
theorem not_followsIaGrammar : ¬FollowsIaGrammar "+1-1" := by
  intro h
  have hok : iaStrToInt "+1-1" = .ok (2 ^ 48 + 1) := by decide +kernel
  obtain ⟨isd, asn, hia, -⟩ := (h.accepts _).mp hok
  exact absurd (hia.isIaChar '+' (by decide)) (by decide)

end Esdx
