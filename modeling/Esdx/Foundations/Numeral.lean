import Esdx.Foundations.PythonText

/-!
# The texts that `int` reads

`pyInt` computes what Python's `int(text, base)` returns.  This file says which texts it accepts, as
a grammar: blanks around a signed numeral (`IsIntText`), the numeral being digits of any script with
single underscores between them (`SpelledDigits`), in base 16 after an optional `0x`
(`IsNumeral`).  `pyInt_eq_some_iff` is the equivalence.

A plain numeral (`IsPlainNumeral`) consists of ASCII digits only and denotes their positional value.
`exists_isPlainNumeral_iff` says that the plain numerals are the texts without other characters
that `int` reads.
-/

namespace PythonText

/-! ## Characters -/

/-- The value of a character as a digit of any script, or as an ASCII letter. -/
def digitOf (base : ℕ) (c : Char) : Option ℕ := digitValue base (toAsciiDecimal c)

/-- A blank that `int` skips around a numeral. -/
def isBlank (c : Char) : Bool := isCSpace (toAsciiDecimal c)

/-- An ASCII character stays. -/
lemma toAsciiDecimal_of_isAscii {c : Char} (h : isAscii c = true) : toAsciiDecimal c = c := by
  rw [toAsciiDecimal, if_pos h]

/-- A decimal digit has a value below ten. -/
lemma decimalValue_lt {c : Char} {d : ℕ} (h : decimalValue c = some d) : d < 10 := by
  unfold decimalValue at h
  split at h
  · split at h
    · rename_i hc
      have h9 : c.toNat ≤ 57 := hc.2
      have hd : c.toNat - 48 = d := Option.some.inj h
      omega
    · simp at h
  · obtain ⟨z, hz, rfl⟩ := Option.map_eq_some_iff.mp h
    have hrange := List.find?_some hz
    simp only [Bool.and_eq_true, decide_eq_true_eq] at hrange
    omega

/-- A character outside ASCII becomes a blank, a digit or a question mark. -/
lemma toAsciiDecimal_of_not_isAscii {c : Char} (h : isAscii c = false) :
    toAsciiDecimal c ∈ [' ', '?', '0', '1', '2', '3', '4', '5', '6', '7', '8', '9'] := by
  have hdigit : ∀ d < 10,
      Nat.digitChar d ∈ ['0', '1', '2', '3', '4', '5', '6', '7', '8', '9'] := by
    decide
  unfold toAsciiDecimal
  rw [if_neg (by simp [h])]
  split
  · exact List.mem_cons_self
  · split
    · rename_i d hd
      exact List.mem_cons_of_mem _ (List.mem_cons_of_mem _ (hdigit d (decimalValue_lt hd)))
    · exact List.mem_cons_of_mem _ List.mem_cons_self

/-- A mark is an ASCII character that no character outside ASCII is replaced by. -/
def isMark (c : Char) : Bool :=
  isAscii c && !([' ', '?', '0', '1', '2', '3', '4', '5', '6', '7', '8', '9'].contains c)

/-- A mark stands for itself only. -/
lemma toAsciiDecimal_eq_mark {c x : Char} (hx : isMark x = true) :
    toAsciiDecimal c = x ↔ c = x := by
  simp only [isMark, Bool.and_eq_true, Bool.not_eq_true', List.contains_eq_mem,
    decide_eq_false_iff_not] at hx
  rcases hc : isAscii c with _ | _
  · refine iff_of_false ?_ ?_
    · rintro rfl
      exact hx.2 (toAsciiDecimal_of_not_isAscii hc)
    · rintro rfl
      simp [hx.1] at hc
  · rw [toAsciiDecimal_of_isAscii hc]

/-- An underscore has no value. -/
lemma digitValue_underscore (base : ℕ) : digitValue base '_' = none := rfl

/-- The code points of the characters with a digit value: ASCII digits and letters. -/
lemma toNat_of_digitValue {base d : ℕ} {c : Char} (h : digitValue base c = some d) :
    (48 ≤ c.toNat ∧ c.toNat ≤ 57) ∨ (97 ≤ c.toNat ∧ c.toNat ≤ 122) ∨
      (65 ≤ c.toNat ∧ c.toNat ≤ 90) := by
  unfold digitValue at h
  obtain ⟨h, -⟩ := Option.filter_eq_some_iff.mp h
  split at h
  · rename_i hc
    exact .inl hc
  · split at h
    · rename_i hc
      exact .inr (.inl hc)
    · split at h
      · rename_i hc
        exact .inr (.inr hc)
      · simp at h

/-- A character with a digit value is ASCII. -/
lemma isAscii_of_digitValue {base d : ℕ} {c : Char} (h : digitValue base c = some d) :
    isAscii c = true := by
  have hrange := toNat_of_digitValue h
  simp only [isAscii, decide_eq_true_eq]
  omega

/-- A character with a digit value is no blank. -/
lemma isSpace_of_digitValue {base d : ℕ} {c : Char} (h : digitValue base c = some d) :
    isSpace c = false := by
  have hrange := toNat_of_digitValue h
  simp only [isSpace, Bool.or_eq_false_iff, Bool.and_eq_false_iff, decide_eq_false_iff_not,
    beq_eq_false_iff_ne]
  omega

/-- A digit of any base is no blank. -/
lemma isSpace_of_digitOf {base : ℕ} {c : Char} (h : (digitOf base c).isSome = true) :
    isSpace c = false := by
  obtain ⟨d, hd⟩ := Option.isSome_iff_exists.mp h
  rcases hc : isAscii c with _ | _
  · by_contra hspace
    rw [Bool.not_eq_false] at hspace
    have hblank : toAsciiDecimal c = ' ' := by
      rw [toAsciiDecimal, if_neg (by simp [hc]), if_pos hspace]
    rw [digitOf, hblank] at hd
    exact absurd (toNat_of_digitValue hd) (by decide)
  · rw [digitOf, toAsciiDecimal_of_isAscii hc] at hd
    exact isSpace_of_digitValue hd

/-- What `int` skips is a blank. -/
lemma isSpace_of_isBlank {c : Char} (h : isBlank c = true) : isSpace c = true := by
  unfold isBlank at h
  rcases hc : isAscii c with _ | _
  · unfold toAsciiDecimal at h
    rw [if_neg (by simp [hc])] at h
    split at h
    · rename_i hspace
      exact hspace
    · split at h
      · rename_i d hd
        have hdigit : ∀ d < 10, isCSpace (Nat.digitChar d) = false := by decide
        simp [hdigit d (decimalValue_lt hd)] at h
      · exact absurd h (by decide)
  · rw [toAsciiDecimal_of_isAscii hc] at h
    simp only [isCSpace, Bool.or_eq_true, Bool.and_eq_true, decide_eq_true_eq, beq_iff_eq] at h
    simp only [isSpace, Bool.or_eq_true, Bool.and_eq_true, decide_eq_true_eq, beq_iff_eq]
    omega

/-! ## Digits with underscores between them -/

/-- `SpelledDigits base acc s n`: the digits `s`, with single underscores between them, continue the
value `acc` to `n`. -/
inductive SpelledDigits (base : ℕ) : ℕ → List Char → ℕ → Prop
  | last {acc d : ℕ} {c : Char} (h : digitOf base c = some d) :
    SpelledDigits base acc [c] (acc * base + d)
  | next {acc d n : ℕ} {c : Char} {s : List Char} (h : digitOf base c = some d)
    (rest : SpelledDigits base (acc * base + d) s n) : SpelledDigits base acc (c :: s) n
  | underscore {acc d n : ℕ} {c : Char} {s : List Char} (h : digitOf base c = some d)
    (rest : SpelledDigits base (acc * base + d) s n) : SpelledDigits base acc (c :: '_' :: s) n

/-- After a digit the text ends, goes on with a digit, or has one underscore before the next
digit. -/
lemma readDigits_false_eq_some {base acc n : ℕ} {s : List Char} :
    readDigits base acc false s = some n ↔
      (s = [] ∧ acc = n) ∨ readDigits base acc true s = some n ∨
        ∃ t, s = '_' :: t ∧ readDigits base acc true t = some n := by
  cases s with
  | nil => simp [readDigits]
  | cons c s =>
    rw [readDigits, readDigits]
    rcases eq_or_ne c '_' with rfl | hc
    · simp
    · simp [hc]

/-- Where a digit must come next, the first character is one. -/
lemma readDigits_true_eq_some {base acc n : ℕ} {c : Char} {s : List Char} :
    readDigits base acc true (c :: s) = some n ↔
      ∃ d, digitValue base c = some d ∧ readDigits base (acc * base + d) false s = some n := by
  rw [readDigits]
  rcases eq_or_ne c '_' with rfl | hc
  · simp [digitValue_underscore]
  · rw [if_neg hc]
    cases digitValue base c with
    | none => simp
    | some d => simp

/-- The digits that are read are the spelled ones. -/
lemma readDigits_eq_some_iff {base n : ℕ} {s : List Char} : ∀ {acc : ℕ},
    readDigits base acc true (s.map toAsciiDecimal) = some n ↔ SpelledDigits base acc s n := by
  -- an underscore takes two characters, hence the induction on the length
  induction hlen : s.length using Nat.strong_induction_on generalizing s with
  | _ len ih =>
    intro acc
    constructor
    · intro h
      cases s with
      | nil => simp [readDigits] at h
      | cons c s =>
        rw [List.map_cons, readDigits_true_eq_some] at h
        obtain ⟨d, hd, h⟩ := h
        rw [List.length_cons] at hlen
        rw [readDigits_false_eq_some] at h
        rcases h with ⟨hnil, rfl⟩ | h | ⟨t, ht, h⟩
        · rw [List.map_eq_nil_iff] at hnil
          rw [hnil]
          exact .last hd
        · exact .next hd ((ih _ (by omega) rfl).mp h)
        · obtain ⟨x, u, rfl, hx, rfl⟩ := List.map_eq_cons_iff.mp ht
          obtain rfl : x = '_' := (toAsciiDecimal_eq_mark (by decide)).mp hx
          rw [List.length_cons] at hlen
          exact .underscore hd ((ih _ (by omega) rfl).mp h)
    · intro h
      cases h with
      | last hd =>
        rw [List.map_singleton, readDigits_true_eq_some]
        exact ⟨_, hd, rfl⟩
      | next hd rest =>
        rw [List.length_cons] at hlen
        rw [List.map_cons, readDigits_true_eq_some]
        refine ⟨_, hd, readDigits_false_eq_some.mpr (.inr (.inl ?_))⟩
        exact (ih _ (by omega) rfl).mpr rest
      | underscore hd rest =>
        rw [List.length_cons, List.length_cons] at hlen
        rw [List.map_cons, readDigits_true_eq_some]
        refine ⟨_, hd, readDigits_false_eq_some.mpr (.inr (.inr ⟨_, rfl, ?_⟩))⟩
        exact (ih _ (by omega) rfl).mpr rest

/-- Spelled digits begin with a digit. -/
lemma SpelledDigits.head {base acc n : ℕ} {s : List Char} (h : SpelledDigits base acc s n) :
    ∃ c t, s = c :: t ∧ (digitOf base c).isSome = true := by
  cases h with
  | last hd => exact ⟨_, _, rfl, by rw [hd]; rfl⟩
  | next hd _ => exact ⟨_, _, rfl, by rw [hd]; rfl⟩
  | underscore hd _ => exact ⟨_, _, rfl, by rw [hd]; rfl⟩

/-- Spelled digits end with a digit. -/
lemma SpelledDigits.last_digit {base acc n : ℕ} {s : List Char} (h : SpelledDigits base acc s n) :
    ∃ c t, s = t ++ [c] ∧ (digitOf base c).isSome = true := by
  induction h with
  | last hd => exact ⟨_, [], rfl, by rw [hd]; rfl⟩
  | @next _ _ _ c _ _ _ ih =>
    obtain ⟨x, t, rfl, hx⟩ := ih
    exact ⟨x, c :: t, rfl, hx⟩
  | @underscore _ _ _ c _ _ _ ih =>
    obtain ⟨x, t, rfl, hx⟩ := ih
    exact ⟨x, c :: '_' :: t, rfl, hx⟩

/-- Spelled digits consist of digits and underscores. -/
lemma SpelledDigits.mem {base acc n : ℕ} {s : List Char} (h : SpelledDigits base acc s n) :
    ∀ c ∈ s, c = '_' ∨ (digitOf base c).isSome = true := by
  induction h with
  | last hd =>
    intro c hc
    rw [List.mem_singleton] at hc
    rw [hc, hd]
    exact .inr rfl
  | next hd _ ih =>
    intro c hc
    rcases List.mem_cons.mp hc with rfl | hc
    · rw [hd]
      exact .inr rfl
    · exact ih c hc
  | underscore hd _ ih =>
    intro c hc
    rcases List.mem_cons.mp hc with rfl | hc
    · rw [hd]
      exact .inr rfl
    · rcases List.mem_cons.mp hc with rfl | hc
      · exact .inl rfl
      · exact ih c hc

/-! ## Numerals -/

/-- A prefix that may stand before the digits: nothing, or in base 16 a zero, the letter x and
possibly one underscore. -/
def IsBasePrefix (base : ℕ) (pre : List Char) : Prop :=
  pre = [] ∨ base = 16 ∧ ∃ z x under, pre = z :: x :: under ∧ toAsciiDecimal z = '0' ∧
    (x = 'x' ∨ x = 'X') ∧ (under = [] ∨ under = ['_'])

/-- An unsigned numeral: spelled digits after a prefix. -/
def IsNumeral (base : ℕ) (s : List Char) (n : ℕ) : Prop :=
  ∃ pre ds, s = pre ++ ds ∧ IsBasePrefix base pre ∧ SpelledDigits base 0 ds n

/-- The letter of the prefix stands for itself only. -/
lemma toAsciiDecimal_eq_x {c : Char} :
    toAsciiDecimal c = 'x' ∨ toAsciiDecimal c = 'X' ↔ c = 'x' ∨ c = 'X' := by
  rw [toAsciiDecimal_eq_mark (by decide), toAsciiDecimal_eq_mark (by decide)]

/-- Dropping the prefix of a text that has one. -/
lemma dropBasePrefix_x {x : Char} (hx : x = 'x' ∨ x = 'X') (s : List Char) :
    dropBasePrefix 16 ('0' :: x :: s) = if s.head? = some '_' then s.tail else s := by
  have hprefix : (16 : ℕ) = 16 ∧ (x = 'x' ∨ x = 'X') := ⟨rfl, hx⟩
  by_cases hhead : s.head? = some '_'
  · obtain ⟨t, rfl⟩ := List.head?_eq_some_iff.mp hhead
    rw [if_pos hhead]
    exact if_pos hprefix
  · rw [if_neg hhead, dropBasePrefix, if_pos hprefix]
    rintro t rfl
    exact hhead rfl

/-- A text without a prefix is kept. -/
lemma dropBasePrefix_of_ne {base : ℕ} {s : List Char}
    (h : ∀ x t, s = '0' :: x :: t → ¬(base = 16 ∧ (x = 'x' ∨ x = 'X'))) :
    dropBasePrefix base s = s := by
  unfold dropBasePrefix
  split
  · rename_i x t
    rw [if_neg (h x t rfl)]
  · rfl

/-- The letter of the prefix is no digit of base 16. -/
lemma digitOf_x {x : Char} (hx : x = 'x' ∨ x = 'X') : digitOf 16 x = none := by
  rcases hx with rfl | rfl
  · rfl
  · rfl

/-- Spelled digits have no letter of a prefix in second place. -/
lemma SpelledDigits.second_ne_x {base acc n : ℕ} {c x : Char} {s : List Char}
    (h : SpelledDigits base acc (c :: x :: s) n) : ¬(base = 16 ∧ (x = 'x' ∨ x = 'X')) := by
  rintro ⟨rfl, hx⟩
  cases h with
  | next _ rest =>
    obtain ⟨y, t, heq, hy⟩ := rest.head
    rw [← (List.cons.inj heq).1, digitOf_x hx] at hy
    simp at hy
  | underscore => simp at hx

/-- The numerals that are read. -/
lemma readNumeral_eq_some_iff {base n : ℕ} {s : List Char} :
    readNumeral base (s.map toAsciiDecimal) = some n ↔ IsNumeral base s n := by
  unfold readNumeral
  by_cases hpre : base = 16 ∧ ∃ z x t, s = z :: x :: t ∧ toAsciiDecimal z = '0' ∧
      (x = 'x' ∨ x = 'X')
  · obtain ⟨rfl, z, x, t, rfl, hz, hx⟩ := hpre
    have hmap : (z :: x :: t).map toAsciiDecimal = '0' :: x :: t.map toAsciiDecimal := by
      rw [List.map_cons, List.map_cons, hz]
      rcases hx with rfl | rfl <;> rfl
    rw [hmap, dropBasePrefix_x hx]
    constructor
    · intro h
      split at h
      · rename_i hhead
        obtain ⟨u, hu⟩ := List.head?_eq_some_iff.mp hhead
        obtain ⟨y, t, rfl, hy, rfl⟩ := List.map_eq_cons_iff.mp hu
        obtain rfl : y = '_' := (toAsciiDecimal_eq_mark (by decide)).mp hy
        rw [List.map_cons, List.tail_cons, readDigits_eq_some_iff] at h
        exact ⟨[z, x, '_'], t, rfl, .inr ⟨rfl, z, x, ['_'], rfl, hz, hx, .inr rfl⟩, h⟩
      · rw [readDigits_eq_some_iff] at h
        exact ⟨[z, x], t, rfl, .inr ⟨rfl, z, x, [], rfl, hz, hx, .inl rfl⟩, h⟩
    · rintro ⟨pre, ds, heq, hpre, h⟩
      rcases hpre with rfl | ⟨-, z', x', under, rfl, -, -, hunder⟩
      · rw [List.nil_append] at heq
        rw [← heq] at h
        exact absurd ⟨rfl, hx⟩ h.second_ne_x
      · simp only [List.cons_append, List.cons.injEq] at heq
        obtain ⟨-, -, rfl⟩ := heq
        rcases hunder with rfl | rfl
        · rw [List.nil_append, if_neg, readDigits_eq_some_iff]
          · exact h
          · obtain ⟨c, t, rfl, hc⟩ := h.head
            rw [List.map_cons, List.head?_cons, Option.some.injEq,
              toAsciiDecimal_eq_mark (by decide)]
            rintro rfl
            exact absurd hc (by simp [digitOf, toAsciiDecimal, isAscii, digitValue])
        · rw [if_pos (by rfl)]
          exact readDigits_eq_some_iff.mpr h
  · have hkeep : dropBasePrefix base (s.map toAsciiDecimal) = s.map toAsciiDecimal := by
      refine dropBasePrefix_of_ne ?_
      rintro x t heq ⟨hbase, hx⟩
      obtain ⟨z, u, rfl, hz, hu⟩ := List.map_eq_cons_iff.mp heq
      obtain ⟨y, v, rfl, hy, -⟩ := List.map_eq_cons_iff.mp hu
      rw [← hy] at hx
      exact hpre ⟨hbase, z, y, v, rfl, hz, toAsciiDecimal_eq_x.mp hx⟩
    rw [hkeep, readDigits_eq_some_iff]
    constructor
    · intro h
      exact ⟨[], s, rfl, .inl rfl, h⟩
    · rintro ⟨pre, ds, rfl, rfl | ⟨hbase, z, x, under, rfl, hz, hx, -⟩, h⟩
      · exact h
      · exact absurd ⟨hbase, z, x, under ++ ds, rfl, hz, hx⟩ hpre

/-- A digit is no sign. -/
lemma ne_sign_of_digitOf {base : ℕ} {c : Char} (h : (digitOf base c).isSome = true) :
    c ≠ '+' ∧ c ≠ '-' := by
  constructor
  · rintro rfl
    exact absurd h (by simp [digitOf, toAsciiDecimal, isAscii, digitValue])
  · rintro rfl
    exact absurd h (by simp [digitOf, toAsciiDecimal, isAscii, digitValue])

/-- What becomes the digit zero is itself a digit. -/
lemma digitOf_of_eq_zero {c : Char} (h : toAsciiDecimal c = '0') :
    (digitOf 16 c).isSome = true := by
  rw [digitOf, h]
  rfl

/-- A numeral begins with a digit. -/
lemma IsNumeral.head {base n : ℕ} {s : List Char} (h : IsNumeral base s n) :
    ∃ c t, s = c :: t ∧ isSpace c = false ∧ c ≠ '+' ∧ c ≠ '-' := by
  obtain ⟨pre, ds, rfl, hpre, h⟩ := h
  rcases hpre with rfl | ⟨-, z, x, under, rfl, hz, -⟩
  · obtain ⟨c, t, rfl, hc⟩ := h.head
    exact ⟨c, t, rfl, isSpace_of_digitOf hc, ne_sign_of_digitOf hc⟩
  · have hdigit := digitOf_of_eq_zero hz
    exact ⟨z, x :: under ++ ds, rfl, isSpace_of_digitOf hdigit, ne_sign_of_digitOf hdigit⟩

/-- A numeral ends with a digit. -/
lemma IsNumeral.last {base n : ℕ} {s : List Char} (h : IsNumeral base s n) :
    ∃ c t, s = t ++ [c] ∧ isSpace c = false := by
  obtain ⟨pre, ds, rfl, -, h⟩ := h
  obtain ⟨c, t, rfl, hc⟩ := h.last_digit
  exact ⟨c, pre ++ t, (List.append_assoc _ _ _).symm, isSpace_of_digitOf hc⟩

/-- A numeral consists of digits, underscores and the letter of the prefix. -/
lemma IsNumeral.mem {base n : ℕ} {s : List Char} (h : IsNumeral base s n) :
    ∀ c ∈ s, c = '_' ∨ c = 'x' ∨ c = 'X' ∨ (digitOf base c).isSome = true := by
  obtain ⟨pre, ds, rfl, hpre, h⟩ := h
  intro c hc
  rcases List.mem_append.mp hc with hc | hc
  · rcases hpre with rfl | ⟨rfl, z, x, under, rfl, hz, hx, hunder⟩
    · simp at hc
    · rcases List.mem_cons.mp hc with rfl | hc
      · exact .inr (.inr (.inr (digitOf_of_eq_zero hz)))
      · rcases List.mem_cons.mp hc with rfl | hc
        · rcases hx with rfl | rfl
          · exact .inr (.inl rfl)
          · exact .inr (.inr (.inl rfl))
        · rcases hunder with rfl | rfl
          · simp at hc
          · exact .inl (List.mem_singleton.mp hc)
  · rcases h.mem c hc with hc | hc
    · exact .inl hc
    · exact .inr (.inr (.inr hc))

/-- A mark that is neither a digit nor part of a prefix does not occur in a numeral. -/
lemma IsNumeral.notMem {base n : ℕ} {s : List Char} {x : Char} (h : IsNumeral base s n)
    (hmark : isMark x = true) (hvalue : digitValue base x = none) (hx : x ∉ ['_', 'x', 'X']) :
    x ∉ s := by
  intro hmem
  simp only [List.mem_cons, List.not_mem_nil, or_false, not_or] at hx
  rcases h.mem x hmem with hc | hc | hc | hc
  · exact hx.1 hc
  · exact hx.2.1 hc
  · exact hx.2.2 hc
  · rw [digitOf, (toAsciiDecimal_eq_mark hmark).mpr rfl, hvalue] at hc
    exact absurd hc (by decide)

/-! ## Signs and blanks -/

/-- A numeral with at most one sign. -/
inductive IsSignedNumeral (base : ℕ) : List Char → ℤ → Prop
  | unsigned {s : List Char} {n : ℕ} (h : IsNumeral base s n) : IsSignedNumeral base s n
  | plus {s : List Char} {n : ℕ} (h : IsNumeral base s n) : IsSignedNumeral base ('+' :: s) n
  | minus {s : List Char} {n : ℕ} (h : IsNumeral base s n) : IsSignedNumeral base ('-' :: s) (-n)

/-- `IsIntText base s z`: the text is a signed numeral of value `z` between blanks. -/
def IsIntText (base : ℕ) (s : List Char) (z : ℤ) : Prop :=
  ∃ l u r, s = l ++ u ++ r ∧ (∀ c ∈ l, isBlank c = true) ∧ (∀ c ∈ r, isBlank c = true) ∧
    IsSignedNumeral base u z

/-- A signed numeral neither begins nor ends with a blank. -/
lemma IsSignedNumeral.ends {base : ℕ} {s : List Char} {z : ℤ} (h : IsSignedNumeral base s z) :
    s ≠ [] ∧ (∀ c ∈ s.head?, isSpace c = false) ∧ ∀ c ∈ s.getLast?, isSpace c = false := by
  have hsigned : ∀ {x : Char} {t : List Char} {n : ℕ}, isSpace x = false → IsNumeral base t n →
      x :: t ≠ [] ∧ (∀ c ∈ (x :: t).head?, isSpace c = false) ∧
        ∀ c ∈ (x :: t).getLast?, isSpace c = false := by
    intro x t n hx ht
    obtain ⟨c, u, rfl, hc⟩ := ht.last
    refine ⟨List.cons_ne_nil _ _, ?_, ?_⟩
    · simpa using hx
    · rw [← List.cons_append, List.getLast?_concat]
      simpa using hc
  cases h with
  | unsigned h =>
    obtain ⟨c, t, hhead, hc, -⟩ := h.head
    obtain ⟨c', t', hlast, hc'⟩ := h.last
    refine ⟨by simp [hhead], ?_, ?_⟩
    · simpa [hhead] using hc
    · rw [hlast, List.getLast?_concat]
      simpa using hc'
  | plus h => exact hsigned (by decide) h
  | minus h => exact hsigned (by decide) h

/-- The sign and the numeral of a text without blanks around it. -/
def readSigned (base : ℕ) : List Char → Option ℤ
  | '-' :: cs => (readNumeral base cs).map fun n : ℕ => -(n : ℤ)
  | '+' :: cs => (readNumeral base cs).map fun n : ℕ => (n : ℤ)
  | cs => (readNumeral base cs).map fun n : ℕ => (n : ℤ)

/-- `int` reads the signed numeral between the blanks. -/
lemma pyInt_eq_readSigned (base : ℕ) (s : List Char) :
    pyInt base s = readSigned base (stripBy isCSpace (s.map toAsciiDecimal)) := rfl

/-- The signed numerals that are read. -/
lemma readSigned_eq_some_iff {base : ℕ} {s : List Char} {z : ℤ} :
    readSigned base (s.map toAsciiDecimal) = some z ↔ IsSignedNumeral base s z := by
  constructor
  · intro h
    unfold readSigned at h
    split at h
    · rename_i cs heq
      obtain ⟨n, hn, rfl⟩ := Option.map_eq_some_iff.mp h
      obtain ⟨y, t, rfl, hy, rfl⟩ := List.map_eq_cons_iff.mp heq
      obtain rfl : y = '-' := (toAsciiDecimal_eq_mark (by decide)).mp hy
      exact .minus (readNumeral_eq_some_iff.mp hn)
    · rename_i cs heq
      obtain ⟨n, hn, rfl⟩ := Option.map_eq_some_iff.mp h
      obtain ⟨y, t, rfl, hy, rfl⟩ := List.map_eq_cons_iff.mp heq
      obtain rfl : y = '+' := (toAsciiDecimal_eq_mark (by decide)).mp hy
      exact .plus (readNumeral_eq_some_iff.mp hn)
    · obtain ⟨n, hn, rfl⟩ := Option.map_eq_some_iff.mp h
      exact .unsigned (readNumeral_eq_some_iff.mp hn)
  · intro h
    cases h with
    | unsigned h =>
      obtain ⟨c, t, rfl, -, hplus, hminus⟩ := h.head
      have hread := readNumeral_eq_some_iff.mpr h
      unfold readSigned
      split
      · rename_i heq
        exact absurd ((toAsciiDecimal_eq_mark (by decide)).mp (List.cons.inj heq).1) hminus
      · rename_i heq
        exact absurd ((toAsciiDecimal_eq_mark (by decide)).mp (List.cons.inj heq).1) hplus
      · rw [hread]
        rfl
    | @plus t n h =>
      change (readNumeral base (t.map toAsciiDecimal)).map (fun n : ℕ => (n : ℤ)) = _
      rw [readNumeral_eq_some_iff.mpr h]
      rfl
    | @minus t n h =>
      change (readNumeral base (t.map toAsciiDecimal)).map (fun n : ℕ => -(n : ℤ)) = _
      rw [readNumeral_eq_some_iff.mpr h]
      rfl

/-- **The texts that `int` reads.** -/
theorem pyInt_eq_some_iff {base : ℕ} {s : List Char} {z : ℤ} :
    pyInt base s = some z ↔ IsIntText base s z := by
  rw [pyInt_eq_readSigned, stripBy_map, readSigned_eq_some_iff]
  constructor
  · intro h
    obtain ⟨l, r, hs, hl, hr⟩ := exists_eq_append_stripBy isBlank s
    exact ⟨l, _, r, hs, hl, hr, h⟩
  · rintro ⟨l, u, r, rfl, hl, hr, h⟩
    have hblank : ∀ {c : Char}, isSpace c = false → isBlank c = false := by
      intro c hc
      by_contra hne
      rw [isSpace_of_isBlank (Bool.not_eq_false _ ▸ hne)] at hc
      exact Bool.noConfusion hc
    obtain ⟨hne, hhead, hlast⟩ := h.ends
    have hstrip : stripBy isBlank (l ++ u ++ r) = u :=
      stripBy_wrap hl hr hne (fun c hc => hblank (hhead c hc)) fun c hc => hblank (hlast c hc)
    exact hstrip.symm ▸ h

/-- A signed numeral is read. -/
lemma IsSignedNumeral.isIntText {base : ℕ} {s : List Char} {z : ℤ} (h : IsSignedNumeral base s z) :
    IsIntText base s z :=
  ⟨[], s, [], by simp, by simp, by simp, h⟩

/-- A text that `strip` does not change is read when it is a signed numeral. -/
lemma isIntText_iff_of_strip {base : ℕ} {s : List Char} {z : ℤ} (hs : strip s = s) :
    IsIntText base s z ↔ IsSignedNumeral base s z := by
  refine ⟨?_, IsSignedNumeral.isIntText⟩
  rintro ⟨l, u, r, rfl, hl, hr, h⟩
  obtain ⟨hhead, hlast⟩ := stripBy_eq_self_iff.mp hs
  have hl : l = [] := by
    by_contra hne
    obtain ⟨c, t, rfl⟩ := List.exists_cons_of_ne_nil hne
    have hspace := isSpace_of_isBlank (hl c List.mem_cons_self)
    rw [hhead c (by simp)] at hspace
    exact Bool.noConfusion hspace
  have hr : r = [] := by
    by_contra hne
    have hspace := isSpace_of_isBlank (hr (r.getLast hne) (List.getLast_mem hne))
    rw [hlast (r.getLast hne) (by simp [List.getLast?_append_of_ne_nil _ hne,
      List.getLast?_eq_getLast_of_ne_nil hne])] at hspace
    exact Bool.noConfusion hspace
  rw [hl, hr, List.nil_append, List.append_nil]
  exact h

/-- A mark that is neither a sign, nor a digit, nor part of a prefix does not occur in a signed
numeral. -/
lemma IsSignedNumeral.notMem {base : ℕ} {s : List Char} {z : ℤ} {x : Char}
    (h : IsSignedNumeral base s z) (hmark : isMark x = true) (hvalue : digitValue base x = none)
    (hx : x ∉ ['_', 'x', 'X', '+', '-']) : x ∉ s := by
  simp only [List.mem_cons, List.not_mem_nil, or_false, not_or] at hx
  obtain ⟨hunder, hx, hX, hplus, hminus⟩ := hx
  have hprefix : x ∉ ['_', 'x', 'X'] := by simp [hunder, hx, hX]
  cases h with
  | unsigned h => exact h.notMem hmark hvalue hprefix
  | plus h =>
    rw [List.mem_cons, not_or]
    exact ⟨hplus, h.notMem hmark hvalue hprefix⟩
  | minus h =>
    rw [List.mem_cons, not_or]
    exact ⟨hminus, h.notMem hmark hvalue hprefix⟩

/-- Such a mark, if it is no blank, does not occur in a text that `int` reads. -/
lemma notMem_of_pyInt {base : ℕ} {s : List Char} {z : ℤ} {x : Char} (h : pyInt base s = some z)
    (hmark : isMark x = true) (hspace : isBlank x = false) (hvalue : digitValue base x = none)
    (hx : x ∉ ['_', 'x', 'X', '+', '-']) : x ∉ s := by
  obtain ⟨l, u, r, rfl, hl, hr, h⟩ := pyInt_eq_some_iff.mp h
  intro hmem
  rcases List.mem_append.mp hmem with hmem | hmem
  · rcases List.mem_append.mp hmem with hmem | hmem
    · rw [hl x hmem] at hspace
      exact Bool.noConfusion hspace
    · exact h.notMem hmark hvalue hx hmem
  · rw [hr x hmem] at hspace
    exact Bool.noConfusion hspace

/-- Without a minus sign `int` returns a natural number. -/
lemma pyInt_nonneg {base : ℕ} {s : List Char} {z : ℤ} (hs : '-' ∉ s)
    (h : pyInt base s = some z) : 0 ≤ z := by
  obtain ⟨l, u, r, rfl, -, -, h⟩ := pyInt_eq_some_iff.mp h
  cases h with
  | unsigned => exact Int.natCast_nonneg _
  | plus => exact Int.natCast_nonneg _
  | minus => exact absurd (by simp) hs

/-! ## Plain numerals -/

/-- `IsPlainNumeral base s n`: one or more ASCII digits of positional value `n`. -/
def IsPlainNumeral (base : ℕ) (s : List Char) (n : ℕ) : Prop :=
  ∃ ds : List ℕ, ds ≠ [] ∧ s.map (digitValue base) = ds.map some ∧ n = Nat.ofDigits base ds.reverse

/-- The text consists of ASCII digits of the base. -/
def AllDigits (base : ℕ) (s : List Char) : Prop := ∀ c ∈ s, (digitValue base c).isSome = true

/-- A digit of the base stands for itself. -/
lemma digitOf_of_digitValue {base d : ℕ} {c : Char} (h : digitValue base c = some d) :
    digitOf base c = some d := by
  rw [digitOf, toAsciiDecimal_of_isAscii (isAscii_of_digitValue h)]
  exact h

/-- The value of spelled digits without underscores is their positional value. -/
lemma SpelledDigits.plain {base acc n : ℕ} {s : List Char} (h : SpelledDigits base acc s n)
    (hs : AllDigits base s) :
    ∃ ds : List ℕ, ds ≠ [] ∧ s.map (digitValue base) = ds.map some ∧
      n = ds.foldl (fun v d => v * base + d) acc := by
  have hvalue : ∀ {c : Char} {d : ℕ}, (digitValue base c).isSome = true → digitOf base c = some d →
      digitValue base c = some d := by
    intro c d hc hd
    obtain ⟨d', hd'⟩ := Option.isSome_iff_exists.mp hc
    rw [hd', ← digitOf_of_digitValue hd', hd]
  induction h with
  | @last acc d c hd =>
    refine ⟨[d], List.cons_ne_nil _ _, ?_, rfl⟩
    rw [List.map_singleton, List.map_singleton, hvalue (hs c (by simp)) hd]
  | @next acc d n c s hd _ ih =>
    obtain ⟨ds, -, hmap, hn⟩ := ih fun x hx => hs x (List.mem_cons_of_mem _ hx)
    refine ⟨d :: ds, List.cons_ne_nil _ _, ?_, hn⟩
    rw [List.map_cons, List.map_cons, hmap, hvalue (hs c (by simp)) hd]
  | @underscore acc d n c s hd _ ih =>
    have hunder := hs '_' (by simp)
    rw [digitValue_underscore] at hunder
    exact absurd hunder (by decide)

/-- Digits are spelled digits. -/
lemma spelledDigits_of_map {base : ℕ} {ds : List ℕ} {s : List Char} (hne : ds ≠ [])
    (hs : s.map (digitValue base) = ds.map some) (acc : ℕ) :
    SpelledDigits base acc s (ds.foldl (fun v d => v * base + d) acc) := by
  induction ds generalizing s acc with
  | nil => exact absurd rfl hne
  | cons d ds ih =>
    rw [List.map_cons] at hs
    obtain ⟨c, t, rfl, hc, ht⟩ := List.map_eq_cons_iff.mp hs
    rcases ds with _ | ⟨d', ds⟩
    · rw [List.map_nil, List.map_eq_nil_iff] at ht
      rw [ht]
      exact .last (digitOf_of_digitValue hc)
    · exact .next (digitOf_of_digitValue hc) (ih (List.cons_ne_nil _ _) ht _)

/-- The positional value, digit by digit from the left. -/
lemma ofDigits_reverse_eq_foldl (base : ℕ) (ds : List ℕ) :
    Nat.ofDigits base ds.reverse = ds.foldl (fun v d => v * base + d) 0 := by
  rw [Nat.ofDigits_eq_foldr, List.foldr_reverse]
  congr 1
  funext v d
  rw [Nat.cast_id, add_comm, mul_comm]

/-- The characters of a plain numeral are digits. -/
lemma IsPlainNumeral.allDigits {base n : ℕ} {s : List Char} (h : IsPlainNumeral base s n) :
    AllDigits base s := by
  obtain ⟨ds, -, hmap, -⟩ := h
  intro c hc
  have hmem : digitValue base c ∈ ds.map some := hmap ▸ List.mem_map_of_mem hc
  obtain ⟨d, -, hd⟩ := List.mem_map.mp hmem
  rw [← hd]
  rfl

/-- A plain numeral is a numeral. -/
lemma IsPlainNumeral.isNumeral {base n : ℕ} {s : List Char} (h : IsPlainNumeral base s n) :
    IsNumeral base s n := by
  obtain ⟨ds, hne, hmap, rfl⟩ := h
  rw [ofDigits_reverse_eq_foldl]
  exact ⟨[], s, rfl, .inl rfl, spelledDigits_of_map hne hmap 0⟩

/-- A numeral of digits only is plain. -/
lemma IsNumeral.isPlainNumeral {base n : ℕ} {s : List Char} (h : IsNumeral base s n)
    (hs : AllDigits base s) : IsPlainNumeral base s n := by
  obtain ⟨pre, ds, rfl, rfl | ⟨rfl, z, x, under, rfl, -, hx, -⟩, h⟩ := h
  · obtain ⟨values, hne, hmap, hn⟩ := h.plain hs
    exact ⟨values, hne, hmap, by rw [ofDigits_reverse_eq_foldl]; exact hn⟩
  · have hdigit := hs x (by simp)
    rcases hx with rfl | rfl
    · exact absurd hdigit (by decide)
    · exact absurd hdigit (by decide)

/-- A sign is no digit. -/
lemma digitValue_sign {base : ℕ} : digitValue base '+' = none ∧ digitValue base '-' = none :=
  ⟨rfl, rfl⟩

/-- **Plain numerals** are the texts of digits only that `int` reads. -/
theorem exists_isPlainNumeral_iff {base : ℕ} {s : List Char} {z : ℤ} :
    (∃ n : ℕ, z = n ∧ IsPlainNumeral base s n) ↔ IsIntText base s z ∧ AllDigits base s := by
  constructor
  · rintro ⟨n, rfl, h⟩
    exact ⟨(IsSignedNumeral.unsigned h.isNumeral).isIntText, h.allDigits⟩
  · rintro ⟨h, hs⟩
    have hends : ∀ c ∈ s, isSpace c = false := by
      intro c hc
      obtain ⟨d, hd⟩ := Option.isSome_iff_exists.mp (hs c hc)
      exact isSpace_of_digitValue hd
    have hstrip : strip s = s := stripBy_eq_self (fun c hc => hends c (List.mem_of_mem_head? hc))
      fun c hc => hends c (List.mem_of_mem_getLast? hc)
    rw [isIntText_iff_of_strip hstrip] at h
    cases h with
    | unsigned h => exact ⟨_, rfl, h.isPlainNumeral hs⟩
    | plus h =>
      have hsign := hs '+' List.mem_cons_self
      rw [digitValue_sign.1] at hsign
      exact absurd hsign (by decide)
    | minus h =>
      have hsign := hs '-' List.mem_cons_self
      rw [digitValue_sign.2] at hsign
      exact absurd hsign (by decide)

end PythonText
