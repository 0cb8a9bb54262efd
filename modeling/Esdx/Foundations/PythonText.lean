import Mathlib.Tactic
import Mathlib.Data.List.DropRight

/-!
# Python's text primitives

Strings are handled as lists of characters.  This file defines `str.isspace`, `str.strip`,
`str.isdecimal`, `repr` of a text and the constructor `int(text, base)` as CPython documents them:
`int` skips surrounding blanks, accepts one sign, single underscores between digits, every Unicode
decimal digit and, in base 16, a `0x` prefix.

The main fact is the round trip `pyInt_toDigits`: the decimal numeral that `str` prints for a
natural number is read back by `int` as that number.
-/

namespace PythonText

/-! ## Characters -/

/-- `ord(c) < 128`. -/
def isAscii (c : Char) : Bool := c.toNat < 128

/-- `s.isascii()`. -/
def isAsciiText (s : String) : Bool := s.toList.all isAscii

/-- `c.isspace()`. -/
def isSpace (c : Char) : Bool :=
  let n := c.toNat
  (9 ≤ n && n ≤ 13) || (28 ≤ n && n ≤ 32) || n == 0x85 || n == 0xA0 || n == 0x1680 ||
    (0x2000 ≤ n && n ≤ 0x200A) || n == 0x2028 || n == 0x2029 || n == 0x202F || n == 0x205F ||
    n == 0x3000

/-- The blanks that the C function behind `int` skips (`Py_ISSPACE`). -/
def isCSpace (c : Char) : Bool := (9 ≤ c.toNat && c.toNat ≤ 13) || c.toNat == 32

/-- The code points of the non-ASCII zero digits (general category `Nd`). -/
def decimalZeros : List ℕ :=
  [0x0660, 0x06F0, 0x07C0, 0x0966, 0x09E6, 0x0A66, 0x0AE6, 0x0B66, 0x0BE6, 0x0C66, 0x0CE6,
    0x0D66, 0x0DE6, 0x0E50, 0x0ED0, 0x0F20, 0x1040, 0x1090, 0x17E0, 0x1810, 0x1946, 0x19D0,
    0x1A80, 0x1A90, 0x1B50, 0x1BB0, 0x1C40, 0x1C50, 0xA620, 0xA8D0, 0xA900, 0xA9D0, 0xA9F0,
    0xAA50, 0xABF0, 0xFF10, 0x104A0, 0x10D30, 0x11066, 0x110F0, 0x11136, 0x111D0, 0x112F0,
    0x11450, 0x114D0, 0x11650, 0x116C0, 0x11730, 0x118E0, 0x11950, 0x11C50, 0x11D50, 0x11DA0,
    0x16A60, 0x16B50, 0x1D7CE, 0x1D7D8, 0x1D7E2, 0x1D7EC, 0x1D7F6, 0x1E140, 0x1E2F0, 0x1E950,
    0x1FBF0]

/-- The value of a decimal digit of any script. -/
def decimalValue (c : Char) : Option ℕ :=
  if isAscii c then
    if '0' ≤ c ∧ c ≤ '9' then some (c.toNat - '0'.toNat) else none
  else
    (decimalZeros.find? fun z => z ≤ c.toNat && c.toNat < z + 10).map (c.toNat - ·)

/-- `c.isdecimal()`, which is also what `\d` matches. -/
def isDecimal (c : Char) : Bool := (decimalValue c).isSome

/-- The value of an ASCII digit in the given base, letters counting from ten. -/
def digitValue (base : ℕ) (c : Char) : Option ℕ :=
  let v :=
    if '0' ≤ c ∧ c ≤ '9' then some (c.toNat - '0'.toNat)
    else if 'a' ≤ c ∧ c ≤ 'z' then some (c.toNat - 'a'.toNat + 10)
    else if 'A' ≤ c ∧ c ≤ 'Z' then some (c.toNat - 'A'.toNat + 10)
    else none
  v.filter (· < base)

/-! ## Showing a text -/

/-- The text that `repr` writes for a character between the given quotes. -/
def reprChar (quote c : Char) : List Char :=
  if c = '\\' ∨ c = quote then ['\\', c]
  else if c = '\n' then ['\\', 'n']
  else if c = '\r' then ['\\', 'r']
  else if c = '\t' then ['\\', 't']
  else if c.toNat < 32 ∨ c.toNat = 127 then
    ['\\', 'x', Nat.digitChar (c.toNat / 16), Nat.digitChar (c.toNat % 16)]
  else [c]

/-- `repr(s)`: single quotes, unless only these occur in the text. -/
def pyRepr (s : String) : String :=
  let quote := if '\'' ∈ s.toList ∧ '"' ∉ s.toList then '"' else '\''
  String.ofList (quote :: (s.toList.flatMap (reprChar quote) ++ [quote]))

/-- A character that the error of `encode` quotes. -/
def escapeChar (c : Char) : String :=
  let (letter, width) :=
    if c.toNat < 256 then ('x', 2) else if c.toNat < 65536 then ('u', 4) else ('U', 8)
  let digits := Nat.toDigits 16 c.toNat
  String.ofList ('\\' :: letter :: (List.replicate (width - digits.length) '0' ++ digits))

/-- The error of `s.encode("ascii")`, which names the first characters that are not ASCII. -/
def encodeError (s : String) : String :=
  let start := s.toList.findIdx fun c => !isAscii c
  match (s.toList.drop start).takeWhile fun c => !isAscii c with
  | [c] => "'ascii' codec can't encode character '" ++ escapeChar c ++ "' in position " ++
      toString start ++ ": ordinal not in range(128)"
  | cs => "'ascii' codec can't encode characters in position " ++ toString start ++ "-" ++
      toString (start + cs.length - 1) ++ ": ordinal not in range(128)"

/-! ## Stripping -/

/-- Drop the characters satisfying `p` at both ends. -/
def stripBy (p : Char → Bool) (s : List Char) : List Char := (s.dropWhile p).rdropWhile p

/-- `s.strip()`. -/
def strip (s : List Char) : List Char := stripBy isSpace s

/-- A text whose first and last character stay is not changed by stripping. -/
lemma stripBy_eq_self {p : Char → Bool} {s : List Char} (hhead : ∀ c ∈ s.head?, p c = false)
    (hlast : ∀ c ∈ s.getLast?, p c = false) : stripBy p s = s := by
  unfold stripBy
  have hdrop : s.dropWhile p = s := by
    cases s with
    | nil => rfl
    | cons c cs => exact List.dropWhile_cons_of_neg (by simp [hhead c (by simp)])
  rw [hdrop, List.rdropWhile_eq_self_iff]
  intro hne hp
  have := hlast (s.getLast hne) (by simp [List.getLast?_eq_getLast_of_ne_nil hne])
  simp [this] at hp

/-- Stripping a text that is wrapped between two blocks of removable characters leaves the text,
provided its own ends stay. -/
lemma stripBy_wrap {p : Char → Bool} {l s r : List Char} (hl : ∀ c ∈ l, p c = true)
    (hr : ∀ c ∈ r, p c = true) (hne : s ≠ []) (hhead : ∀ c ∈ s.head?, p c = false)
    (hlast : ∀ c ∈ s.getLast?, p c = false) : stripBy p (l ++ s ++ r) = s := by
  unfold stripBy
  have hdrop : (l ++ s ++ r).dropWhile p = s ++ r := by
    rw [List.append_assoc, List.dropWhile_append_of_pos hl]
    cases s with
    | nil => exact absurd rfl hne
    | cons c cs => exact List.dropWhile_cons_of_neg (by simp [hhead c (by simp)])
  rw [hdrop]
  have hrev : (s ++ r).rdropWhile p = s.rdropWhile p := by
    unfold List.rdropWhile
    rw [List.reverse_append, List.dropWhile_append_of_pos (by simpa using hr)]
  rw [hrev, List.rdropWhile_eq_self_iff]
  intro hne' hp
  have := hlast (s.getLast hne') (by simp [List.getLast?_eq_getLast_of_ne_nil hne'])
  simp [this] at hp

/-- The last character left by stripping is not removable. -/
lemma getLast_stripBy {p : Char → Bool} {s : List Char} {c : Char}
    (h : c ∈ (stripBy p s).getLast?) : p c = false := by
  unfold stripBy at h
  have hne : (s.dropWhile p).rdropWhile p ≠ [] := by
    rintro hnil
    simp [hnil] at h
  rw [List.getLast?_eq_getLast_of_ne_nil hne] at h
  have hneg := List.rdropWhile_last_not p (s.dropWhile p) hne
  simp only [Option.mem_def, Option.some.injEq] at h
  simpa [h] using hneg

/-- Stripping cuts off two blocks of removable characters. -/
lemma exists_eq_append_stripBy (p : Char → Bool) (s : List Char) :
    ∃ l r, s = l ++ stripBy p s ++ r ∧ (∀ c ∈ l, p c = true) ∧ ∀ c ∈ r, p c = true := by
  refine ⟨s.takeWhile p, (s.dropWhile p).rtakeWhile p, ?_, ?_, ?_⟩
  · rw [stripBy, List.append_assoc, List.rdropWhile_append_rtakeWhile,
      List.takeWhile_append_dropWhile]
  · intro c hc
    exact List.mem_takeWhile_imp hc
  · intro c hc
    exact List.mem_rtakeWhile_imp hc

/-- Stripping a translated text translates the stripped text. -/
lemma stripBy_map (p : Char → Bool) (f : Char → Char) (s : List Char) :
    stripBy p (s.map f) = (stripBy (p ∘ f) s).map f := by
  simp only [stripBy, List.rdropWhile, List.dropWhile_map, ← List.map_reverse]

/-- A text that stripping does not change neither begins nor ends with a removable character. -/
lemma stripBy_eq_self_iff {p : Char → Bool} {s : List Char} :
    stripBy p s = s ↔ (∀ c ∈ s.head?, p c = false) ∧ ∀ c ∈ s.getLast?, p c = false := by
  refine ⟨fun h => ⟨fun c hc => ?_, fun c hc => ?_⟩, fun h => stripBy_eq_self h.1 h.2⟩
  · have hdrop : s.dropWhile p = s :=
      (List.dropWhile_suffix p).eq_of_length_le (by
        conv_lhs => rw [← h]
        exact (List.rdropWhile_prefix p _).length_le)
    obtain ⟨t, rfl⟩ := List.head?_eq_some_iff.mp hc
    by_contra hp
    rw [Bool.not_eq_false] at hp
    rw [List.dropWhile_cons_of_pos hp] at hdrop
    have hlength := (List.dropWhile_suffix p (l := t)).length_le
    rw [hdrop, List.length_cons] at hlength
    omega
  · rw [← h] at hc
    exact getLast_stripBy hc

/-! ## Splitting -/

/-- The characters of a joined text are the separator and the characters of the parts. -/
lemma mem_intercalate {x c : Char} {ls : List (List Char)} (h : c ∈ [x].intercalate ls) :
    c = x ∨ ∃ p ∈ ls, c ∈ p := by
  induction ls with
  | nil => simp [List.intercalate_nil] at h
  | cons p ls ih =>
    rcases ls with _ | ⟨q, ls⟩
    · rw [List.intercalate_singleton] at h
      exact .inr ⟨p, by simp, h⟩
    · rw [List.intercalate_cons_cons, List.mem_append, List.mem_append] at h
      rcases h with (h | h) | h
      · exact .inr ⟨p, by simp, h⟩
      · exact .inl (List.mem_singleton.mp h)
      · rcases ih h with h | ⟨p', hp', h⟩
        · exact .inl h
        · exact .inr ⟨p', by simp [hp'], h⟩

/-- A character of a part is a character of the joined text. -/
lemma mem_intercalate_of_mem {x c : Char} {ls : List (List Char)} {p : List Char} (hp : p ∈ ls)
    (hc : c ∈ p) : c ∈ [x].intercalate ls := by
  induction ls with
  | nil => simp at hp
  | cons q ls ih =>
    rcases ls with _ | ⟨r, ls⟩
    · rw [List.mem_singleton] at hp
      rwa [List.intercalate_singleton, ← hp]
    · rw [List.intercalate_cons_cons, List.mem_append, List.mem_append]
      rcases List.mem_cons.mp hp with rfl | hp
      · exact .inl (.inl hc)
      · exact .inr (ih hp)

/-- The parts of a split text consist of its characters. -/
lemma mem_of_mem_splitOn {x c : Char} {s p : List Char} (hp : p ∈ s.splitOn x) (hc : c ∈ p) :
    c ∈ s := by
  rw [← @List.intercalate_splitOn _ s _ _ x]
  exact mem_intercalate_of_mem hp hc

/-- The parts of a split text do not contain the separator. -/
lemma notMem_of_mem_splitOn {x : Char} {s p : List Char} (hp : p ∈ s.splitOn x) : x ∉ p := by
  induction s generalizing p with
  | nil =>
    rw [List.splitOn_nil, List.mem_singleton] at hp
    simp [hp]
  | cons c s ih =>
    rw [List.splitOn_cons_eq_if_modifyHead] at hp
    split at hp
    · rcases List.mem_cons.mp hp with rfl | hp
      · simp
      · exact ih hp
    · rename_i hne
      obtain ⟨q, qs, hqs⟩ := List.exists_cons_of_ne_nil (List.splitOn_ne_nil x s)
      rw [hqs] at hp ih
      rcases List.mem_cons.mp hp with rfl | hp
      · rw [List.mem_cons, not_or]
        exact ⟨fun h => hne (by simp [h]), ih (by simp)⟩
      · exact ih (by simp [hp])

/-- When every part is read successfully, each single part is. -/
lemma exists_of_mapM_eq_some {α β : Type} {f : α → Option β} {l : List α} {r : List β}
    (h : l.mapM f = some r) {a : α} (ha : a ∈ l) : ∃ b ∈ r, f a = some b := by
  induction l generalizing r with
  | nil => simp at ha
  | cons x l ih =>
    rw [List.mapM_cons] at h
    simp only [Option.bind_eq_bind, Option.bind_eq_some_iff, Option.pure_def] at h
    obtain ⟨b, hb, bs, hbs, hr⟩ := h
    obtain rfl := Option.some.inj hr
    rcases List.mem_cons.mp ha with rfl | ha
    · exact ⟨b, by simp, hb⟩
    · obtain ⟨b', hb', hf⟩ := ih hbs ha
      exact ⟨b', by simp [hb'], hf⟩

/-! ## Integers -/

/-- Read digits with single underscores between them; `fresh` says that a digit must come next. -/
def readDigits (base : ℕ) : ℕ → Bool → List Char → Option ℕ
  | acc, fresh, [] => if fresh then none else some acc
  | acc, fresh, c :: cs =>
    if c = '_' then
      if fresh then none else readDigits base acc true cs
    else
      match digitValue base c with
      | none => none
      | some d => readDigits base (acc * base + d) false cs

/-- Replace blanks and digits of other scripts by their ASCII counterparts. -/
def toAsciiDecimal (c : Char) : Char :=
  if isAscii c then c
  else if isSpace c then ' '
  else match decimalValue c with
    | some d => Nat.digitChar d
    | none => '?'

/-- Drop the prefix that the base allows: `0x`, with one underscore after it. -/
def dropBasePrefix (base : ℕ) : List Char → List Char
  | '0' :: x :: cs =>
    if base = 16 ∧ (x = 'x' ∨ x = 'X') then
      match cs with
      | '_' :: ds => ds
      | ds => ds
    else '0' :: x :: cs
  | cs => cs

/-- Read an unsigned numeral. -/
def readNumeral (base : ℕ) (s : List Char) : Option ℕ :=
  readDigits base 0 true (dropBasePrefix base s)

/-- `int(s, base)` for the bases 10 and 16, `none` standing for `ValueError`. -/
def pyInt (base : ℕ) (s : List Char) : Option ℤ :=
  match stripBy isCSpace (s.map toAsciiDecimal) with
  | '-' :: cs => (readNumeral base cs).map fun n : ℕ => -(n : ℤ)
  | '+' :: cs => (readNumeral base cs).map fun n : ℕ => (n : ℤ)
  | cs => (readNumeral base cs).map fun n : ℕ => (n : ℤ)

/-! ## The round trip -/

/-- An ASCII digit has its decimal value in base ten. -/
lemma digitValue_ten {c : Char} (h : c.isDigit) :
    digitValue 10 c = some (c.toNat - '0'.toNat) := by
  have hc : '0' ≤ c ∧ c ≤ '9' := by
    simp only [Char.isDigit, Bool.and_eq_true, decide_eq_true_eq] at h
    exact h
  have hlt : c.toNat - 48 < 10 := by
    have : c.toNat ≤ 57 := hc.2
    omega
  simp [digitValue, hc, Option.filter, hlt]

/-- An ASCII digit is ASCII. -/
lemma isAscii_of_isDigit {c : Char} (h : c.isDigit) : isAscii c := by
  simp only [Char.isDigit, Bool.and_eq_true, decide_eq_true_eq] at h
  have : c.toNat ≤ 57 := h.2
  simp only [isAscii, decide_eq_true_eq]
  omega

/-- A digit is none of the blanks, signs and separators. -/
lemma isDigit_facts {c : Char} (h : c.isDigit) :
    isCSpace c = false ∧ c ≠ '_' ∧ c ≠ '-' ∧ c ≠ '+' ∧ c ≠ 'x' ∧ c ≠ 'X' := by
  simp only [Char.isDigit, Bool.and_eq_true, decide_eq_true_eq] at h
  have h0 : 48 ≤ c.toNat := h.1
  have h9 : c.toNat ≤ 57 := h.2
  refine ⟨?_, ?_, ?_, ?_, ?_, ?_⟩
  · simp only [isCSpace, Bool.or_eq_false_iff, Bool.and_eq_false_iff, decide_eq_false_iff_not,
      beq_eq_false_iff_ne]
    omega
  all_goals
    rintro rfl
    revert h0 h9
    decide

/-- Reading a block of digits appends them to the value read so far. -/
lemma readDigits_digits {s : List Char} (hs : ∀ c ∈ s, c.isDigit) (acc : ℕ) :
    readDigits 10 acc false s = some (Nat.ofDigitChars 10 s acc) := by
  induction s generalizing acc with
  | nil => rfl
  | cons c cs ih =>
    have hc := hs c (by simp)
    rw [readDigits, if_neg (isDigit_facts hc).2.1, digitValue_ten hc, Nat.ofDigitChars_cons,
      mul_comm 10 acc]
    exact ih (fun d hd => hs d (by simp [hd])) _

/-- A nonempty block of digits is read as its value. -/
lemma readNumeral_digits {s : List Char} (hs : ∀ c ∈ s, c.isDigit) (hne : s ≠ []) :
    readNumeral 10 s = some (Nat.ofDigitChars 10 s 0) := by
  obtain ⟨c, cs, rfl⟩ := List.exists_cons_of_ne_nil hne
  have hc := hs c (by simp)
  have hpre : dropBasePrefix 10 (c :: cs) = c :: cs := by
    unfold dropBasePrefix
    split <;> simp_all
  rw [readNumeral, hpre, readDigits, if_neg (isDigit_facts hc).2.1, digitValue_ten hc,
    Nat.ofDigitChars_cons]
  have := readDigits_digits (fun d hd => hs d (by simp [hd])) (0 * 10 + (c.toNat - '0'.toNat))
    (s := cs)
  simpa using this

/-- A nonempty block of digits is not changed by the normalisation that `int` starts with. -/
lemma normalize_digits {s : List Char} (hs : ∀ c ∈ s, c.isDigit) :
    stripBy isCSpace (s.map toAsciiDecimal) = s := by
  have hmap : s.map toAsciiDecimal = s := by
    conv_rhs => rw [← List.map_id s]
    refine List.map_congr_left fun c hc => ?_
    simp [toAsciiDecimal, isAscii_of_isDigit (hs c hc)]
  rw [hmap]
  refine stripBy_eq_self ?_ ?_
  · intro c hc
    exact (isDigit_facts (hs c (List.mem_of_mem_head? hc))).1
  · intro c hc
    exact (isDigit_facts (hs c (List.mem_of_mem_getLast? hc))).1

/-- A nonempty block of digits is read by `int` as its value. -/
lemma pyInt_digits {s : List Char} (hs : ∀ c ∈ s, c.isDigit) (hne : s ≠ []) :
    pyInt 10 s = some (Nat.ofDigitChars 10 s 0 : ℤ) := by
  unfold pyInt
  rw [normalize_digits hs]
  obtain ⟨c, cs, rfl⟩ := List.exists_cons_of_ne_nil hne
  obtain ⟨-, -, hm, hp, -⟩ := isDigit_facts (hs c (by simp))
  split
  · simp_all
  · simp_all
  · simp [readNumeral_digits hs hne]

/-- The characters of a decimal numeral are digits. -/
lemma isDigit_of_mem_toDigits {n : ℕ} {c : Char} (h : c ∈ Nat.toDigits 10 n) : c.isDigit :=
  Nat.isDigit_of_mem_toDigits (by decide) (by decide) h

/-- **Round trip.**  `int(str(n)) == n` for every natural number `n`. -/
theorem pyInt_toDigits (n : ℕ) : pyInt 10 (Nat.toDigits 10 n) = some (n : ℤ) := by
  rw [pyInt_digits (fun _ => isDigit_of_mem_toDigits) Nat.toDigits_ne_nil,
    Nat.ofDigitChars_ten_toDigits]

/-- `int(str(z)) == z` for every integer `z`. -/
theorem pyInt_toString (z : ℤ) : pyInt 10 (toString z).toList = some z := by
  cases z with
  | ofNat n => exact (congrArg (pyInt 10) Nat.toList_repr).trans (pyInt_toDigits n)
  | negSucc n =>
    have hs : (toString (Int.negSucc n)).toList = '-' :: Nat.toDigits 10 (n + 1) := by
      change ("-" ++ (n + 1).repr).toList = _
      simp
    have hmap : ('-' :: Nat.toDigits 10 (n + 1)).map toAsciiDecimal =
        '-' :: Nat.toDigits 10 (n + 1) := by
      conv_rhs => rw [← List.map_id ('-' :: Nat.toDigits 10 (n + 1))]
      refine List.map_congr_left fun c hc => ?_
      rcases List.mem_cons.mp hc with rfl | hc
      · decide
      · simp [toAsciiDecimal, isAscii_of_isDigit (isDigit_of_mem_toDigits hc)]
    rw [hs, pyInt, hmap, stripBy_eq_self]
    · simp [readNumeral_digits (fun _ => isDigit_of_mem_toDigits) Nat.toDigits_ne_nil,
        Int.negSucc_eq]
    · simp [isCSpace]
    · intro c hc
      rw [List.getLast?_cons_of_ne_nil Nat.toDigits_ne_nil] at hc
      exact (isDigit_facts (isDigit_of_mem_toDigits (List.mem_of_mem_getLast? hc))).1

/-- A printed integer consists of digits and a minus sign. -/
lemma isDigit_or_eq_minus_of_mem_toString {z : ℤ} {c : Char} (h : c ∈ (toString z).toList) :
    c.isDigit ∨ c = '-' := by
  cases z with
  | ofNat n =>
    have h : c ∈ n.repr.toList := h
    rw [Nat.toList_repr] at h
    exact .inl (isDigit_of_mem_toDigits h)
  | negSucc n =>
    have h : c ∈ ("-" ++ (n + 1).repr).toList := h
    rw [String.toList_append, Nat.toList_repr] at h
    rcases List.mem_append.mp h with h | h
    · exact .inr (by simpa using h)
    · exact .inl (isDigit_of_mem_toDigits h)

/-- `str` is injective on integers. -/
lemma toString_inj {z w : ℤ} : toString z = toString w ↔ z = w := by
  refine ⟨fun h => ?_, fun h => by rw [h]⟩
  have := pyInt_toString z
  rw [h, pyInt_toString w] at this
  exact (Option.some.inj this).symm

/-! ## Labelled texts -/

/-- What stands before the first `c` is determined. -/
lemma append_cons_inj_left {α : Type} {c : α} {l l' r r' : List α} (hl : c ∉ l) (hl' : c ∉ l') :
    l ++ c :: r = l' ++ c :: r' ↔ l = l' ∧ r = r' := by
  induction l generalizing l' with
  | nil =>
    rcases l' with _ | ⟨d, l'⟩
    · simp
    · refine iff_of_false (fun h => hl' ?_) (by simp)
      rw [(List.cons.inj h).1]
      exact List.mem_cons_self
  | cons d l ih =>
    rw [List.mem_cons, not_or] at hl
    rcases l' with _ | ⟨d', l'⟩
    · exact iff_of_false (fun h => hl.1 (List.cons.inj h).1.symm) (by simp)
    · rw [List.mem_cons, not_or] at hl'
      rw [List.cons_append, List.cons_append, List.cons.injEq, List.cons.injEq, ih hl.2 hl'.2,
        and_assoc]

/-- What stands after the last `c` is determined. -/
lemma append_cons_inj_right {α : Type} {c : α} {l l' r r' : List α} (hr : c ∉ r) (hr' : c ∉ r') :
    l ++ c :: r = l' ++ c :: r' ↔ l = l' ∧ r = r' := by
  rw [← List.reverse_inj]
  simp only [List.reverse_append, List.reverse_cons, List.append_assoc, List.singleton_append]
  rw [append_cons_inj_left (by simpa using hr) (by simpa using hr'), List.reverse_inj,
    List.reverse_inj, and_comm]

/-- What stands after a mark is determined from the end by an element of the mark that does not
occur in it. -/
lemma append_mark_inj {α : Type} {c : α} {mark l l' r r' : List α} (hmark : c ∈ mark) (hr : c ∉ r)
    (hr' : c ∉ r') : l ++ mark ++ r = l' ++ mark ++ r' ↔ l = l' ∧ r = r' := by
  -- the last `c` of the mark is the last `c` of the whole
  obtain ⟨after, before, hsplit, hafter⟩ :=
    List.eq_append_cons_of_mem (List.mem_reverse.mpr hmark)
  have hmark : mark = before.reverse ++ c :: after.reverse := by
    rw [← List.reverse_reverse mark, hsplit]
    simp
  have hnot : ∀ {t : List α}, c ∉ t → c ∉ after.reverse ++ t := by
    intro t ht
    rw [List.mem_append, List.mem_reverse, not_or]
    exact ⟨hafter, ht⟩
  have hassoc : ∀ l r : List α, l ++ mark ++ r =
      (l ++ before.reverse) ++ c :: (after.reverse ++ r) := by
    intro l r
    rw [hmark]
    simp
  rw [hassoc, hassoc, append_cons_inj_right (hnot hr) (hnot hr'), List.append_left_inj,
    List.append_right_inj]

/-- A text after a label that ends with `c` is determined from the end. -/
lemma append_label_inj {c : Char} {label l l' r r' : String}
    (hlabel : label.toList.getLast? = some c) (hr : c ∉ r.toList) (hr' : c ∉ r'.toList) :
    l ++ label ++ r = l' ++ label ++ r' ↔ l = l' ∧ r = r' := by
  obtain ⟨init, hinit⟩ := List.getLast?_eq_some_iff.mp hlabel
  rw [← String.toList_inj, ← String.toList_inj, ← String.toList_inj]
  simp only [String.toList_append, hinit, List.append_assoc, List.singleton_append]
  rw [← List.append_assoc, ← List.append_assoc, append_cons_inj_right hr hr',
    List.append_left_inj]

/-- A text before a label that starts with `c` is determined from the start. -/
lemma append_label_inj_left {c : Char} {label l l' r r' : String}
    (hlabel : label.toList.head? = some c) (hl : c ∉ l.toList) (hl' : c ∉ l'.toList) :
    l ++ label ++ r = l' ++ label ++ r' ↔ l = l' ∧ r = r' := by
  obtain ⟨tail, htail⟩ := List.head?_eq_some_iff.mp hlabel
  rw [← String.toList_inj, ← String.toList_inj, ← String.toList_inj]
  simp only [String.toList_append, htail, List.append_assoc, List.cons_append]
  rw [append_cons_inj_left hl hl', List.append_right_inj]

/-- The first part of a text, and the rest, are determined by the length of the first part. -/
lemma append_inj_of_length {s s' t t' : String} (h : s ++ t = s' ++ t')
    (hlength : s.length = s'.length) : s = s' ∧ t = t' := by
  rw [← String.toList_inj, String.toList_append, String.toList_append] at h
  rw [← String.toList_inj, ← String.toList_inj]
  exact List.append_inj h (by rwa [String.length_toList, String.length_toList])

/-- A text is ASCII when its parts are. -/
lemma isAsciiText_append {s t : String} :
    isAsciiText (s ++ t) = true ↔ isAsciiText s = true ∧ isAsciiText t = true := by
  rw [isAsciiText, String.toList_append, List.all_append, Bool.and_eq_true]
  rfl

end PythonText
