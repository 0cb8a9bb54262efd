import Esdx.Foundations.Dict
import Esdx.Foundations.InetAddress

/-!
# JSON texts

Values, the text that `json.dumps(v, indent=2)` prints for them, and the reader behind
`json.loads`.  Floating-point numbers are a parameter, with their printer and their reader.

What was printed is read back as it was (`loads_dumps`).
-/

/-! ## Values -/

/-- A value.  The members of a dictionary are in the order in which they were inserted. -/
inductive Json (F : Type)
  | null
  | bool (b : Bool)
  | int (z : ℤ)
  | float (x : F)
  | str (s : String)
  | arr (elems : List (Json F))
  | obj (members : List (String × Json F))

namespace Json

open PythonText

/-- The text is a run of digits. -/
def IsDigits (s : List Char) : Prop := s ≠ [] ∧ ∀ c ∈ s, c.isDigit = true

/-- The sign of a number. -/
def IsSign (s : List Char) : Prop := s = [] ∨ s = ['-']

/-- The integer part of a number. -/
def IsInt (s : List Char) : Prop := s = ['0'] ∨ IsDigits s ∧ s.head? ≠ some '0'

/-- The fraction of a number. -/
def IsFrac (s : List Char) : Prop := s = [] ∨ ∃ ds, IsDigits ds ∧ s = '.' :: ds

/-- The exponent of a number. -/
def IsExp (s : List Char) : Prop :=
  s = [] ∨ ∃ e sign ds, (e = 'e' ∨ e = 'E') ∧ (sign = [] ∨ sign = ['+'] ∨ sign = ['-']) ∧
    IsDigits ds ∧ s = e :: (sign ++ ds)

/-- The text is a number that is no integer. -/
def IsFloatText (s : List Char) : Prop :=
  ∃ sign int frac exp, s = sign ++ int ++ frac ++ exp ∧ IsSign sign ∧ IsInt int ∧ IsFrac frac ∧
    IsExp exp ∧ ¬(frac = [] ∧ exp = [])

/-- Floating-point numbers with `float.__repr__` and `float`.  The printed text of every finite
number is read back as that number. -/
structure FloatText (F : Type) where
  nan : F
  inf : F
  negInf : F
  repr : F → List Char
  read : List Char → F
  repr_spec : ∀ x, x = nan ∧ repr x = "NaN".toList ∨ x = inf ∧ repr x = "Infinity".toList ∨
    x = negInf ∧ repr x = "-Infinity".toList ∨ IsFloatText (repr x) ∧ read (repr x) = x

/-- Every dictionary of the value has distinct keys. -/
inductive Wf {F : Type} : Json F → Prop
  | null : Wf .null
  | bool (b : Bool) : Wf (.bool b)
  | int (z : ℤ) : Wf (.int z)
  | float (x : F) : Wf (.float x)
  | str (s : String) : Wf (.str s)
  | arr {elems : List (Json F)} (h : ∀ v ∈ elems, Wf v) : Wf (.arr elems)
  | obj {members : List (String × Json F)} (hkeys : (members.map Prod.fst).Nodup)
      (h : ∀ m ∈ members, Wf m.2) : Wf (.obj members)

variable {F : Type} (ft : FloatText F)

/-! ## Printing -/

/-- Four hexadecimal digits. -/
def hex4 (n : ℕ) : List Char :=
  [n / 4096 % 16, n / 256 % 16, n / 16 % 16, n % 16].map Nat.digitChar

/-- `ESCAPE_ASCII`: the text of a character in a string. -/
def escape (c : Char) : List Char :=
  if c = '"' then ['\\', '"']
  else if c = '\\' then ['\\', '\\']
  else if c = '\n' then ['\\', 'n']
  else if c = '\r' then ['\\', 'r']
  else if c = '\t' then ['\\', 't']
  else if c = '\x0c' then ['\\', 'f']
  else if c = '\x08' then ['\\', 'b']
  else if ' ' ≤ c ∧ c ≤ '~' then [c]
  else if c.toNat < 0x10000 then '\\' :: 'u' :: hex4 c.toNat
  else
    let n := c.toNat - 0x10000
    '\\' :: 'u' :: hex4 (0xd800 + n / 0x400) ++ '\\' :: 'u' :: hex4 (0xdc00 + n % 0x400)

/-- A string with its quotes. -/
def dumpStr (s : String) : List Char := '"' :: (s.toList.flatMap escape ++ ['"'])

/-- A new line, indented by two spaces for every level. -/
def newline (level : ℕ) : List Char := '\n' :: List.replicate (2 * level) ' '

mutual

/-- A value inside of `level` lists and dictionaries. -/
def dump (level : ℕ) : Json F → List Char
  | .null => "null".toList
  | .bool true => "true".toList
  | .bool false => "false".toList
  | .int z => (toString z).toList
  | .float x => ft.repr x
  | .str s => dumpStr s
  | .arr [] => ['[', ']']
  | .arr (v :: vs) => '[' :: (newline (level + 1) ++ dump (level + 1) v ++
      dumpElems (level + 1) vs ++ newline level ++ [']'])
  | .obj [] => ['{', '}']
  | .obj ((k, v) :: ms) => '{' :: (newline (level + 1) ++ dumpStr k ++ [':', ' '] ++
      dump (level + 1) v ++ dumpMembers (level + 1) ms ++ newline level ++ ['}'])

/-- The elements after the first one. -/
def dumpElems (level : ℕ) : List (Json F) → List Char
  | [] => []
  | v :: vs => ',' :: (newline level ++ dump level v ++ dumpElems level vs)

/-- The members after the first one. -/
def dumpMembers (level : ℕ) : List (String × Json F) → List Char
  | [] => []
  | (k, v) :: ms => ',' :: (newline level ++ dumpStr k ++ [':', ' '] ++ dump level v ++
      dumpMembers level ms)

end

/-- `json.dumps(v, indent=2)`. -/
def dumps (v : Json F) : List Char := dump ft 0 v

/-! ## Reading -/

/-- The blanks between the tokens. -/
def isWs (c : Char) : Bool := c = ' ' || c = '\t' || c = '\n' || c = '\r'

/-- Skip blanks. -/
def skipWs (s : List Char) : List Char := s.dropWhile isWs

/-- The number that four hexadecimal digits denote. -/
def readHex4 (a b c d : Char) : Option ℕ := do
  let a ← digitValue 16 a
  let b ← digitValue 16 b
  let c ← digitValue 16 c
  let d ← digitValue 16 d
  return a * 4096 + b * 256 + c * 16 + d

/-- The character that a letter after a backslash stands for. -/
def unescape : Char → Option Char
  | '"' => some '"'
  | '\\' => some '\\'
  | '/' => some '/'
  | 'b' => some '\x08'
  | 'f' => some '\x0c'
  | 'n' => some '\n'
  | 'r' => some '\r'
  | 't' => some '\t'
  | _ => none

/-- The surrogates of a character outside of the basic plane. -/
def isHigh (n : ℕ) : Bool := 0xd800 ≤ n && n ≤ 0xdbff

/-- The second one of them. -/
def isLow (n : ℕ) : Bool := 0xdc00 ≤ n && n ≤ 0xdfff

/-- `scanstring`: the characters up to the closing quote, and what comes after it.  A surrogate
that is not in a pair is no character here. -/
def scanString : List Char → Option (List Char × List Char)
  | [] => none
  | '"' :: s => some ([], s)
  | '\\' :: 'u' :: a :: b :: c :: d :: s =>
    match readHex4 a b c d with
    | none => none
    | some n =>
      if isHigh n then
        match s with
        | '\\' :: 'u' :: a' :: b' :: c' :: d' :: s =>
          match readHex4 a' b' c' d' with
          | none => none
          | some m =>
            if isLow m then
              (scanString s).map fun p =>
                (Char.ofNat (0x10000 + (n - 0xd800) * 0x400 + (m - 0xdc00)) :: p.1, p.2)
            else none
        | _ => none
      else if isLow n then none
      else (scanString s).map fun p => (Char.ofNat n :: p.1, p.2)
  | '\\' :: c :: s =>
    match unescape c with
    | none => none
    | some c => (scanString s).map fun p => (c :: p.1, p.2)
  | c :: s => if c = '\\' ∨ c < ' ' then none else (scanString s).map fun p => (c :: p.1, p.2)

/-- The digits at the start of a text, and the rest. -/
def spanDigits (s : List Char) : List Char × List Char :=
  (s.takeWhile Char.isDigit, s.dropWhile Char.isDigit)

/-- The sign of a number. -/
def scanSign : List Char → List Char × List Char
  | '-' :: s => (['-'], s)
  | s => ([], s)

/-- The integer part of a number. -/
def scanInt : List Char → Option (List Char × List Char)
  | '0' :: s => some (['0'], s)
  | s => if (spanDigits s).1 = [] then none else some (spanDigits s)

/-- The fraction of a number, if there is one. -/
def scanFrac : List Char → List Char × List Char
  | '.' :: s => if (spanDigits s).1 = [] then ([], '.' :: s)
    else ('.' :: (spanDigits s).1, (spanDigits s).2)
  | s => ([], s)

/-- The sign of an exponent. -/
def scanExpSign : List Char → List Char × List Char
  | '+' :: s => (['+'], s)
  | '-' :: s => (['-'], s)
  | s => ([], s)

/-- The exponent of a number, if there is one. -/
def scanExp : List Char → List Char × List Char
  | [] => ([], [])
  | e :: s =>
    if e = 'e' ∨ e = 'E' then
      let digits := spanDigits (scanExpSign s).2
      if digits.1 = [] then ([], e :: s)
      else (e :: ((scanExpSign s).1 ++ digits.1), digits.2)
    else ([], e :: s)

/-- The integer that a sign and digits denote. -/
def intOf (sign int : List Char) : ℤ :=
  if sign = [] then Nat.ofDigitChars 10 int 0 else -(Nat.ofDigitChars 10 int 0 : ℤ)

/-- `match_number`. -/
def scanNumber (s : List Char) : Option (Json F × List Char) := do
  let sign := scanSign s
  let int ← scanInt sign.2
  let frac := scanFrac int.2
  let exp := scanExp frac.2
  if frac.1 = [] ∧ exp.1 = [] then return (.int (intOf sign.1 int.1), exp.2)
  else return (.float (ft.read (sign.1 ++ int.1 ++ frac.1 ++ exp.1)), exp.2)

/-- The words. -/
def scanWord : List Char → Option (Json F × List Char)
  | 'n' :: 'u' :: 'l' :: 'l' :: s => some (.null, s)
  | 't' :: 'r' :: 'u' :: 'e' :: s => some (.bool true, s)
  | 'f' :: 'a' :: 'l' :: 's' :: 'e' :: s => some (.bool false, s)
  | 'N' :: 'a' :: 'N' :: s => some (.float ft.nan, s)
  | 'I' :: 'n' :: 'f' :: 'i' :: 'n' :: 'i' :: 't' :: 'y' :: s => some (.float ft.inf, s)
  | '-' :: 'I' :: 'n' :: 'f' :: 'i' :: 'n' :: 'i' :: 't' :: 'y' :: s => some (.float ft.negInf, s)
  | _ => none

/-- `dict(pairs)`: a key that comes again gets the new value. -/
def ofPairs (pairs : List (String × Json F)) : List (String × Json F) :=
  pairs.foldl (fun d m => Dict.setEntries m.1 m.2 d) []

mutual

/-- `scan_once`: one value and the rest of the text. -/
def scanOnce : ℕ → List Char → Option (Json F × List Char)
  | 0, _ => none
  | fuel + 1, s =>
    match s with
    | '"' :: s => (scanString s).map fun p => (.str (String.ofList p.1), p.2)
    | '{' :: s =>
      match skipWs s with
      | '}' :: s => some (.obj [], s)
      | s => (scanMembers fuel s).map fun p => (.obj (ofPairs p.1), p.2)
    | '[' :: s =>
      match skipWs s with
      | ']' :: s => some (.arr [], s)
      | s => (scanElems fuel s).map fun p => (.arr p.1, p.2)
    | s => (scanWord ft s).or (scanNumber ft s)

/-- The elements of a list up to its bracket. -/
def scanElems : ℕ → List Char → Option (List (Json F) × List Char)
  | 0, _ => none
  | fuel + 1, s => do
    let v ← scanOnce fuel s
    match skipWs v.2 with
    | ',' :: s => do
      let vs ← scanElems fuel (skipWs s)
      return (v.1 :: vs.1, vs.2)
    | ']' :: s => return ([v.1], s)
    | _ => none

/-- The members of a dictionary up to its brace. -/
def scanMembers : ℕ → List Char → Option (List (String × Json F) × List Char)
  | 0, _ => none
  | fuel + 1, s =>
    match s with
    | '"' :: s => do
      let k ← scanString s
      match skipWs k.2 with
      | ':' :: s => do
        let v ← scanOnce fuel (skipWs s)
        match skipWs v.2 with
        | ',' :: s => do
          let ms ← scanMembers fuel (skipWs s)
          return ((String.ofList k.1, v.1) :: ms.1, ms.2)
        | '}' :: s => return ([(String.ofList k.1, v.1)], s)
        | _ => none
      | _ => none
    | _ => none

end

/-- `json.loads`, `none` standing for `JSONDecodeError`.  Every value needs two units of fuel for
each of its characters at most. -/
def loads (s : List Char) : Option (Json F) :=
  if s.head? = some '\ufeff' then none
  else
    match scanOnce ft (2 * s.length + 2) (skipWs s) with
    | some (v, rest) => if skipWs rest = [] then some v else none
    | none => none

/-! ## Strings are read back -/

/-- Four hexadecimal digits are read back. -/
lemma readHex4_digitChar {n : ℕ} (hn : n < 0x10000) :
    readHex4 (Nat.digitChar (n / 4096 % 16)) (Nat.digitChar (n / 256 % 16))
      (Nat.digitChar (n / 16 % 16)) (Nat.digitChar (n % 16)) = some n := by
  have hlt : ∀ m : ℕ, m % 16 < 16 := fun m => Nat.mod_lt m (by decide)
  simp only [readHex4, InetAddress.digitValue_digitChar (hlt _), bind, Option.bind, pure,
    Option.some.injEq]
  omega

/-- No character is a surrogate. -/
lemma not_isSurrogate (c : Char) : isHigh c.toNat = false ∧ isLow c.toNat = false := by
  have hvalid := c.valid
  change c.toNat < 0xd800 ∨ 0xdfff < c.toNat ∧ c.toNat < 0x110000 at hvalid
  simp only [isHigh, isLow, Bool.and_eq_false_iff, decide_eq_false_iff_not]
  omega

/-- A character is read back. -/
lemma scanString_escape (c : Char) (s : List Char) :
    scanString (escape c ++ s) = (scanString s).map fun p => (c :: p.1, p.2) := by
  unfold escape
  split_ifs with h1 h2 h3 h4 h5 h6 h7 h8 h9
  · rw [h1]; rfl
  · rw [h2]; rfl
  · rw [h3]; rfl
  · rw [h4]; rfl
  · rw [h5]; rfl
  · rw [h6]; rfl
  · rw [h7]; rfl
  · -- a printable character stands for itself
    have hnot : ¬(c = '\\' ∨ c < ' ') := fun h =>
      h.elim h2 fun hlt => absurd h8.1 (Char.not_le.mpr hlt)
    rw [List.singleton_append, scanString.eq_def]
    split
    · rename_i heq; simp at heq
    · rename_i heq; exact absurd (List.cons.inj heq).1 h1
    · rename_i heq; exact absurd (List.cons.inj heq).1 h2
    · rename_i heq; exact absurd (List.cons.inj heq).1 h2
    · rename_i heq
      obtain ⟨rfl, rfl⟩ := List.cons.inj heq
      rw [if_neg hnot]
  · obtain ⟨hhigh, hlow⟩ := not_isSurrogate c
    have hread := readHex4_digitChar h9
    simp only [hex4, List.map_cons, List.map_nil, List.cons_append, List.nil_append]
    rw [scanString]
    simp only [hread, hhigh, hlow, Bool.false_eq_true, if_false, Char.ofNat_toNat]
  · obtain ⟨hhigh, hlow⟩ := not_isSurrogate c
    have hvalid : c.toNat < 0x110000 := by
      have := c.valid
      change c.toNat < 0xd800 ∨ 0xdfff < c.toNat ∧ c.toNat < 0x110000 at this
      omega
    have hfirst := readHex4_digitChar (n := 0xd800 + (c.toNat - 0x10000) / 0x400) (by omega)
    have hsecond := readHex4_digitChar (n := 0xdc00 + (c.toNat - 0x10000) % 0x400) (by omega)
    have hishigh : isHigh (0xd800 + (c.toNat - 0x10000) / 0x400) = true := by
      simp only [isHigh, Bool.and_eq_true, decide_eq_true_eq]
      omega
    have hislow : isLow (0xdc00 + (c.toNat - 0x10000) % 0x400) = true := by
      simp only [isLow, Bool.and_eq_true, decide_eq_true_eq]
      omega
    have hchar : 0x10000 + (0xd800 + (c.toNat - 0x10000) / 0x400 - 0xd800) * 0x400 +
        (0xdc00 + (c.toNat - 0x10000) % 0x400 - 0xdc00) = c.toNat := by
      omega
    simp only [hex4, List.map_cons, List.map_nil, List.cons_append, List.nil_append]
    rw [scanString]
    simp only [hfirst, hsecond, hishigh, hislow, if_true, hchar, Char.ofNat_toNat]

/-- A string is read back up to its closing quote. -/
lemma scanString_escaped (cs s : List Char) :
    scanString (cs.flatMap escape ++ '"' :: s) = some (cs, s) := by
  induction cs with
  | nil => rfl
  | cons c cs ih =>
    rw [List.flatMap_cons, List.append_assoc, scanString_escape, ih]
    rfl

/-! ## Numbers are read back -/

/-- What may come after a value in a printed text. -/
def Follows (s : List Char) : Prop := ∀ c ∈ s.head?, c = ',' ∨ c = '\n'

/-- A run of digits ends where another character comes. -/
lemma spanDigits_append {ds s : List Char} (hds : ∀ c ∈ ds, c.isDigit = true)
    (hs : ∀ c ∈ s.head?, c.isDigit = false) : spanDigits (ds ++ s) = (ds, s) := by
  have hend : s.takeWhile Char.isDigit = [] ∧ s.dropWhile Char.isDigit = s := by
    cases s with
    | nil => exact ⟨rfl, rfl⟩
    | cons c s =>
      have hc := hs c rfl
      simp [hc]
  rw [spanDigits, List.takeWhile_append_of_pos hds, List.dropWhile_append_of_pos hds, hend.1,
    hend.2, List.append_nil]

/-- After a digit, a point or an exponent there is no other digit. -/
lemma Follows.not_isDigit {s : List Char} (h : Follows s) : ∀ c ∈ s.head?, c.isDigit = false := by
  intro c hc
  rcases h c hc with rfl | rfl <;> rfl

/-- The exponent is read up to what follows. -/
lemma scanExp_append {exp s : List Char} (hexp : IsExp exp) (hs : Follows s) :
    scanExp (exp ++ s) = (exp, s) := by
  rcases hexp with rfl | ⟨e, sign, ds, he, hsign, ⟨hne, hdigits⟩, rfl⟩
  · cases s with
    | nil => rfl
    | cons c s =>
      rcases hs c rfl with rfl | rfl <;> rfl
  · have hspan := spanDigits_append hdigits hs.not_isDigit
    have hsigned : scanExpSign (sign ++ (ds ++ s)) = (sign, ds ++ s) := by
      rcases hsign with rfl | rfl | rfl
      · obtain ⟨d, ds, rfl⟩ := List.exists_cons_of_ne_nil hne
        have hd := isDigit_facts (hdigits d (by simp))
        rw [List.nil_append, List.cons_append, scanExpSign.eq_3]
        · rintro t heq
          exact hd.2.2.2.1 (List.cons.inj heq).1
        · rintro t heq
          exact hd.2.2.1 (List.cons.inj heq).1
      · rfl
      · rfl
    rw [List.cons_append, List.append_assoc, scanExp, if_pos he, hsigned, hspan, if_neg hne]

/-- An exponent is no digit and no point. -/
lemma head_exp_append {exp s : List Char} (hexp : IsExp exp) (hs : Follows s) :
    ∀ c ∈ (exp ++ s).head?, c.isDigit = false ∧ c ≠ '.' := by
  intro c hc
  rcases hexp with rfl | ⟨e, sign, ds, he, -, -, rfl⟩
  · rcases hs c hc with rfl | rfl <;> exact ⟨rfl, by decide⟩
  · obtain rfl := Option.some.inj hc
    rcases he with rfl | rfl <;> exact ⟨rfl, by decide⟩

/-- The fraction is read up to what follows. -/
lemma scanFrac_append {frac s : List Char} (hfrac : IsFrac frac)
    (hs : ∀ c ∈ s.head?, c.isDigit = false ∧ c ≠ '.') : scanFrac (frac ++ s) = (frac, s) := by
  rcases hfrac with rfl | ⟨ds, ⟨hne, hdigits⟩, rfl⟩
  · rw [List.nil_append, scanFrac.eq_2]
    rintro t rfl
    exact (hs '.' rfl).2 rfl
  · have hspan := spanDigits_append hdigits fun c hc => (hs c hc).1
    rw [List.cons_append, scanFrac, hspan, if_neg hne]

/-- A fraction is no digit. -/
lemma head_frac_append {frac s : List Char} (hfrac : IsFrac frac)
    (hs : ∀ c ∈ s.head?, c.isDigit = false ∧ c ≠ '.') :
    ∀ c ∈ (frac ++ s).head?, c.isDigit = false := by
  intro c hc
  rcases hfrac with rfl | ⟨ds, -, rfl⟩
  · exact (hs c hc).1
  · obtain rfl := Option.some.inj hc
    rfl

/-- The integer part is read up to what follows. -/
lemma scanInt_append {int s : List Char} (hint : IsInt int)
    (hs : ∀ c ∈ s.head?, c.isDigit = false) : scanInt (int ++ s) = some (int, s) := by
  rcases hint with rfl | ⟨⟨hne, hdigits⟩, hzero⟩
  · rfl
  · have hspan := spanDigits_append hdigits hs
    rw [scanInt.eq_2, hspan, if_neg hne]
    rintro t heq
    obtain ⟨d, ds, rfl⟩ := List.exists_cons_of_ne_nil hne
    obtain ⟨rfl, -⟩ := List.cons.inj heq
    exact hzero rfl

/-- **Numbers.**  A number is read up to what follows, as an integer when it has neither fraction
nor exponent. -/
lemma scanNumber_append {sign int frac exp s : List Char} (hsign : IsSign sign) (hint : IsInt int)
    (hfrac : IsFrac frac) (hexp : IsExp exp) (hs : Follows s) :
    scanNumber ft (sign ++ int ++ frac ++ exp ++ s) =
      some (if frac = [] ∧ exp = [] then .int (intOf sign int)
        else .float (ft.read (sign ++ int ++ frac ++ exp)), s) := by
  have hsigned : scanSign (sign ++ (int ++ (frac ++ (exp ++ s)))) =
      (sign, int ++ (frac ++ (exp ++ s))) := by
    rcases hsign with rfl | rfl
    · have hminus : ∀ t, int ++ (frac ++ (exp ++ s)) ≠ '-' :: t := by
        intro t heq
        rcases hint with rfl | ⟨⟨hne, hdigits⟩, -⟩
        · simp at heq
        · obtain ⟨d, ds, rfl⟩ := List.exists_cons_of_ne_nil hne
          obtain ⟨rfl, -⟩ := List.cons.inj heq
          exact absurd (hdigits '-' (by simp)) (by decide)
      rw [List.nil_append, scanSign.eq_2 _ hminus]
    · rfl
  have hheadExp := head_exp_append hexp hs
  have hints := scanInt_append hint (head_frac_append hfrac hheadExp)
  have hfracs := scanFrac_append hfrac hheadExp
  have hexps := scanExp_append hexp hs
  simp only [List.append_assoc, scanNumber, hsigned, hints, hfracs, hexps, bind, Option.bind]
  split <;> rfl

/-- An integer is printed with a sign and its digits. -/
lemma toString_int (z : ℤ) : ∃ sign int, (toString z).toList = sign ++ int ∧ IsSign sign ∧
    IsInt int ∧ intOf sign int = z := by
  have hint : ∀ n : ℕ, IsInt (Nat.toDigits 10 n) := by
    intro n
    rcases Nat.eq_zero_or_pos n with rfl | hn
    · exact .inl rfl
    · exact .inr ⟨⟨Nat.toDigits_ne_nil, fun c => isDigit_of_mem_toDigits⟩,
        InetAddress.head_toDigits hn⟩
  cases z with
  | ofNat n =>
    refine ⟨[], Nat.toDigits 10 n, Nat.toList_repr, .inl rfl, hint n, ?_⟩
    rw [intOf, if_pos rfl, Nat.ofDigitChars_ten_toDigits]
    rfl
  | negSucc n =>
    refine ⟨['-'], Nat.toDigits 10 (n + 1), ?_, .inr rfl, hint _, ?_⟩
    · change ("-" ++ (n + 1).repr).toList = _
      rw [String.toList_append, Nat.toList_repr]
      rfl
    · rw [intOf, if_neg (by simp), Nat.ofDigitChars_ten_toDigits]
      rfl

/-! ## Values are read back -/

/-- Blanks end where another character comes. -/
lemma skipWs_cons {c : Char} {s : List Char} (hc : isWs c = false) : skipWs (c :: s) = c :: s := by
  simp [skipWs, hc]

/-- A new line is blank. -/
lemma skipWs_newline (level : ℕ) (s : List Char) : skipWs (newline level ++ s) = skipWs s := by
  have hblank : ∀ c ∈ newline level, isWs c = true := by
    intro c hc
    rcases List.mem_cons.mp hc with rfl | hc
    · rfl
    · rw [List.eq_of_mem_replicate hc]
      rfl
  rw [skipWs, skipWs, List.dropWhile_append_of_pos hblank]

/-- What begins a value: no blank, no closing bracket and no byte order mark. -/
def Begins (s : List Char) : Prop :=
  ∃ c t, s = c :: t ∧ isWs c = false ∧ c ≠ ']' ∧ c ≠ '\ufeff'

/-- The start of a number. -/
lemma begins_of_number {sign int s : List Char} (hsign : IsSign sign) (hint : IsInt int) :
    ∃ c t, sign ++ int ++ s = c :: t ∧ (c = '-' ∨ c.isDigit = true) := by
  rcases hsign with rfl | rfl
  · rcases hint with rfl | ⟨⟨hne, hdigits⟩, -⟩
    · exact ⟨'0', s, rfl, .inr rfl⟩
    · obtain ⟨d, ds, rfl⟩ := List.exists_cons_of_ne_nil hne
      exact ⟨d, ds ++ s, rfl, .inr (hdigits d (by simp))⟩
  · exact ⟨'-', int ++ s, rfl, .inl rfl⟩

/-- No number begins like another value. -/
lemma scanOnce_number {c : Char} {t : List Char} (hc : c = '-' ∨ c.isDigit = true)
    (hword : scanWord ft (c :: t) = none) (fuel : ℕ) :
    scanOnce ft (fuel + 1) (c :: t) = scanNumber ft (c :: t) := by
  have hne : ∀ x, x ≠ '-' → x.isDigit = false → c ≠ x := by
    rintro x hx hdigit rfl
    rcases hc with rfl | hc
    · exact hx rfl
    · rw [hc] at hdigit
      exact Bool.noConfusion hdigit
  rw [scanOnce, hword]
  · rfl
  all_goals
    intro s heq
    exact hne _ (by decide) (by decide) (List.cons.inj heq).1

/-- A number is no word. -/
lemma scanWord_number {sign int s : List Char} (hsign : IsSign sign) (hint : IsInt int) :
    scanWord ft (sign ++ int ++ s) = none := by
  have hdigit : ∃ c t, int ++ s = c :: t ∧ c.isDigit = true := by
    rcases hint with rfl | ⟨⟨hne, hdigits⟩, -⟩
    · exact ⟨'0', s, rfl, rfl⟩
    · obtain ⟨d, ds, rfl⟩ := List.exists_cons_of_ne_nil hne
      exact ⟨d, ds ++ s, rfl, hdigits d (by simp)⟩
  obtain ⟨c, t, hct, hc⟩ := hdigit
  have hne : ∀ x, x.isDigit = false → c ≠ x := by
    rintro x hx rfl
    rw [hc] at hx
    exact Bool.noConfusion hx
  rw [List.append_assoc, hct]
  rcases hsign with rfl | rfl
  · rw [List.nil_append]
    unfold scanWord
    split <;> first
      | rename_i heq; exact absurd (List.cons.inj heq).1 (hne _ (by decide))
      | rfl
  · unfold scanWord
    split <;> first
      | rename_i heq; exact absurd (List.cons.inj heq).1 (by decide)
      | rename_i heq
        exact absurd (List.cons.inj (List.cons.inj heq).2).1 (hne _ (by decide))
      | rfl

/-- A printed number is read back. -/
lemma scanOnce_append_number {sign int frac exp s : List Char} (hsign : IsSign sign)
    (hint : IsInt int) (hfrac : IsFrac frac) (hexp : IsExp exp) (hs : Follows s) (fuel : ℕ) :
    scanOnce ft (fuel + 1) (sign ++ int ++ frac ++ exp ++ s) =
      some (if frac = [] ∧ exp = [] then .int (intOf sign int)
        else .float (ft.read (sign ++ int ++ frac ++ exp)), s) := by
  have hword := scanWord_number ft (s := frac ++ exp ++ s) hsign hint
  obtain ⟨c, t, hct, hc⟩ := begins_of_number (s := frac ++ exp ++ s) hsign hint
  have hassoc : sign ++ int ++ frac ++ exp ++ s = sign ++ int ++ (frac ++ exp ++ s) := by
    simp only [List.append_assoc]
  rw [hct] at hword
  rw [← scanNumber_append ft hsign hint hfrac hexp hs, hassoc, hct]
  exact scanOnce_number ft hc hword fuel

/-- A value begins with a character of its own. -/
lemma begins_dump (level : ℕ) (v : Json F) : Begins (dump ft level v) := by
  have hnumber : ∀ {c : Char}, c = '-' ∨ c.isDigit = true →
      isWs c = false ∧ c ≠ ']' ∧ c ≠ '\ufeff' := by
    intro c hc
    have hne : ∀ x, x ≠ '-' → x.isDigit = false → c ≠ x := by
      rintro x hx hdigit rfl
      rcases hc with rfl | hc
      · exact hx rfl
      · rw [hc] at hdigit
        exact Bool.noConfusion hdigit
    refine ⟨?_, hne _ (by decide) (by decide), hne _ (by decide) (by decide)⟩
    simp [isWs, hne ' ' (by decide) (by decide), hne '\t' (by decide) (by decide),
      hne '\n' (by decide) (by decide), hne '\r' (by decide) (by decide)]
  cases v with
  | null => exact ⟨'n', _, rfl, rfl, by decide, by decide⟩
  | bool b =>
    cases b with
    | true => exact ⟨'t', _, rfl, rfl, by decide, by decide⟩
    | false => exact ⟨'f', _, rfl, rfl, by decide, by decide⟩
  | int z =>
    obtain ⟨sign, int, htext, hsign, hint, -⟩ := toString_int z
    obtain ⟨c, t, hct, hc⟩ := begins_of_number (s := []) hsign hint
    rw [List.append_nil] at hct
    exact ⟨c, t, htext.trans hct, hnumber hc⟩
  | float x =>
    rcases ft.repr_spec x with ⟨-, h⟩ | ⟨-, h⟩ | ⟨-, h⟩ | ⟨h, -⟩
    · exact ⟨'N', _, h, rfl, by decide, by decide⟩
    · exact ⟨'I', _, h, rfl, by decide, by decide⟩
    · exact ⟨'-', _, h, rfl, by decide, by decide⟩
    · obtain ⟨sign, int, frac, exp, htext, hsign, hint, -⟩ := h
      obtain ⟨c, t, hct, hc⟩ := begins_of_number (s := frac ++ exp) hsign hint
      rw [← List.append_assoc] at hct
      exact ⟨c, t, htext.trans hct, hnumber hc⟩
  | str s => exact ⟨'"', _, rfl, rfl, by decide, by decide⟩
  | arr elems =>
    cases elems with
    | nil => exact ⟨'[', _, rfl, rfl, by decide, by decide⟩
    | cons v vs => exact ⟨'[', _, rfl, rfl, by decide, by decide⟩
  | obj members =>
    cases members with
    | nil => exact ⟨'{', _, rfl, rfl, by decide, by decide⟩
    | cons m ms => exact ⟨'{', _, rfl, rfl, by decide, by decide⟩

/-- A value is not skipped. -/
lemma skipWs_dump (level : ℕ) (v : Json F) (s : List Char) :
    skipWs (dump ft level v ++ s) = dump ft level v ++ s := by
  obtain ⟨c, t, hct, hc, -⟩ := begins_dump ft level v
  rw [hct]
  exact skipWs_cons hc

/-- The value is read back wherever it stands. -/
def ReadsBack (v : Json F) : Prop := ∀ (level : ℕ) (s : List Char) (fuel : ℕ), Follows s →
  2 * (dump ft level v ++ s).length + 1 ≤ fuel →
    scanOnce ft fuel (dump ft level v ++ s) = some (v, s)

/-- A new line follows a value. -/
lemma follows_newline (level : ℕ) (s : List Char) : Follows (newline level ++ s) := by
  intro c hc
  exact .inr (Option.some.inj hc).symm

/-- What comes after an element follows a value. -/
lemma follows_dumpElems (level : ℕ) (vs : List (Json F)) {s : List Char} (hs : Follows s) :
    Follows (dumpElems ft level vs ++ s) := by
  cases vs with
  | nil => exact hs
  | cons v vs => exact fun c hc => .inl (Option.some.inj hc).symm

/-- What comes after a member follows a value. -/
lemma follows_dumpMembers (level : ℕ) (ms : List (String × Json F)) {s : List Char}
    (hs : Follows s) : Follows (dumpMembers ft level ms ++ s) := by
  cases ms with
  | nil => exact hs
  | cons m ms => exact fun c hc => .inl (Option.some.inj hc).symm

/-- The elements of a list are read back. -/
lemma scanElems_dump (level inner : ℕ) (s : List Char) (vs : List (Json F)) :
    ∀ (v : Json F) (fuel : ℕ), ReadsBack ft v → (∀ w ∈ vs, ReadsBack ft w) →
      2 * (dump ft inner v ++ (dumpElems ft inner vs ++ (newline level ++ ']' :: s))).length + 2 ≤
        fuel →
      scanElems ft fuel
        (dump ft inner v ++ (dumpElems ft inner vs ++ (newline level ++ ']' :: s))) =
        some (v :: vs, s) := by
  induction vs with
  | nil =>
    intro v fuel hv _ hfuel
    obtain ⟨fuel, rfl⟩ := Nat.exists_eq_add_of_le' (Nat.le_trans (Nat.le_add_left 1 _) hfuel)
    have hread := hv inner _ fuel (follows_dumpElems ft inner [] (follows_newline level (']' :: s)))
      (by omega)
    have hskip : skipWs (dumpElems ft inner [] ++ (newline level ++ ']' :: s)) = ']' :: s := by
      rw [dumpElems, List.nil_append, skipWs_newline]
      rfl
    rw [scanElems, hread]
    simp only [bind, Option.bind, hskip]
    rfl
  | cons w vs ih =>
    intro v fuel hv hvs hfuel
    obtain ⟨fuel, rfl⟩ := Nat.exists_eq_add_of_le' (Nat.le_trans (Nat.le_add_left 1 _) hfuel)
    have hread := hv inner _ fuel
      (follows_dumpElems ft inner (w :: vs) (follows_newline level (']' :: s))) (by omega)
    have htext : dumpElems ft inner (w :: vs) ++ (newline level ++ ']' :: s) =
        ',' :: (newline inner ++ (dump ft inner w ++ (dumpElems ft inner vs ++
          (newline level ++ ']' :: s)))) := by
      simp only [dumpElems, List.cons_append, List.append_assoc]
    have hskip : skipWs (newline inner ++ (dump ft inner w ++ (dumpElems ft inner vs ++
        (newline level ++ ']' :: s)))) = dump ft inner w ++ (dumpElems ft inner vs ++
          (newline level ++ ']' :: s)) := by
      rw [skipWs_newline, skipWs_dump]
    rw [htext] at hfuel hread ⊢
    have hrest := ih w fuel (hvs w List.mem_cons_self)
      (fun x hx => hvs x (List.mem_cons_of_mem _ hx)) (by
        simp only [List.length_append, List.length_cons] at hfuel ⊢
        omega)
    rw [scanElems, hread]
    simp only [bind, Option.bind, skipWs_cons (c := ',') rfl, hskip, hrest]
    rfl

/-- The members of a dictionary are read back. -/
lemma scanMembers_dump (level inner : ℕ) (s : List Char) (ms : List (String × Json F)) :
    ∀ (k : String) (v : Json F) (fuel : ℕ), ReadsBack ft v → (∀ m ∈ ms, ReadsBack ft m.2) →
      2 * (dumpStr k ++ (':' :: ' ' :: (dump ft inner v ++ (dumpMembers ft inner ms ++
        (newline level ++ '}' :: s))))).length + 2 ≤ fuel →
      scanMembers ft fuel (dumpStr k ++ (':' :: ' ' :: (dump ft inner v ++
        (dumpMembers ft inner ms ++ (newline level ++ '}' :: s))))) = some ((k, v) :: ms, s) := by
  have hkey : ∀ (k : String) (t : List Char), scanString (k.toList.flatMap escape ++ ['"'] ++ t) =
      some (k.toList, t) := by
    intro k t
    rw [List.append_assoc]
    exact scanString_escaped k.toList t
  have hcolon : ∀ (v : Json F) (t : List Char), skipWs (' ' :: (dump ft inner v ++ t)) =
      dump ft inner v ++ t := by
    intro v t
    exact (skipWs_dump ft inner v t)
  induction ms with
  | nil =>
    intro k v fuel hv _ hfuel
    obtain ⟨fuel, rfl⟩ := Nat.exists_eq_add_of_le' (Nat.le_trans (Nat.le_add_left 1 _) hfuel)
    have hread := hv inner _ fuel
      (follows_dumpMembers ft inner [] (follows_newline level ('}' :: s))) (by
        simp only [dumpStr, List.length_append, List.length_cons] at hfuel ⊢
        omega)
    have hskip : skipWs (dumpMembers ft inner [] ++ (newline level ++ '}' :: s)) = '}' :: s := by
      rw [dumpMembers, List.nil_append, skipWs_newline]
      rfl
    rw [dumpStr, List.cons_append, scanMembers, hkey]
    simp only [bind, Option.bind, skipWs_cons (c := ':') rfl, hcolon, hread, hskip,
      String.ofList_toList]
    rfl
  | cons m ms ih =>
    obtain ⟨k', w⟩ := m
    intro k v fuel hv hms hfuel
    obtain ⟨fuel, rfl⟩ := Nat.exists_eq_add_of_le' (Nat.le_trans (Nat.le_add_left 1 _) hfuel)
    have hread := hv inner _ fuel
      (follows_dumpMembers ft inner ((k', w) :: ms) (follows_newline level ('}' :: s))) (by
        simp only [dumpStr, List.length_append, List.length_cons] at hfuel ⊢
        omega)
    have htext : dumpMembers ft inner ((k', w) :: ms) ++ (newline level ++ '}' :: s) =
        ',' :: (newline inner ++ (dumpStr k' ++ (':' :: ' ' :: (dump ft inner w ++
          (dumpMembers ft inner ms ++ (newline level ++ '}' :: s)))))) := by
      simp only [dumpMembers, List.cons_append, List.append_assoc, List.nil_append]
    have hskip : skipWs (newline inner ++ (dumpStr k' ++ (':' :: ' ' :: (dump ft inner w ++
        (dumpMembers ft inner ms ++ (newline level ++ '}' :: s)))))) =
          dumpStr k' ++ (':' :: ' ' :: (dump ft inner w ++
            (dumpMembers ft inner ms ++ (newline level ++ '}' :: s)))) := by
      rw [skipWs_newline]
      exact skipWs_cons rfl
    rw [htext] at hfuel hread ⊢
    have hrest := ih k' w fuel (hms (k', w) List.mem_cons_self)
      (fun x hx => hms x (List.mem_cons_of_mem _ hx)) (by
        simp only [dumpStr, List.length_append, List.length_cons] at hfuel ⊢
        omega)
    rw [dumpStr, List.cons_append, scanMembers, hkey]
    simp only [bind, Option.bind, skipWs_cons (c := ':') rfl, skipWs_cons (c := ',') rfl, hcolon,
      hread, hskip, hrest, String.ofList_toList]
    rfl

/-! ### Dictionaries -/

/-- A new key goes to the end. -/
lemma ofPairs_concat (ms : List (String × Json F)) (m : String × Json F) :
    ofPairs (ms ++ [m]) = Dict.setEntries m.1 m.2 (ofPairs ms) := by
  rw [ofPairs, List.foldl_append, List.foldl_cons, List.foldl_nil]
  rfl

/-- Members with distinct keys are the dictionary that they make. -/
lemma ofPairs_eq_self {ms : List (String × Json F)} (h : (ms.map Prod.fst).Nodup) :
    ofPairs ms = ms := by
  induction ms using List.reverseRecOn with
  | nil => rfl
  | append_singleton ms m ih =>
    rw [List.map_append, List.nodup_append] at h
    have hnew : m.1 ∉ ms.map Prod.fst := fun hmem => h.2.2 _ hmem _ (by simp) rfl
    rw [ofPairs_concat, ih h.1]
    exact @Dict.set_of_notMem _ ⟨ms, h.1⟩ m.1 m.2 hnew

/-- A dictionary has distinct keys and only members that were given. -/
lemma wf_ofPairs {ms : List (String × Json F)} (h : ∀ m ∈ ms, Wf m.2) : Wf (.obj (ofPairs ms)) := by
  have hboth : ((ofPairs ms).map Prod.fst).Nodup ∧ ∀ m ∈ ofPairs ms, Wf m.2 := by
    induction ms using List.reverseRecOn with
    | nil => exact ⟨List.nodup_nil, by simp [ofPairs]⟩
    | append_singleton ms m ih =>
      obtain ⟨hkeys, hwf⟩ := ih fun m' hm' => h m' (List.mem_append_left _ hm')
      rw [ofPairs_concat]
      refine ⟨Dict.nodup_setEntries hkeys, fun m' hm' => ?_⟩
      rcases Dict.mem_setEntries hm' with rfl | hm'
      · exact h m (by simp)
      · exact hwf m' hm'
  exact .obj hboth.1 hboth.2

/-! ### Round trip -/

/-- Every well-formed value is read back. -/
theorem Wf.readsBack {v : Json F} (h : Wf v) : ReadsBack ft v := by
  induction h with
  | null =>
    intro level s fuel _ hfuel
    obtain ⟨fuel, rfl⟩ := Nat.exists_eq_add_of_le' (Nat.le_trans (Nat.le_add_left 1 _) hfuel)
    rfl
  | bool b =>
    intro level s fuel _ hfuel
    obtain ⟨fuel, rfl⟩ := Nat.exists_eq_add_of_le' (Nat.le_trans (Nat.le_add_left 1 _) hfuel)
    cases b <;> rfl
  | int z =>
    intro level s fuel hs hfuel
    obtain ⟨fuel, rfl⟩ := Nat.exists_eq_add_of_le' (Nat.le_trans (Nat.le_add_left 1 _) hfuel)
    obtain ⟨sign, int, htext, hsign, hint, hz⟩ := toString_int z
    have hread := scanOnce_append_number ft hsign hint (.inl rfl) (.inl rfl) hs fuel
    rw [List.append_nil, List.append_nil, if_pos ⟨rfl, rfl⟩, hz] at hread
    rw [dump, htext]
    exact hread
  | float x =>
    intro level s fuel hs hfuel
    obtain ⟨fuel, rfl⟩ := Nat.exists_eq_add_of_le' (Nat.le_trans (Nat.le_add_left 1 _) hfuel)
    rw [dump]
    rcases ft.repr_spec x with ⟨rfl, h⟩ | ⟨rfl, h⟩ | ⟨rfl, h⟩ | ⟨h, hx⟩
    · rw [h]; rfl
    · rw [h]; rfl
    · rw [h]; rfl
    · obtain ⟨sign, int, frac, exp, htext, hsign, hint, hfrac, hexp, hne⟩ := h
      have hread := scanOnce_append_number ft hsign hint hfrac hexp hs fuel
      rw [if_neg hne, ← htext, hx] at hread
      exact hread
  | str t =>
    intro level s fuel _ hfuel
    obtain ⟨fuel, rfl⟩ := Nat.exists_eq_add_of_le' (Nat.le_trans (Nat.le_add_left 1 _) hfuel)
    rw [dump, dumpStr, List.cons_append, List.append_assoc, scanOnce]
    have hread := scanString_escaped t.toList s
    rw [List.singleton_append, hread]
    simp only [Option.map_some, String.ofList_toList]
  | @arr elems h ih =>
    intro level s fuel hs hfuel
    obtain ⟨fuel, rfl⟩ := Nat.exists_eq_add_of_le' (Nat.le_trans (Nat.le_add_left 1 _) hfuel)
    cases elems with
    | nil => rfl
    | cons v vs =>
      have htext : dump ft level (.arr (v :: vs)) ++ s = '[' :: (newline (level + 1) ++
          (dump ft (level + 1) v ++ (dumpElems ft (level + 1) vs ++
            (newline level ++ ']' :: s)))) := by
        simp only [dump, List.cons_append, List.append_assoc, List.nil_append]
      have hread := scanElems_dump ft level (level + 1) s vs v fuel (ih v List.mem_cons_self)
        (fun w hw => ih w (List.mem_cons_of_mem _ hw)) (by
          rw [htext] at hfuel
          simp only [List.length_append, List.length_cons] at hfuel ⊢
          omega)
      obtain ⟨c, t, hct, hc, hbracket, -⟩ := begins_dump ft (level + 1) v
      rw [htext, scanOnce, skipWs_newline, skipWs_dump]
      rw [hct, List.cons_append] at hread ⊢
      split
      · rename_i heq
        exact absurd (List.cons.inj heq).1 hbracket
      · rw [hread]
        rfl
  | @obj members hkeys h ih =>
    intro level s fuel hs hfuel
    obtain ⟨fuel, rfl⟩ := Nat.exists_eq_add_of_le' (Nat.le_trans (Nat.le_add_left 1 _) hfuel)
    cases members with
    | nil => rfl
    | cons m ms =>
      obtain ⟨k, v⟩ := m
      have htext : dump ft level (.obj ((k, v) :: ms)) ++ s = '{' :: (newline (level + 1) ++
          (dumpStr k ++ (':' :: ' ' :: (dump ft (level + 1) v ++ (dumpMembers ft (level + 1) ms ++
            (newline level ++ '}' :: s)))))) := by
        simp only [dump, List.cons_append, List.append_assoc, List.nil_append]
      have hread := scanMembers_dump ft level (level + 1) s ms k v fuel
        (ih (k, v) List.mem_cons_self) (fun w hw => ih w (List.mem_cons_of_mem _ hw)) (by
          rw [htext] at hfuel
          simp only [List.length_append, List.length_cons] at hfuel ⊢
          omega)
      have hskip : ∀ t, skipWs (dumpStr k ++ t) = dumpStr k ++ t := fun t => skipWs_cons rfl
      rw [htext, scanOnce, skipWs_newline, hskip]
      split
      · rename_i heq
        exact absurd (List.cons.inj heq).1 (by decide)
      · rw [hread]
        simp only [Option.map_some, ofPairs_eq_self hkeys]

/-- **Round trip.**  What was printed is read back, with a line end after it or without. -/
theorem loads_dumps {v : Json F} (h : Wf v) {tail : List Char} (htail : tail = [] ∨ tail = ['\n']) :
    loads ft (dumps ft v ++ tail) = some v := by
  have hfollows : Follows tail := by
    rcases htail with rfl | rfl
    · simp [Follows]
    · exact fun c hc => .inr (Option.some.inj hc).symm
  have hskip : skipWs tail = [] := by
    rcases htail with rfl | rfl <;> rfl
  have hread := h.readsBack ft 0 tail (2 * (dumps ft v ++ tail).length + 2) hfollows
    (Nat.le_succ _)
  have hbom : (dumps ft v ++ tail).head? ≠ some '\ufeff' := by
    intro hhead
    obtain ⟨c, t, hct, -, -, hc⟩ := begins_dump ft 0 v
    rw [dumps, hct] at hhead
    exact hc (Option.some.inj hhead)
  rw [loads, if_neg hbom, dumps, skipWs_dump]
  rw [dumps] at hread
  simp only [hread, hskip, if_true]

end Json
