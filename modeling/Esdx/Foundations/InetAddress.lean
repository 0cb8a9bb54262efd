import Esdx.Foundations.PythonText

/-!
# Textual internet addresses

The constructors `IPv4Address(text)` and `IPv6Address(text)` and the printer `str` of Python's
`ipaddress` module, on lists of characters.  IPv4 octets are plain decimals without leading zeros;
IPv6 texts may abbreviate one run of zero groups by `::`, may end in a dotted IPv4 address, and may
carry a zone after `%`.  The printer abbreviates the first longest run of at least two zero groups.

`parseIPv4_text` and `parseIPv6_text` are the round trips: a printed address is read back as
itself.
-/

namespace InetAddress

open PythonText

/-! ## Data -/

/-- An IPv4 address: four octets. -/
structure IPv4Address where
  octets : List ℕ
  length_octets : octets.length = 4
  octets_lt : ∀ o ∈ octets, o < 256
deriving DecidableEq

/-- A text that may follow `%` in an IPv6 address. -/
def IsZone (z : List Char) : Prop := z ≠ [] ∧ '%' ∉ z ∧ '/' ∉ z

instance (z : List Char) : Decidable (IsZone z) := inferInstanceAs (Decidable (_ ∧ _ ∧ _))

/-- An IPv6 address: eight groups of sixteen bits and an optional zone. -/
structure IPv6Address where
  hextets : List ℕ
  zone : Option (List Char)
  length_hextets : hextets.length = 8
  hextets_lt : ∀ h ∈ hextets, h < 65536
  zone_ok : ∀ z ∈ zone, IsZone z
deriving DecidableEq

/-- An address of either version. -/
inductive IPAddress
  | v4 (a : IPv4Address)
  | v6 (a : IPv6Address)
deriving DecidableEq

/-! ## IPv4 -/

/-- One octet: one to three ASCII digits, no leading zero, at most 255. -/
def parseOctet (s : List Char) : Option ℕ :=
  if s ≠ [] ∧ s.all Char.isDigit ∧ s.length ≤ 3 ∧ (s = ['0'] ∨ s.head? ≠ some '0') ∧
      Nat.ofDigitChars 10 s 0 ≤ 255 then
    some (Nat.ofDigitChars 10 s 0)
  else none

/-- `IPv4Address(s)`, `none` standing for `AddressValueError`. -/
def parseIPv4 (s : List Char) : Option IPv4Address :=
  match (s.splitOn '.').mapM parseOctet with
  | none => none
  | some os =>
    if h : os.length = 4 ∧ ∀ o ∈ os, o < 256 then some ⟨os, h.1, h.2⟩ else none

/-- `str(a)` of an IPv4 address. -/
def IPv4Address.text (a : IPv4Address) : List Char :=
  ['.'].intercalate (a.octets.map (Nat.toDigits 10))

/-- A list of printed items is read back item by item. -/
lemma mapM_map_of_roundtrip {α : Type} {f : List Char → Option α} {g : α → List Char}
    {l : List α} (h : ∀ a ∈ l, f (g a) = some a) : (l.map g).mapM f = some l := by
  induction l with
  | nil => rfl
  | cons a l ih =>
    rw [List.map_cons, List.mapM_cons, h a (by simp), ih fun b hb => h b (by simp [hb])]
    rfl

/-- A numeral of more than one digit does not start with zero. -/
lemma head_toDigits {n : ℕ} (h : 0 < n) : (Nat.toDigits 10 n).head? ≠ some '0' := by
  induction n using Nat.strong_induction_on with
  | _ n ih =>
    by_cases hn : n < 10
    · rw [Nat.toDigits_of_lt_base hn]
      simp only [List.head?_cons, ne_eq, Option.some.injEq, Nat.digitChar_eq_zero]
      omega
    · rw [Nat.toDigits_of_base_le (by decide) (not_lt.mp hn),
        List.head?_append_of_ne_nil _ Nat.toDigits_ne_nil]
      exact ih _ (by omega) (by omega)

/-- A printed octet is read back as itself. -/
lemma parseOctet_toDigits {n : ℕ} (h : n < 256) : parseOctet (Nat.toDigits 10 n) = some n := by
  have hlen : (Nat.toDigits 10 n).length ≤ 3 :=
    (Nat.length_toDigits_le_iff (by decide) (by decide)).mpr (by omega)
  have hzero : Nat.toDigits 10 n = ['0'] ∨ (Nat.toDigits 10 n).head? ≠ some '0' := by
    rcases Nat.eq_zero_or_pos n with rfl | hpos
    · exact .inl (Nat.toDigits_zero 10)
    · exact .inr (head_toDigits hpos)
  have hall : (Nat.toDigits 10 n).all Char.isDigit := by
    simpa using fun c hc => isDigit_of_mem_toDigits hc
  rw [parseOctet, Nat.ofDigitChars_ten_toDigits,
    if_pos ⟨Nat.toDigits_ne_nil, hall, hlen, hzero, by omega⟩]

/-- A dot is not part of a numeral. -/
lemma dot_notMem_toDigits (n : ℕ) : '.' ∉ Nat.toDigits 10 n := fun h =>
  absurd (isDigit_of_mem_toDigits h) (by decide)

/-- **Round trip** of IPv4 addresses. -/
theorem parseIPv4_text (a : IPv4Address) : parseIPv4 a.text = some a := by
  have hsplit : a.text.splitOn '.' = a.octets.map (Nat.toDigits 10) := by
    refine List.splitOn_intercalate _ ?_ ?_
    · simpa using fun n _ => dot_notMem_toDigits n
    · intro hnil
      have := a.length_octets
      simp_all
  have hmap : (a.octets.map (Nat.toDigits 10)).mapM parseOctet = some a.octets :=
    mapM_map_of_roundtrip fun n hn => parseOctet_toDigits (a.octets_lt n hn)
  rw [parseIPv4, hsplit, hmap]
  exact dif_pos ⟨a.length_octets, a.octets_lt⟩

/-- The text of an IPv4 address consists of digits and dots. -/
lemma digit_or_dot_of_parseIPv4 {s : List Char} {a : IPv4Address} (h : parseIPv4 s = some a)
    {c : Char} (hc : c ∈ s) : c = '.' ∨ c.isDigit := by
  rw [← @List.intercalate_splitOn _ s _ _ '.'] at hc
  rcases mem_intercalate hc with hc | ⟨p, hp, hc⟩
  · exact .inl hc
  · unfold parseIPv4 at h
    split at h
    · simp at h
    · rename_i os hos
      obtain ⟨n, -, hn⟩ := exists_of_mapM_eq_some hos hp
      unfold parseOctet at hn
      split at hn
      · rename_i hcond
        exact .inr (List.all_eq_true.mp hcond.2.1 c hc)
      · simp at hn

/-! ## IPv6 -/

/-- `c in "0123456789abcdefABCDEF"`. -/
def isHexDigit (c : Char) : Bool := (digitValue 16 c).isSome

/-- One group: one to four hexadecimal digits. -/
def parseHextet (s : List Char) : Option ℕ :=
  if s.all isHexDigit ∧ s.length ≤ 4 then readDigits 16 0 true s else none

/-- Replace a dotted last part by the two groups it denotes. -/
def expandDotted (parts : List (List Char)) : Option (List (List Char)) :=
  match parts.getLast? with
  | none => none
  | some last =>
    if '.' ∈ last then
      match parseIPv4 last with
      | some ⟨[a, b, c, d], _, _⟩ =>
        some (parts.dropLast ++ [Nat.toDigits 16 (a * 256 + b), Nat.toDigits 16 (c * 256 + d)])
      | _ => none
    else some parts

/-- The groups on one side of `::`.  The outermost part may be empty only when it is alone. -/
def sideGroups (outer : List Char) (side : List (List Char)) : Option (List ℕ) :=
  if outer = [] then
    if side.length = 1 then some [] else none
  else side.mapM parseHextet

/-- The eight groups denoted by the colon-separated parts. -/
def parseGroups (parts : List (List Char)) : Option (List ℕ) :=
  match parts.head?, parts.getLast? with
  | some first, some last =>
    let inner := parts.tail.dropLast
    if parts.length < 3 ∨ 9 < parts.length then none
    else if inner.count [] = 0 then
      if parts.length = 8 then parts.mapM parseHextet else none
    else if inner.count [] = 1 then
      let k := inner.idxOf []
      match sideGroups first (first :: inner.take k),
          sideGroups last (inner.drop (k + 1) ++ [last]) with
      | some hi, some lo =>
        if hi.length + lo.length < 8 then
          some (hi ++ List.replicate (8 - (hi.length + lo.length)) 0 ++ lo)
        else none
      | _, _ => none
    else none
  | _, _ => none

/-- Separate the zone from the address proper. -/
def splitZone (s : List Char) : Option (List Char × Option (List Char)) :=
  match s.splitOn '%' with
  | [a] => some (a, none)
  | [a, z] => if z = [] then none else some (a, some z)
  | _ => none

/-- `IPv6Address(s)`, `none` standing for `AddressValueError`. -/
def parseIPv6 (s : List Char) : Option IPv6Address :=
  if '/' ∈ s then none
  else
    match splitZone s with
    | none => none
    | some (a, zone) =>
      match (expandDotted (a.splitOn ':')).bind parseGroups with
      | none => none
      | some hs =>
        if h : hs.length = 8 ∧ (∀ h ∈ hs, h < 65536) ∧ ∀ z ∈ zone, IsZone z then
          some ⟨hs, zone, h.1, h.2.1, h.2.2⟩
        else none

/-- The number of zero groups at the front. -/
def zeroRun : List ℕ → ℕ
  | 0 :: hs => zeroRun hs + 1
  | _ => 0

/-- Start and length of the first longest run of zero groups, counting positions from `i`. -/
def longestRun (i : ℕ) : List ℕ → ℕ × ℕ
  | [] => (i, 0)
  | h :: hs =>
    let rest := longestRun (i + 1) hs
    if rest.2 ≤ zeroRun (h :: hs) then (i, zeroRun (h :: hs)) else rest

/-- The colon-separated parts that are printed for the groups. -/
def compressHextets (hs : List ℕ) : List (List Char) :=
  let run := longestRun 0 hs
  let hexes := hs.map (Nat.toDigits 16)
  if run.2 ≤ 1 then hexes
  else
    (if run.1 = 0 then [[]] else []) ++ hexes.take run.1 ++ [[]] ++
      hexes.drop (run.1 + run.2) ++ (if run.1 + run.2 = hs.length then [[]] else [])

/-- `str(a)` of an IPv6 address. -/
def IPv6Address.text (a : IPv6Address) : List Char :=
  [':'].intercalate (compressHextets a.hextets) ++
    match a.zone with
    | none => []
    | some z => '%' :: z

/-! ### Groups -/

/-- The printed digit of a value below sixteen has that value. -/
lemma digitValue_digitChar {d : ℕ} (h : d < 16) : digitValue 16 (Nat.digitChar d) = some d := by
  revert d
  decide

/-- A hexadecimal digit is none of the separators. -/
lemma isHexDigit_ne {c : Char} (h : isHexDigit c) :
    c ≠ ':' ∧ c ≠ '.' ∧ c ≠ '%' ∧ c ≠ '/' ∧ c ≠ '_' ∧ c ≠ '[' ∧ c ≠ ']' ∧ c ≠ '\n' := by
  refine ⟨?_, ?_, ?_, ?_, ?_, ?_, ?_, ?_⟩ <;>
    · rintro rfl
      exact absurd h (by decide)

/-- The characters of a hexadecimal numeral are hexadecimal digits. -/
lemma isHexDigit_of_mem_toDigits {n : ℕ} {c : Char} (h : c ∈ Nat.toDigits 16 n) :
    isHexDigit c := by
  induction n using Nat.strong_induction_on with
  | _ n ih =>
    by_cases hn : n < 16
    · rw [Nat.toDigits_of_lt_base hn, List.mem_singleton] at h
      simp [h, isHexDigit, digitValue_digitChar hn]
    · rw [Nat.toDigits_of_base_le (by decide) (not_lt.mp hn)] at h
      rcases List.mem_append.mp h with h | h
      · exact ih _ (by omega) h
      · rw [List.mem_singleton] at h
        simp [h, isHexDigit, digitValue_digitChar (Nat.mod_lt n (by decide))]

/-- Reading digits piecewise. -/
lemma readDigits_append_digit {s : List Char} {fresh : Bool} {acc n d : ℕ} {c : Char}
    (hs : readDigits 16 acc fresh s = some n) (hc : digitValue 16 c = some d) (hu : c ≠ '_') :
    readDigits 16 acc fresh (s ++ [c]) = some (n * 16 + d) := by
  induction s generalizing acc fresh with
  | nil =>
    cases fresh
    · simp only [readDigits, Bool.false_eq_true, if_false, Option.some.injEq] at hs
      simp [readDigits, hu, hc, hs]
    · simp [readDigits] at hs
  | cons b s ih =>
    rw [List.cons_append, readDigits]
    rw [readDigits] at hs
    split at hs
    · rename_i hb
      rw [if_pos hb]
      split at hs
      · simp at hs
      · rename_i hf
        rw [if_neg hf]
        exact ih hs
    · rename_i hb
      rw [if_neg hb]
      split at hs
      · simp at hs
      · exact ih hs

/-- A hexadecimal numeral is read back as its value. -/
lemma readDigits_toDigits (n : ℕ) : readDigits 16 0 true (Nat.toDigits 16 n) = some n := by
  induction n using Nat.strong_induction_on with
  | _ n ih =>
    by_cases hn : n < 16
    · have hd := digitValue_digitChar hn
      have hu : Nat.digitChar n ≠ '_' := (isHexDigit_ne (by simp [isHexDigit, hd])).2.2.2.2.1
      rw [Nat.toDigits_of_lt_base hn]
      simp [readDigits, hu, hd]
    · have hd := digitValue_digitChar (Nat.mod_lt n (by decide : 16 > 0))
      have hu : Nat.digitChar (n % 16) ≠ '_' :=
        (isHexDigit_ne (by simp [isHexDigit, hd])).2.2.2.2.1
      rw [Nat.toDigits_of_base_le (by decide) (not_lt.mp hn),
        readDigits_append_digit (ih (n / 16) (by omega)) hd hu]
      congr 1
      omega

/-- A printed group is read back as itself. -/
lemma parseHextet_toDigits {n : ℕ} (h : n < 65536) : parseHextet (Nat.toDigits 16 n) = some n := by
  have hall : (Nat.toDigits 16 n).all isHexDigit := by
    simpa using fun c hc => isHexDigit_of_mem_toDigits hc
  have hlen : (Nat.toDigits 16 n).length ≤ 4 :=
    (Nat.length_toDigits_le_iff (by decide) (by decide)).mpr (by omega)
  rw [parseHextet, if_pos ⟨hall, hlen⟩, readDigits_toDigits]

/-- Printed groups are read back together. -/
lemma mapM_parseHextet {hs : List ℕ} (h : ∀ x ∈ hs, x < 65536) :
    (hs.map (Nat.toDigits 16)).mapM parseHextet = some hs :=
  mapM_map_of_roundtrip fun n hn => parseHextet_toDigits (h n hn)

/-! ### The abbreviated run -/

/-- The groups counted by `zeroRun` are zero. -/
lemma replicate_zeroRun (hs : List ℕ) :
    List.replicate (zeroRun hs) 0 ++ hs.drop (zeroRun hs) = hs := by
  induction hs with
  | nil => rfl
  | cons h hs ih =>
    cases h with
    | zero => simpa [zeroRun, List.replicate_succ] using ih
    | succ h => simp [zeroRun]

/-- The longest run lies inside the list and consists of zeros. -/
lemma longestRun_spec (i : ℕ) (hs : List ℕ) :
    i ≤ (longestRun i hs).1 ∧
      hs = hs.take ((longestRun i hs).1 - i) ++ List.replicate (longestRun i hs).2 0 ++
        hs.drop ((longestRun i hs).1 - i + (longestRun i hs).2) ∧
      (longestRun i hs).1 - i + (longestRun i hs).2 ≤ hs.length := by
  induction hs generalizing i with
  | nil => simp [longestRun]
  | cons h hs ih =>
    rw [longestRun]
    split
    · have hrun := replicate_zeroRun (h :: hs)
      have hlen := congrArg List.length hrun
      refine ⟨le_rfl, by simp [hrun], ?_⟩
      simp only [List.length_append, List.length_replicate, List.length_drop] at hlen
      simp only [Nat.sub_self]
      omega
    · obtain ⟨hi, heq, hle⟩ := ih (i + 1)
      have hsub : (longestRun (i + 1) hs).1 - i = (longestRun (i + 1) hs).1 - (i + 1) + 1 := by
        omega
      refine ⟨by omega, ?_, ?_⟩
      · rw [hsub, List.take_succ_cons, Nat.add_right_comm, List.drop_succ_cons]
        simpa using heq
      · rw [hsub, List.length_cons]
        omega

/-- Every printed part consists of hexadecimal digits. -/
lemma isHexDigit_of_mem_compressHextets {hs : List ℕ} {p : List Char} {c : Char}
    (hp : p ∈ compressHextets hs) (hc : c ∈ p) : isHexDigit c := by
  have hmap : ∀ q ∈ hs.map (Nat.toDigits 16), ∀ c ∈ q, isHexDigit c := by
    intro q hq c hc
    obtain ⟨n, -, rfl⟩ := List.mem_map.mp hq
    exact isHexDigit_of_mem_toDigits hc
  unfold compressHextets at hp
  dsimp only at hp
  split at hp
  · exact hmap p hp c hc
  · simp only [List.mem_append, List.mem_singleton] at hp
    rcases hp with (((hp | hp) | hp) | hp) | hp
    · split at hp <;> simp_all
    · exact hmap p (List.mem_of_mem_take hp) c hc
    · simp [hp] at hc
    · exact hmap p (List.mem_of_mem_drop hp) c hc
    · split at hp <;> simp_all

/-- The parts printed on one side of an abbreviated run. -/
def side (g : List ℕ) : List (List Char) := if g = [] then [[]] else g.map (Nat.toDigits 16)

lemma side_ne_nil (g : List ℕ) : side g ≠ [] := by
  unfold side
  split <;> simp_all

/-- A side with groups has no empty part. -/
lemma nil_notMem_map_toDigits (g : List ℕ) : [] ∉ g.map (Nat.toDigits 16) := by
  simp

/-- Only the outermost part of a side can be empty: away from one end there is none. -/
lemma nil_notMem_side (g : List ℕ) : [] ∉ (side g).tail ∧ [] ∉ (side g).dropLast := by
  unfold side
  split
  · simp
  · exact ⟨fun h => nil_notMem_map_toDigits g (List.mem_of_mem_tail h),
      fun h => nil_notMem_map_toDigits g (List.mem_of_mem_dropLast h)⟩

/-- A printed side is read back as its groups, whichever of its parts is the outermost. -/
lemma sideGroups_side {g : List ℕ} {outer : List Char} (ho : outer ∈ side g)
    (hg : ∀ x ∈ g, x < 65536) : sideGroups outer (side g) = some g := by
  unfold side at ho ⊢
  split at ho
  · rename_i hnil
    rw [if_pos hnil, sideGroups, if_pos (List.mem_singleton.mp ho)]
    simp [hnil]
  · rename_i hne
    have hout : outer ≠ [] := fun h => nil_notMem_map_toDigits g (h ▸ ho)
    rw [if_neg hne, sideGroups, if_neg hout, mapM_parseHextet hg]

/-- A nonempty list ends in some element. -/
lemma exists_concat {α : Type} {l : List α} (h : l ≠ []) : ∃ init last, l = init ++ [last] :=
  ⟨l.dropLast, l.getLast h, (List.dropLast_append_getLast h).symm⟩

/-- The reading of a text in terms of its outer and inner parts. -/
lemma parseGroups_cons_concat (first last : List Char) (inner : List (List Char)) :
    parseGroups (first :: (inner ++ [last])) =
      if inner.length < 1 ∨ 7 < inner.length then none
      else if inner.count [] = 0 then
        if inner.length = 6 then (first :: (inner ++ [last])).mapM parseHextet else none
      else if inner.count [] = 1 then
        match sideGroups first (first :: inner.take (inner.idxOf [])),
            sideGroups last (inner.drop (inner.idxOf [] + 1) ++ [last]) with
        | some hi, some lo =>
          if hi.length + lo.length < 8 then
            some (hi ++ List.replicate (8 - (hi.length + lo.length)) 0 ++ lo)
          else none
        | _, _ => none
      else none := by
  have hlast : (first :: (inner ++ [last])).getLast? = some last := by
    rw [← List.cons_append, List.getLast?_concat]
  have hbounds : ((first :: (inner ++ [last])).length < 3 ∨
      9 < (first :: (inner ++ [last])).length) ↔ (inner.length < 1 ∨ 7 < inner.length) := by
    simp only [List.length_cons, List.length_append, List.length_nil]
    omega
  have height : (first :: (inner ++ [last])).length = 8 ↔ inner.length = 6 := by
    simp only [List.length_cons, List.length_append, List.length_nil]
    omega
  unfold parseGroups
  simp only [hlast, List.head?_cons, List.tail_cons, List.dropLast_concat, hbounds, height]

/-- Two printed sides around `::` are read back with zeros between them. -/
lemma parseGroups_sides {hi lo : List ℕ} (hhi : ∀ x ∈ hi, x < 65536)
    (hlo : ∀ x ∈ lo, x < 65536) (hlen : hi.length + lo.length < 7) :
    parseGroups (side hi ++ [] :: side lo) =
      some (hi ++ List.replicate (8 - (hi.length + lo.length)) 0 ++ lo) := by
  obtain ⟨first, hiTail, hleft⟩ := List.exists_cons_of_ne_nil (side_ne_nil hi)
  obtain ⟨loInit, last, hright⟩ := exists_concat (side_ne_nil lo)
  have hsideLen : ∀ g : List ℕ, (side g).length ≤ max g.length 1 := by
    intro g
    unfold side
    split <;> simp_all
  have hhiLen : hiTail.length + 1 ≤ max hi.length 1 := by simpa [hleft] using hsideLen hi
  have hloLen : loInit.length + 1 ≤ max lo.length 1 := by simpa [hright] using hsideLen lo
  have hfirst : sideGroups first (first :: hiTail) = some hi := by
    rw [← hleft]
    exact sideGroups_side (by simp [hleft]) hhi
  have hlast : sideGroups last (loInit ++ [last]) = some lo := by
    rw [← hright]
    exact sideGroups_side (by simp [hright]) hlo
  have hhiTail : [] ∉ hiTail := by simpa [hleft] using (nil_notMem_side hi).1
  have hloInit : [] ∉ loInit := by simpa [hright] using (nil_notMem_side lo).2
  have hcount : (hiTail ++ [] :: loInit).count [] = 1 := by
    rw [List.count_append, List.count_cons_self, List.count_eq_zero_of_not_mem hhiTail,
      List.count_eq_zero_of_not_mem hloInit]
  have hidx : (hiTail ++ [] :: loInit).idxOf [] = hiTail.length := by
    rw [List.idxOf_append_of_notMem hhiTail, List.idxOf_cons_self, Nat.add_zero]
  have hparts : side hi ++ [] :: side lo = first :: ((hiTail ++ [] :: loInit) ++ [last]) := by
    simp [hleft, hright]
  have hbounds : ¬((hiTail ++ [] :: loInit).length < 1 ∨ 7 < (hiTail ++ [] :: loInit).length) := by
    simp only [List.length_append, List.length_cons]
    omega
  have htake : (hiTail ++ [] :: loInit).take hiTail.length = hiTail := by simp
  have hdrop : (hiTail ++ [] :: loInit).drop (hiTail.length + 1) = loInit := by
    simp [List.drop_append]
  rw [hparts, parseGroups_cons_concat, if_neg hbounds, hcount, if_neg one_ne_zero, if_pos rfl,
    hidx, htake, hdrop, hfirst, hlast]
  exact if_pos (by omega)

/-- The printed parts of eight groups are read back as these groups. -/
lemma parseGroups_compressHextets {hs : List ℕ} (hlen : hs.length = 8)
    (hlt : ∀ h ∈ hs, h < 65536) : parseGroups (compressHextets hs) = some hs := by
  unfold compressHextets
  dsimp only
  split
  · obtain ⟨h, t, rfl⟩ := List.exists_cons_of_length_eq_add_one hlen
    obtain ⟨mid, l, rfl⟩ := exists_concat (l := t) (by rintro rfl; simp at hlen)
    have hmid : mid.length = 6 := by simpa using hlen
    have hparts : (h :: (mid ++ [l])).map (Nat.toDigits 16) =
        Nat.toDigits 16 h :: (mid.map (Nat.toDigits 16) ++ [Nat.toDigits 16 l]) := by
      simp
    rw [hparts, parseGroups_cons_concat, ← hparts, mapM_parseHextet hlt,
      List.count_eq_zero_of_not_mem (nil_notMem_map_toDigits mid)]
    simp [hmid]
  · rename_i hrun
    obtain ⟨-, heq, hle⟩ := longestRun_spec 0 hs
    rw [Nat.sub_zero] at heq hle
    set start := (longestRun 0 hs).1
    set len := (longestRun 0 hs).2
    have hleft : (if start = 0 then [[]] else []) ++ (hs.map (Nat.toDigits 16)).take start =
        side (hs.take start) := by
      rcases Nat.eq_zero_or_pos start with h0 | hpos
      · simp [h0, side]
      · have hne : hs.take start ≠ [] := by
          rw [ne_eq, List.take_eq_nil_iff, not_or]
          exact ⟨by omega, by rintro rfl; simp at hlen⟩
        rw [side, if_neg hne, if_neg (by omega), List.map_take, List.nil_append]
    have hright : (hs.map (Nat.toDigits 16)).drop (start + len) ++
        (if start + len = hs.length then [[]] else []) = side (hs.drop (start + len)) := by
      rcases Nat.eq_or_lt_of_le hle with h0 | hlt'
      · simp [h0, side]
      · have hne : hs.drop (start + len) ≠ [] := by
          rw [ne_eq, List.drop_eq_nil_iff]
          omega
        rw [side, if_neg hne, if_neg (by omega), List.map_drop, List.append_nil]
    have hlens : (hs.take start).length + (hs.drop (start + len)).length = 8 - len := by
      rw [List.length_take, List.length_drop]
      omega
    have hsum : 8 - ((hs.take start).length + (hs.drop (start + len)).length) = len := by omega
    rw [hleft, List.append_assoc, List.append_assoc, hright, List.singleton_append,
      parseGroups_sides (fun x hx => hlt x (List.mem_of_mem_take hx))
        (fun x hx => hlt x (List.mem_of_mem_drop hx)) (by omega), hsum, ← heq]

/-! ### The round trip -/

/-- A printed address without its zone: hexadecimal digits and colons. -/
lemma mem_intercalate_compressHextets {hs : List ℕ} {c : Char}
    (hc : c ∈ [':'].intercalate (compressHextets hs)) : c = ':' ∨ isHexDigit c := by
  rcases mem_intercalate hc with h | ⟨p, hp, h⟩
  · exact .inl h
  · exact .inr (isHexDigit_of_mem_compressHextets hp h)

/-- At least one part is printed. -/
lemma compressHextets_ne_nil {hs : List ℕ} (h : hs ≠ []) : compressHextets hs ≠ [] := by
  unfold compressHextets
  dsimp only
  split <;> simp [h]

/-- The zone is split off a printed address. -/
lemma splitZone_text (a : IPv6Address) :
    splitZone a.text = some ([':'].intercalate (compressHextets a.hextets), a.zone) := by
  have hnot : '%' ∉ [':'].intercalate (compressHextets a.hextets) := by
    intro hmem
    rcases mem_intercalate_compressHextets hmem with h | h
    · exact absurd h (by decide)
    · exact (isHexDigit_ne h).2.2.1 rfl
  unfold splitZone IPv6Address.text
  rcases hz : a.zone with _ | z
  · rw [List.append_nil, List.splitOn_eq_singleton hnot]
  · obtain ⟨hne, hper, -⟩ := a.zone_ok z hz
    rw [List.splitOn_append_cons_self_of_not_mem hnot, List.splitOn_eq_singleton hper]
    simp [hne]

/-- A printed address has no slash. -/
lemma slash_notMem_text (a : IPv6Address) : '/' ∉ a.text := by
  unfold IPv6Address.text
  rw [List.mem_append, not_or]
  constructor
  · intro hmem
    rcases mem_intercalate_compressHextets hmem with h | h
    · exact absurd h (by decide)
    · exact (isHexDigit_ne h).2.2.2.1 rfl
  · rcases hz : a.zone with _ | z
    · simp
    · simp [(a.zone_ok z hz).2.2]

/-- **Round trip** of IPv6 addresses. -/
theorem parseIPv6_text (a : IPv6Address) : parseIPv6 a.text = some a := by
  have hne : a.hextets ≠ [] := by
    intro h
    have := a.length_hextets
    simp [h] at this
  have hsplit : ([':'].intercalate (compressHextets a.hextets)).splitOn ':' =
      compressHextets a.hextets :=
    List.splitOn_intercalate _
      (fun p hp hc => (isHexDigit_ne (isHexDigit_of_mem_compressHextets hp hc)).1 rfl)
      (compressHextets_ne_nil hne)
  have hexpand : expandDotted (compressHextets a.hextets) = some (compressHextets a.hextets) := by
    obtain ⟨init, last, hparts⟩ := exists_concat (compressHextets_ne_nil hne)
    have hdot : '.' ∉ last := fun hc =>
      have hlast : last ∈ compressHextets a.hextets := by simp [hparts]
      (isHexDigit_ne (isHexDigit_of_mem_compressHextets hlast hc)).2.1 rfl
    simp [expandDotted, hparts, hdot]
  rw [parseIPv6, if_neg (slash_notMem_text a), splitZone_text]
  dsimp only
  rw [hsplit, hexpand, Option.bind_some,
    parseGroups_compressHextets a.length_hextets a.hextets_lt]
  exact dif_pos ⟨a.length_hextets, a.hextets_lt, a.zone_ok⟩

/-! ### The characters of a text -/

/-- The groups that are read consist of hexadecimal digits. -/
lemma isHexDigit_of_mapM_parseHextet {parts : List (List Char)} {hs : List ℕ}
    (h : parts.mapM parseHextet = some hs) : ∀ p ∈ parts, ∀ c ∈ p, isHexDigit c = true := by
  intro p hp c hc
  obtain ⟨n, -, hn⟩ := exists_of_mapM_eq_some h hp
  unfold parseHextet at hn
  split at hn
  · rename_i hcond
    exact List.all_eq_true.mp hcond.1 c hc
  · simp at hn

/-- The groups on one side of `::` consist of hexadecimal digits. -/
lemma isHexDigit_of_sideGroups {outer : List Char} {side : List (List Char)} {hs : List ℕ}
    (h : sideGroups outer side = some hs) (houter : outer ∈ side) :
    ∀ p ∈ side, ∀ c ∈ p, isHexDigit c = true := by
  unfold sideGroups at h
  split at h
  · rename_i hempty
    split at h
    · rename_i hlength
      obtain ⟨q, rfl⟩ := List.length_eq_one_iff.mp hlength
      intro p hp c hc
      rw [List.mem_singleton] at hp houter
      rw [hp, ← houter, hempty] at hc
      simp at hc
    · simp at h
  · exact isHexDigit_of_mapM_parseHextet h

/-- The parts of an address consist of hexadecimal digits. -/
lemma isHexDigit_of_parseGroups {parts : List (List Char)} {hs : List ℕ}
    (h : parseGroups parts = some hs) : ∀ p ∈ parts, ∀ c ∈ p, isHexDigit c = true := by
  obtain _ | ⟨first, tail⟩ := parts
  · simp
  · obtain rfl | htail := eq_or_ne tail []
    · simp [parseGroups] at h
    obtain ⟨inner, last, rfl⟩ := exists_concat htail
    rw [parseGroups_cons_concat] at h
    split at h
    · simp at h
    split at h
    · split at h
      · exact isHexDigit_of_mapM_parseHextet h
      · simp at h
    split at h
    · split at h
      · rename_i hi lo hhi hlo
        have hleft := isHexDigit_of_sideGroups hhi List.mem_cons_self
        have hright := isHexDigit_of_sideGroups hlo (by simp)
        have hmem : [] ∈ inner := by
          apply List.count_pos_iff.mp
          omega
        have hinner := List.take_append_drop (inner.idxOf []) inner
        have hidx := List.idxOf_lt_length_of_mem hmem
        rw [List.drop_eq_getElem_cons hidx, List.getElem_idxOf hidx] at hinner
        intro p hp
        rw [← hinner] at hp
        simp only [List.mem_cons, List.mem_append, List.not_mem_nil, or_false] at hp
        rcases hp with hp | (hp | hp | hp) | hp
        · exact hleft p (by simp [hp])
        · exact hleft p (by simp [hp])
        · simp [hp]
        · exact hright p (by simp [hp])
        · exact hright p (by simp [hp])
      · simp at h
    · simp at h

/-- A character of an IPv6 address without its zone. -/
def isIPv6Char (c : Char) : Bool := isHexDigit c || c == ':' || c == '.'

/-- An ASCII digit is a hexadecimal digit. -/
lemma isHexDigit_of_isDigit {c : Char} (h : c.isDigit = true) : isHexDigit c = true := by
  have hten := digitValue_ten h
  obtain ⟨hvalue, hlt⟩ := Option.filter_eq_some_iff.mp hten
  have hlt : c.toNat - '0'.toNat < 10 := of_decide_eq_true hlt
  refine Option.isSome_iff_exists.mpr ⟨_, Option.filter_eq_some_iff.mpr ⟨hvalue, ?_⟩⟩
  exact decide_eq_true (by omega)

/-- The parts before the dotted last one is replaced consist of address characters, too. -/
lemma isIPv6Char_of_expandDotted {parts parts' : List (List Char)}
    (h : expandDotted parts = some parts')
    (hparts : ∀ p ∈ parts', ∀ c ∈ p, isHexDigit c = true) :
    ∀ p ∈ parts, ∀ c ∈ p, isIPv6Char c = true := by
  intro p hp c hc
  unfold expandDotted at h
  split at h
  · simp at h
  · rename_i last hlast
    split at h
    · split at h
      · rename_i a b c' d _ _ hv4
        rw [Option.some.injEq] at h
        rw [← List.dropLast_append_getLast? last hlast, List.mem_append, List.mem_singleton] at hp
        rcases hp with hp | rfl
        · have hhex := hparts p (by simp [← h, hp]) c hc
          simp [isIPv6Char, hhex]
        · rcases digit_or_dot_of_parseIPv4 hv4 hc with rfl | hdigit
          · decide
          · simp [isIPv6Char, isHexDigit_of_isDigit hdigit]
      · simp at h
    · rw [Option.some.injEq] at h
      have hhex := hparts p (h ▸ hp) c hc
      simp [isIPv6Char, hhex]

/-- A text of an IPv6 address consists of address characters, and of a zone that begins with `%`. -/
lemma exists_of_parseIPv6 {s : List Char} {a : IPv6Address} (h : parseIPv6 s = some a) :
    ∃ u, u ≠ [] ∧ (∀ c ∈ u, isIPv6Char c = true) ∧
      (s = u ∧ a.zone = none ∨ ∃ z, s = u ++ '%' :: z ∧ a.zone = some z) := by
  unfold parseIPv6 at h
  split at h
  · simp at h
  split at h
  · simp at h
  rename_i u zone hsplit
  rcases hgroups : (expandDotted (u.splitOn ':')).bind parseGroups with _ | hs
  · simp [hgroups] at h
  simp only [hgroups] at h
  split at h
  · rw [Option.some.injEq] at h
    subst h
    obtain ⟨parts, hexpand, hparse⟩ := Option.bind_eq_some_iff.mp hgroups
    have hparts := isIPv6Char_of_expandDotted hexpand (isHexDigit_of_parseGroups hparse)
    refine ⟨u, ?_, ?_, ?_⟩
    · rintro rfl
      simp [expandDotted, parseGroups] at hgroups
    · intro c hc
      rw [← @List.intercalate_splitOn _ u _ _ ':'] at hc
      rcases mem_intercalate hc with rfl | ⟨p, hp, hc⟩
      · decide
      · exact hparts p hp c hc
    · have hjoin := @List.intercalate_splitOn _ s _ _ '%'
      unfold splitZone at hsplit
      split at hsplit
      · rename_i u' hu'
        rw [hu', List.intercalate_singleton] at hjoin
        simp only [Option.some.injEq, Prod.mk.injEq] at hsplit
        obtain ⟨rfl, rfl⟩ := hsplit
        exact .inl ⟨hjoin.symm, rfl⟩
      · rename_i u' z hu'
        rw [hu', List.intercalate_cons_cons, List.intercalate_singleton] at hjoin
        split at hsplit
        · simp at hsplit
        · simp only [Option.some.injEq, Prod.mk.injEq] at hsplit
          obtain ⟨rfl, rfl⟩ := hsplit
          exact .inr ⟨z, by rw [← hjoin]; simp, rfl⟩
      · simp at hsplit
  · simp at h

end InetAddress
