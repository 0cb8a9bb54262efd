import Esdx.Util.Conversion

/-!
# The grammar of addresses with ports

What `ip_port_from_str` and `ip_port_range_from_str` accept.  In the grammar (`AddressForm`) the
whole text is an IPv4 address or an IPv6 address in one pair of brackets, a colon, and one or two
plain decimal ports.  The code (`LenientForm`) looks for the first line with a colon, strips any
brackets, and reads the numbers with `int`.

`lenientForm_iff` compares the two languages for any kind of numbers: they differ in the texts that
the code misreads (`IsMisread`), and in those of the grammar whose zone has a newline or ends with a
bracket (`HasOddZone`).
-/

namespace Esdx

open PythonText InetAddress

/-! ## The line that is searched -/

/-- `SplitsAt s before ipText rest after`: the first line of `s` with a colon is split at its last
colon into `ipText` and `rest`; the other lines stand before and after it. -/
structure SplitsAt (s before ipText rest after : List Char) : Prop where
  eq : s = before ++ (ipText ++ ':' :: rest) ++ after
  before_ends : ∀ c ∈ before.getLast?, c = '\n'
  colon_before : ':' ∉ before
  newline_ipText : '\n' ∉ ipText
  newline_rest : '\n' ∉ rest
  colon_rest : ':' ∉ rest
  after_starts : ∀ c ∈ after.head?, c = '\n'

/-- A text with a colon has a last one. -/
lemma exists_last_colon {line : List Char} (h : ':' ∈ line) :
    ∃ a b, line = a ++ ':' :: b ∧ ':' ∉ b := by
  obtain ⟨after, before, hsplit, hafter⟩ := List.eq_append_cons_of_mem (List.mem_reverse.mpr h)
  refine ⟨before.reverse, after.reverse, ?_, by simpa using hafter⟩
  rw [← List.reverse_reverse line, hsplit]
  simp

/-- A line is not split when it has no colon. -/
lemma splitLastColon_eq_none {line : List Char} : splitLastColon line = none ↔ ':' ∉ line := by
  constructor
  · intro h hmem
    obtain ⟨a, b, rfl, hb⟩ := exists_last_colon hmem
    rw [splitLastColon_append hb] at h
    simp at h
  · intro h
    rw [splitLastColon, List.splitOn_eq_singleton h]
    rfl

/-- A line with a colon is split at the last one. -/
lemma splitLastColon_eq_some {line a b : List Char} (h : splitLastColon line = some (a, b)) :
    line = a ++ ':' :: b ∧ ':' ∉ b := by
  have hmem : ':' ∈ line := by
    by_contra hne
    rw [splitLastColon_eq_none.mpr hne] at h
    simp at h
  obtain ⟨a', b', rfl, hb'⟩ := exists_last_colon hmem
  rw [splitLastColon_append hb'] at h
  simp only [Option.some.injEq, Prod.mk.injEq] at h
  obtain ⟨rfl, rfl⟩ := h
  exact ⟨rfl, hb'⟩

/-- The search goes through the lines one after the other. -/
lemma searchColon_append_newline (s t : List Char) :
    searchColon (s ++ '\n' :: t) = (searchColon s).or (searchColon t) := by
  rw [searchColon, List.splitOn_append_cons_self, List.findSome?_append]
  rfl

/-- A single line. -/
lemma searchColon_of_line {line : List Char} (h : '\n' ∉ line) :
    searchColon line = splitLastColon line := by
  rw [searchColon, List.splitOn_eq_singleton h]
  simp

/-- Lines without a colon have no match. -/
lemma searchColon_of_notMem {s : List Char} (h : ':' ∉ s) : searchColon s = none := by
  rw [searchColon, List.findSome?_eq_none_iff]
  intro line hline
  exact splitLastColon_eq_none.mpr fun hc => h (mem_of_mem_splitOn hline hc)

/-- The search finds the line and the colon. -/
lemma SplitsAt.searchColon {s before a b after : List Char} (h : SplitsAt s before a b after) :
    searchColon s = some (a, b) := by
  have hnewline : '\n' ∉ a ++ ':' :: b := by simp [h.newline_ipText, h.newline_rest]
  have hline : Esdx.searchColon (a ++ ':' :: b) = some (a, b) := by
    rw [searchColon_of_line hnewline, splitLastColon_append h.colon_rest]
  have hafter : Esdx.searchColon (a ++ ':' :: b ++ after) = some (a, b) := by
    rcases after with _ | ⟨c, t⟩
    · rw [List.append_nil, hline]
    · obtain rfl : c = '\n' := h.after_starts c (by simp)
      rw [searchColon_append_newline, hline, Option.some_or]
  rw [h.eq, List.append_assoc]
  rcases List.eq_nil_or_concat' before with rfl | ⟨p, x, rfl⟩
  · exact hafter
  · obtain rfl : x = '\n' := h.before_ends x (by simp)
    have hcolon : ':' ∉ p := fun hc => h.colon_before (by simp [hc])
    rw [List.append_assoc, List.append_assoc, List.singleton_append, searchColon_append_newline,
      searchColon_of_notMem hcolon, Option.none_or, ← List.append_assoc]
    exact hafter

/-- The search finds the first line with a colon. -/
lemma searchColon_eq_some_iff {s a b : List Char} :
    searchColon s = some (a, b) ↔ ∃ before after, SplitsAt s before a b after := by
  refine ⟨fun h => ?_, fun ⟨_, _, h⟩ => h.searchColon⟩
  induction hlen : s.length using Nat.strong_induction_on generalizing s with
  | _ len ih =>
    by_cases hnewline : '\n' ∈ s
    · obtain ⟨line, t, rfl, hline⟩ := List.eq_append_cons_of_mem hnewline
      rw [searchColon_append_newline, searchColon_of_line hline] at h
      rcases hsplit : splitLastColon line with _ | ⟨a', b'⟩
      · rw [hsplit, Option.none_or] at h
        obtain ⟨before, after, hrest⟩ := ih t.length (by simp [← hlen]; omega) h rfl
        have hcolon := splitLastColon_eq_none.mp hsplit
        refine ⟨line ++ '\n' :: before, after, ?_, ?_, ?_, hrest.newline_ipText,
          hrest.newline_rest, hrest.colon_rest, hrest.after_starts⟩
        · rw [hrest.eq]
          simp
        · intro c hc
          rcases before with _ | ⟨x, before⟩
          · simpa [eq_comm] using hc
          · rw [List.getLast?_append_of_ne_nil _ (List.cons_ne_nil _ _),
              List.getLast?_cons_of_ne_nil (List.cons_ne_nil _ _)] at hc
            exact hrest.before_ends c hc
        · simp [hcolon, hrest.colon_before]
      · rw [hsplit, Option.some_or, Option.some.injEq, Prod.mk.injEq] at h
        obtain ⟨rfl, rfl⟩ := h
        obtain ⟨rfl, hcolon⟩ := splitLastColon_eq_some hsplit
        refine ⟨[], '\n' :: t, by simp, by simp, by simp, ?_, ?_, hcolon, by simp⟩
        · exact fun hc => hline (by simp [hc])
        · exact fun hc => hline (by simp [hc])
    · rw [searchColon_of_line hnewline] at h
      obtain ⟨rfl, hcolon⟩ := splitLastColon_eq_some h
      refine ⟨[], [], by simp, by simp, by simp, ?_, ?_, hcolon, by simp⟩
      · exact fun hc => hnewline (by simp [hc])
      · exact fun hc => hnewline (by simp [hc])

/-! ## The grammar -/

/-- The text of an address before a port: version 4, or version 6 in one pair of brackets. -/
inductive IsAddressText : List Char → IPAddress → Prop
  | v4 {s : List Char} {a : IPv4Address} (h : parseIPv4 s = some a) : IsAddressText s (.v4 a)
  | v6 {s : List Char} {a : IPv6Address} (h : parseIPv6 s = some a) :
    IsAddressText ('[' :: s ++ [']']) (.v6 a)

/-- `AddressForm number s ip b`: the whole text is an address, a colon and the numbers `b`. -/
def AddressForm {β : Type} (number : List Char → β → Prop) (s : List Char) (ip : IPAddress)
    (b : β) : Prop :=
  ∃ ipText rest, s = ipText ++ ':' :: rest ∧ IsAddressText ipText ip ∧ number rest b

/-- A decimal port up to 65534. -/
def IsPort (s : List Char) (port : ℤ) : Prop :=
  ∃ n : ℕ, port = n ∧ n ≤ 65534 ∧ IsPlainNumeral 10 s n

/-- Two decimal ports up to 65534, of which the lower and the higher one are returned. -/
def IsPortRange (s : List Char) (range : ℤ × ℤ) : Prop :=
  ∃ s₀ s₁, ∃ n₀ n₁ : ℕ, s = s₀ ++ '-' :: s₁ ∧ range = (min (n₀ : ℤ) n₁, max (n₀ : ℤ) n₁) ∧
    n₀ ≤ 65534 ∧ n₁ ≤ 65534 ∧ IsPlainNumeral 10 s₀ n₀ ∧ IsPlainNumeral 10 s₁ n₁

/-- `ip_port_from_str` accepts this text when it is in the grammar, with the values it denotes. -/
def FollowsPortGrammar (s : String) : Prop :=
  ∀ ip port, ipPortFromStr s = .ok (ip, port) ↔ AddressForm IsPort s.toList ip port

/-- `ip_port_range_from_str` accepts this text when it is in the grammar, with the values it
denotes. -/
def FollowsRangeGrammar (s : String) : Prop :=
  ∀ ip lo hi, ipPortRangeFromStr s = .ok (ip, lo, hi) ↔
    AddressForm IsPortRange s.toList ip (lo, hi)

/-! ## The language of the code -/

/-- The text of an address for the code: version 4, or version 6 between any brackets. -/
inductive IsLenientAddressText : List Char → IPAddress → Prop
  | v4 {s : List Char} {a : IPv4Address} (h : parseIPv4 s = some a) :
    IsLenientAddressText s (.v4 a)
  | v6 {l s r : List Char} {a : IPv6Address} (h : parseIPv6 s = some a)
    (hlast : ∀ c ∈ s.getLast?, isBracket c = false) (hl : ∀ c ∈ l, isBracket c = true)
    (hr : ∀ c ∈ r, isBracket c = true) (hne : l ++ r ≠ []) :
    IsLenientAddressText (l ++ s ++ r) (.v6 a)

/-- A port as `int` reads it. -/
def IsLenientPort (s : List Char) (port : ℤ) : Prop := IsIntText 10 s port ∧ 0 ≤ port ∧ port ≤ 65534

/-- Two ports as `int` reads them. -/
def IsLenientPortRange (s : List Char) (range : ℤ × ℤ) : Prop :=
  ∃ s₀ s₁ q₀ q₁, s = s₀ ++ '-' :: s₁ ∧ '-' ∉ s₀ ∧ '-' ∉ s₁ ∧ range = (min q₀ q₁, max q₀ q₁) ∧
    max q₀ q₁ ≤ 65534 ∧ IsIntText 10 s₀ q₀ ∧ IsIntText 10 s₁ q₁

/-- A character of an address is neither a bracket nor a newline. -/
lemma not_bracket_of_isIPv6Char {c : Char} (h : isIPv6Char c = true) :
    isBracket c = false ∧ c ≠ '\n' := by
  simp only [isIPv6Char, Bool.or_eq_true, beq_iff_eq] at h
  rcases h with (h | rfl) | rfl
  · obtain ⟨-, -, -, -, -, hl, hr, hn⟩ := isHexDigit_ne h
    exact ⟨by simp [isBracket, hl, hr], hn⟩
  · decide
  · decide

/-- The first character of an IPv6 text is no bracket. -/
lemma head_not_bracket_of_parseIPv6 {s : List Char} {a : IPv6Address} (h : parseIPv6 s = some a) :
    s ≠ [] ∧ ∀ c ∈ s.head?, isBracket c = false := by
  obtain ⟨u, hne, hchars, hzone⟩ := exists_of_parseIPv6 h
  obtain ⟨x, t, rfl⟩ := List.exists_cons_of_ne_nil hne
  have hx := (not_bracket_of_isIPv6Char (hchars x List.mem_cons_self)).1
  rcases hzone with ⟨rfl, -⟩ | ⟨z, rfl, -⟩
  · exact ⟨hne, by simpa using hx⟩
  · exact ⟨by simp, by simpa using hx⟩

/-- An IPv6 text whose zone can be printed and read again has one line and ends with no bracket. -/
lemma Reparsable.text {s : List Char} {a : IPv6Address} (ha : Reparsable (.v6 a))
    (h : parseIPv6 s = some a) : '\n' ∉ s ∧ ∀ c ∈ s.getLast?, isBracket c = false := by
  obtain ⟨u, hne, hchars, hzone⟩ := exists_of_parseIPv6 h
  have hline : '\n' ∉ u := fun hc => (not_bracket_of_isIPv6Char (hchars _ hc)).2 rfl
  rcases hzone with ⟨rfl, -⟩ | ⟨z, rfl, hz⟩
  · refine ⟨hline, fun c hc => ?_⟩
    exact (not_bracket_of_isIPv6Char (hchars c (List.mem_of_mem_getLast? hc))).1
  · obtain ⟨hzline, hzlast⟩ := ha z hz
    refine ⟨by simp [hline, hzline], fun c hc => ?_⟩
    rw [List.getLast?_append_of_ne_nil _ (List.cons_ne_nil _ _),
      List.getLast?_cons_of_ne_nil (a.zone_ok z hz).1] at hc
    exact hzlast c hc

/-- An IPv4 text has no brackets around it. -/
lemma parseIPv4_of_brackets {l s r : List Char} (hl : ∀ c ∈ l, isBracket c = true)
    (hr : ∀ c ∈ r, isBracket c = true) (hne : l ++ r ≠ []) : parseIPv4 (l ++ s ++ r) = none := by
  obtain ⟨c, hc⟩ := List.exists_mem_of_ne_nil _ hne
  have hbracket : isBracket c = true := by
    rcases List.mem_append.mp hc with hc | hc
    · exact hl c hc
    · exact hr c hc
  have hmem : c ∈ l ++ s ++ r := by
    rcases List.mem_append.mp hc with hc | hc
    · simp [hc]
    · simp [hc]
  by_contra hsome
  obtain ⟨a, ha⟩ := Option.ne_none_iff_exists'.mp hsome
  simp only [isBracket, Bool.or_eq_true, beq_iff_eq] at hbracket
  rcases digit_or_dot_of_parseIPv4 ha hmem with rfl | hdigit
  · exact absurd hbracket (by decide)
  · rcases hbracket with rfl | rfl
    · exact absurd hdigit (by decide)
    · exact absurd hdigit (by decide)

/-- Brackets around an IPv6 text are stripped. -/
lemma stripBy_isBracket {l s r : List Char} {a : IPv6Address} (h : parseIPv6 s = some a)
    (hlast : ∀ c ∈ s.getLast?, isBracket c = false) (hl : ∀ c ∈ l, isBracket c = true)
    (hr : ∀ c ∈ r, isBracket c = true) : stripBy isBracket (l ++ s ++ r) = s := by
  obtain ⟨hne, hhead⟩ := head_not_bracket_of_parseIPv6 h
  exact stripBy_wrap hl hr hne hhead hlast

/-- The code reads the first line with a colon. -/
lemma ipAndStringFromStr_eq_ok_iff {s : String} {ip : IPAddress} {rest : List Char} :
    ipAndStringFromStr s = .ok (ip, rest) ↔
      ∃ before ipText after, SplitsAt s.toList before ipText rest after ∧
        IsLenientAddressText ipText ip := by
  unfold ipAndStringFromStr
  constructor
  · intro h
    split at h
    · simp at h
    rename_i ipText rest' hsearch
    obtain ⟨before, after, hsplit⟩ := searchColon_eq_some_iff.mp hsearch
    split at h
    · rename_i a ha
      simp only [Except.ok.injEq, Prod.mk.injEq] at h
      obtain ⟨rfl, rfl⟩ := h
      exact ⟨before, ipText, after, hsplit, .v4 ha⟩
    · dsimp only at h
      split at h
      · simp at h
      rename_i hstrip
      split at h
      · rename_i a ha
        simp only [Except.ok.injEq, Prod.mk.injEq] at h
        obtain ⟨rfl, rfl⟩ := h
        obtain ⟨l, r, hipText, hl, hr⟩ := exists_eq_append_stripBy isBracket ipText
        have hne : l ++ r ≠ [] := by
          intro hnil
          obtain ⟨rfl, rfl⟩ := List.append_eq_nil_iff.mp hnil
          rw [List.nil_append, List.append_nil] at hipText
          exact hstrip hipText.symm
        refine ⟨before, ipText, after, hsplit, ?_⟩
        rw [hipText]
        exact .v6 ha (fun c hc => getLast_stripBy hc) hl hr hne
      · simp at h
  · rintro ⟨before, ipText, after, hsplit, hip⟩
    rw [hsplit.searchColon]
    cases hip with
    | v4 h => simp only [h]
    | @v6 l t r a h hlast hl hr hne =>
      have hstrip := stripBy_isBracket h hlast hl hr
      have hdiffers : t ≠ l ++ t ++ r := by
        intro heq
        have hlength := congrArg List.length heq
        have hpos := List.length_pos_iff.mpr hne
        simp only [List.length_append] at hlength hpos
        omega
      simp only [parseIPv4_of_brackets hl hr hne, hstrip, hdiffers, if_false, h]

/-- `ip_port_from_str` reads the port after it. -/
lemma ipPortFromStr_eq_ok_iff {s : String} {ip : IPAddress} {port : ℤ} :
    ipPortFromStr s = .ok (ip, port) ↔
      ∃ rest, ipAndStringFromStr s = .ok (ip, rest) ∧ IsLenientPort rest port := by
  unfold ipPortFromStr
  rcases hip : ipAndStringFromStr s with e | ⟨ip', rest⟩
  · simp [bind, Except.bind]
  simp only [bind, Except.bind]
  constructor
  · intro h
    rcases hport : toInt 10 rest with e | q
    · simp [hport] at h
    simp only [hport] at h
    split at h
    · simp [throw, throwThe, MonadExceptOf.throw] at h
    · rename_i hrange
      simp only [pure, Except.pure, Except.ok.injEq, Prod.mk.injEq] at h
      obtain ⟨rfl, rfl⟩ := h
      exact ⟨rest, rfl, pyInt_eq_some_iff.mp (toInt_eq_ok.mp hport), by omega, by omega⟩
  · rintro ⟨rest', heq, hint, h0, hmax⟩
    simp only [Except.ok.injEq, Prod.mk.injEq] at heq
    obtain ⟨rfl, rfl⟩ := heq
    have hrange : ¬(port < 0 ∨ 65534 < port) := by omega
    simp only [toInt_eq_ok.mpr (pyInt_eq_some_iff.mpr hint), hrange, if_false]
    rfl

/-- `ip_port_range_from_str` reads the two ports after it. -/
lemma ipPortRangeFromStr_eq_ok_iff {s : String} {ip : IPAddress} {lo hi : ℤ} :
    ipPortRangeFromStr s = .ok (ip, lo, hi) ↔
      ∃ rest, ipAndStringFromStr s = .ok (ip, rest) ∧ IsLenientPortRange rest (lo, hi) := by
  unfold ipPortRangeFromStr
  rcases hip : ipAndStringFromStr s with e | ⟨ip', rest⟩
  · simp [bind, Except.bind]
  simp only [bind, Except.bind]
  constructor
  · intro h
    split at h
    · rename_i p₀ p₁ hparts
      rcases h0 : toInt 10 p₀ with e | q₀
      · simp [h0] at h
      rcases h1 : toInt 10 p₁ with e | q₁
      · simp [h0, h1] at h
      simp only [h0, h1] at h
      split at h
      · simp [throw, throwThe, MonadExceptOf.throw] at h
      · rename_i hmax
        simp only [pure, Except.pure, Except.ok.injEq, Prod.mk.injEq] at h
        obtain ⟨rfl, rfl, rfl⟩ := h
        have hjoin := @List.intercalate_splitOn _ rest _ _ '-'
        refine ⟨rest, rfl, p₀, p₁, q₀, q₁, ?_, ?_, ?_, rfl, by omega,
          pyInt_eq_some_iff.mp (toInt_eq_ok.mp h0), pyInt_eq_some_iff.mp (toInt_eq_ok.mp h1)⟩
        · rw [← hjoin, hparts]
          simp [List.intercalate_cons_cons]
        · exact notMem_of_mem_splitOn (s := rest) (by simp [hparts])
        · exact notMem_of_mem_splitOn (s := rest) (by simp [hparts])
    · simp [throw, throwThe, MonadExceptOf.throw] at h
  · rintro ⟨rest', heq, p₀, p₁, q₀, q₁, hrest, hp₀, hp₁, hrange, hmax, h0, h1⟩
    simp only [Except.ok.injEq, Prod.mk.injEq] at heq
    obtain ⟨rfl, rfl⟩ := heq
    have hparts : rest.splitOn '-' = [p₀, p₁] := by
      rw [hrest, List.splitOn_append_cons_self_of_not_mem hp₀, List.splitOn_eq_singleton hp₁]
    have hlarge : ¬65534 < max q₀ q₁ := by omega
    rw [Prod.mk.injEq] at hrange
    simp only [hparts, toInt_eq_ok.mpr (pyInt_eq_some_iff.mpr h0),
      toInt_eq_ok.mpr (pyInt_eq_some_iff.mpr h1), hlarge, if_false, hrange]
    rfl

/-- What the code reads can be printed and read again. -/
lemma SplitsAt.reparsable {s before ipText rest after : List Char} {ip : IPAddress}
    (h : SplitsAt s before ipText rest after) (hip : IsLenientAddressText ipText ip) :
    Reparsable ip := by
  cases hip with
  | v4 _ => trivial
  | @v6 l t r a hparse hlast _ _ _ =>
    intro z hz
    obtain ⟨pre, rfl⟩ := zone_of_parseIPv6 hparse hz
    refine ⟨fun hc => h.newline_ipText (by simp [hc]), fun c hc => hlast c ?_⟩
    rw [List.getLast?_append_of_ne_nil _ (List.cons_ne_nil _ _),
      List.getLast?_cons_of_ne_nil (a.zone_ok z hz).1]
    exact hc

/-- A template that is accepted denotes an address that can be printed and read again, and an
ordered range of ports up to 65534. -/
theorem ipPortRangeFromStr_ok {s : String} {ip : IPAddress} {lo hi : ℤ}
    (h : ipPortRangeFromStr s = .ok (ip, lo, hi)) :
    Reparsable ip ∧ 0 ≤ lo ∧ lo ≤ hi ∧ hi ≤ 65534 := by
  obtain ⟨rest, hip, s₀, s₁, q₀, q₁, -, hs₀, hs₁, hrange, hmax, h₀, h₁⟩ :=
    ipPortRangeFromStr_eq_ok_iff.mp h
  obtain ⟨before, ipText, after, hsplit, haddress⟩ := ipAndStringFromStr_eq_ok_iff.mp hip
  have hq₀ := pyInt_nonneg hs₀ (pyInt_eq_some_iff.mpr h₀)
  have hq₁ := pyInt_nonneg hs₁ (pyInt_eq_some_iff.mpr h₁)
  obtain ⟨rfl, rfl⟩ := Prod.mk.inj hrange
  exact ⟨hsplit.reparsable haddress, by omega, by omega, by omega⟩

/-! ## Where the two differ -/

/-- The brackets at the ends of the text are one matching pair. -/
def OneBracketPair (s : List Char) : Prop := ∃ u, s = '[' :: u ++ [']'] ∧ stripBy isBracket u = u

section Form

variable {β : Type} {number plain : List Char → β → Prop} {allowed : Char → Bool} {s : List Char}
  {ip : IPAddress} {b : β}

/-- The texts that the code reads as an address and the numbers `b`. -/
def LenientForm (number : List Char → β → Prop) (s : List Char) (ip : IPAddress) (b : β) : Prop :=
  ∃ before ipText rest after, SplitsAt s before ipText rest after ∧
    IsLenientAddressText ipText ip ∧ number rest b

/-- A text that the code reads although it has other lines, other characters than those of the
numbers, or other brackets than one pair around an address of version 6. -/
def IsMisread (number : List Char → β → Prop) (allowed : Char → Bool) (s : List Char) : Prop :=
  ∃ before ipText rest after, SplitsAt s before ipText rest after ∧
    (∃ ip, IsLenientAddressText ipText ip) ∧ (∃ b, number rest b) ∧
    (before ≠ [] ∨ after ≠ [] ∨ (∃ c ∈ rest, allowed c = false) ∨
      parseIPv4 ipText = none ∧ ¬OneBracketPair ipText)

/-- A text of the grammar whose address has a zone with a newline or with a bracket at its end. -/
def HasOddZone (number : List Char → β → Prop) (s : List Char) : Prop :=
  ∃ ip b, AddressForm number s ip b ∧ ¬Reparsable ip

/-- A text of one line is split in one way. -/
lemma SplitsAt.eq_of_line {before ipText rest after ipText' rest' : List Char}
    (h : SplitsAt s before ipText rest after) (hs : s = ipText' ++ ':' :: rest')
    (hline : '\n' ∉ s) (hcolon : ':' ∉ rest') :
    before = [] ∧ after = [] ∧ ipText = ipText' ∧ rest = rest' := by
  have hbefore : before = [] := by
    by_contra hne
    obtain ⟨p, x, hp⟩ := (List.eq_nil_or_concat' before).resolve_left hne
    have hx : x = '\n' := h.before_ends x (by simp [hp])
    exact hline (by rw [h.eq, hp, hx]; simp)
  have hafter : after = [] := by
    by_contra hne
    obtain ⟨x, t, ht⟩ := List.exists_cons_of_ne_nil hne
    have hx : x = '\n' := h.after_starts x (by simp [ht])
    exact hline (by rw [h.eq, ht, hx]; simp)
  refine ⟨hbefore, hafter, ?_⟩
  have heq := h.eq
  rw [hbefore, hafter, List.nil_append, List.append_nil, hs] at heq
  obtain ⟨hip, hrest⟩ := (append_cons_inj_right hcolon h.colon_rest).mp heq
  exact ⟨hip.symm, hrest.symm⟩

/-- An address that can be printed and read again has a text of one line in the grammar, and the
code reads it. -/
lemma IsAddressText.lenient {t : List Char} (h : IsAddressText t ip) (hip : Reparsable ip) :
    '\n' ∉ t ∧ IsLenientAddressText t ip ∧ (parseIPv4 t = none → OneBracketPair t) := by
  cases h with
  | @v4 t a h =>
    refine ⟨?_, .v4 h, fun hnone => ?_⟩
    · intro hc
      rcases digit_or_dot_of_parseIPv4 h hc with hc | hc
      · exact absurd hc (by decide)
      · exact absurd hc (by decide)
    · rw [h] at hnone
      simp at hnone
  | @v6 t a h =>
    obtain ⟨hline, hlast⟩ := hip.text h
    obtain ⟨-, hhead⟩ := head_not_bracket_of_parseIPv6 h
    refine ⟨by simp [hline], ?_, fun _ => ⟨t, rfl, stripBy_eq_self hhead hlast⟩⟩
    exact .v6 (l := ['[']) (r := [']']) h hlast (by simp [isBracket]) (by simp [isBracket])
      (by simp)

/-- An address that the code reads is in the grammar when its brackets are one pair. -/
lemma IsLenientAddressText.isAddressText {t : List Char} (h : IsLenientAddressText t ip)
    (hpair : parseIPv4 t = none → OneBracketPair t) : IsAddressText t ip := by
  cases h with
  | v4 h => exact .v4 h
  | @v6 l t r a h hlast hl hr hne =>
    have hstrip := stripBy_isBracket h hlast hl hr
    obtain ⟨u, hu, hself⟩ := hpair (parseIPv4_of_brackets hl hr hne)
    obtain ⟨hhead, hend⟩ := stripBy_eq_self_iff.mp hself
    have hune : u ≠ [] := by
      rintro rfl
      rw [hu] at hstrip
      exact (head_not_bracket_of_parseIPv6 h).1 hstrip.symm
    have hinner : stripBy isBracket (['['] ++ u ++ [']']) = u :=
      stripBy_wrap (by simp [isBracket]) (by simp [isBracket]) hune hhead hend
    have htu : t = u := by
      rw [← hstrip, hu]
      exact hinner
    rw [hu, ← htu]
    exact .v6 h

/-- **Accepting a grammar.**  The code reads exactly the texts of the grammar when it misreads none
and none has an odd zone. -/
lemma lenientForm_iff (hplain : ∀ t b, plain t b ↔ number t b ∧ ∀ c ∈ t, allowed c = true)
    (hcolon : allowed ':' = false) (hnewline : allowed '\n' = false) :
    (∀ ip b, LenientForm number s ip b ↔ AddressForm plain s ip b) ↔
      ¬IsMisread number allowed s ∧ ¬HasOddZone plain s := by
  have hcolonRest : ∀ {t b}, plain t b → ':' ∉ t ∧ '\n' ∉ t := by
    intro t b ht
    have hchars := ((hplain t b).mp ht).2
    constructor
    · intro hc
      rw [hchars _ hc] at hcolon
      exact Bool.noConfusion hcolon
    · intro hc
      rw [hchars _ hc] at hnewline
      exact Bool.noConfusion hnewline
  constructor
  · intro h
    constructor
    · rintro ⟨before, ipText, rest, after, hsplit, ⟨ip, hip⟩, ⟨b, hb⟩, hodd⟩
      obtain ⟨ipText', rest', hs, hip', hb'⟩ := (h ip b).mp ⟨_, _, _, _, hsplit, hip, hb⟩
      obtain ⟨hline, -, hpair⟩ := hip'.lenient (hsplit.reparsable hip)
      obtain ⟨hcolonRest, hlineRest⟩ := hcolonRest hb'
      obtain ⟨rfl, rfl, rfl, rfl⟩ :=
        hsplit.eq_of_line hs (by rw [hs]; simp [hline, hlineRest]) hcolonRest
      rcases hodd with hodd | hodd | ⟨c, hc, hodd⟩ | ⟨hnone, hodd⟩
      · exact hodd rfl
      · exact hodd rfl
      · rw [((hplain rest b).mp hb').2 c hc] at hodd
        exact Bool.noConfusion hodd
      · exact hodd (hpair hnone)
    · rintro ⟨ip, b, hform, hodd⟩
      obtain ⟨before, ipText, rest, after, hsplit, hip, -⟩ := (h ip b).mpr hform
      exact hodd (hsplit.reparsable hip)
  · rintro ⟨hread, hzone⟩ ip b
    constructor
    · rintro ⟨before, ipText, rest, after, hsplit, hip, hb⟩
      have hregular : ¬(before ≠ [] ∨ after ≠ [] ∨ (∃ c ∈ rest, allowed c = false) ∨
          parseIPv4 ipText = none ∧ ¬OneBracketPair ipText) := fun hodd =>
        hread ⟨before, ipText, rest, after, hsplit, ⟨ip, hip⟩, ⟨b, hb⟩, hodd⟩
      simp only [not_or, not_not, not_and, not_exists, Bool.not_eq_false] at hregular
      obtain ⟨hbefore, hafter, hchars, hpair⟩ := hregular
      refine ⟨ipText, rest, ?_, hip.isAddressText hpair, (hplain rest b).mpr ⟨hb, hchars⟩⟩
      rw [hsplit.eq, hbefore, hafter, List.nil_append, List.append_nil]
    · rintro ⟨ipText, rest, rfl, hip, hb⟩
      have hparsable : Reparsable ip := by
        by_contra hodd
        exact hzone ⟨ip, b, ⟨ipText, rest, rfl, hip, hb⟩, hodd⟩
      obtain ⟨hline, hlenient, -⟩ := hip.lenient hparsable
      obtain ⟨hcolonRest, hlineRest⟩ := hcolonRest hb
      refine ⟨[], ipText, rest, [], ?_, hlenient, ((hplain rest b).mp hb).1⟩
      exact ⟨by simp, by simp, by simp, hline, hlineRest, hcolonRest, by simp⟩

end Form

/-! ## The two parsers -/

/-- A character of a port. -/
def isPortChar (c : Char) : Bool := (digitValue 10 c).isSome

/-- A character of two ports. -/
def isRangeChar (c : Char) : Bool := isPortChar c || c == '-'

/-- The ports of the grammar are the lenient ones in plain digits. -/
lemma isPort_iff (s : List Char) (port : ℤ) :
    IsPort s port ↔ IsLenientPort s port ∧ ∀ c ∈ s, isPortChar c = true := by
  constructor
  · rintro ⟨n, rfl, hmax, h⟩
    obtain ⟨hint, hdigits⟩ := exists_isPlainNumeral_iff.mp ⟨n, rfl, h⟩
    exact ⟨⟨hint, by omega, by omega⟩, hdigits⟩
  · rintro ⟨⟨hint, h0, hmax⟩, hdigits⟩
    obtain ⟨n, rfl, h⟩ := exists_isPlainNumeral_iff.mpr ⟨hint, hdigits⟩
    exact ⟨n, rfl, by omega, h⟩

/-- The port ranges of the grammar are the lenient ones in plain digits. -/
lemma isPortRange_iff (s : List Char) (range : ℤ × ℤ) :
    IsPortRange s range ↔ IsLenientPortRange s range ∧ ∀ c ∈ s, isRangeChar c = true := by
  have hminus : ∀ {t : List Char}, AllDigits 10 t → '-' ∉ t := by
    intro t ht hc
    exact absurd (ht '-' hc) (by decide)
  constructor
  · rintro ⟨s₀, s₁, n₀, n₁, rfl, rfl, hmax₀, hmax₁, h₀, h₁⟩
    obtain ⟨hint₀, hdigits₀⟩ := exists_isPlainNumeral_iff.mp ⟨n₀, rfl, h₀⟩
    obtain ⟨hint₁, hdigits₁⟩ := exists_isPlainNumeral_iff.mp ⟨n₁, rfl, h₁⟩
    refine ⟨⟨s₀, s₁, n₀, n₁, rfl, hminus hdigits₀, hminus hdigits₁, rfl, by omega, hint₀, hint₁⟩,
      ?_⟩
    intro c hc
    rcases List.mem_append.mp hc with hc | hc
    · simp [isRangeChar, isPortChar, hdigits₀ c hc]
    · rcases List.mem_cons.mp hc with rfl | hc
      · decide
      · simp [isRangeChar, isPortChar, hdigits₁ c hc]
  · rintro ⟨⟨s₀, s₁, q₀, q₁, rfl, hs₀, hs₁, rfl, hmax, hint₀, hint₁⟩, hchars⟩
    have hdigits : ∀ {t : List Char}, t ⊆ s₀ ++ '-' :: s₁ → '-' ∉ t → AllDigits 10 t := by
      intro t ht hnot c hc
      have hrange := hchars c (ht hc)
      simp only [isRangeChar, isPortChar, Bool.or_eq_true, beq_iff_eq] at hrange
      exact hrange.resolve_right fun heq => hnot (heq ▸ hc)
    have hdigits₀ := hdigits (List.subset_append_left _ _) hs₀
    have hdigits₁ := hdigits
      (List.subset_append_of_subset_right _ (List.subset_cons_of_subset _ (List.Subset.refl _))) hs₁
    obtain ⟨n₀, rfl, h₀⟩ := exists_isPlainNumeral_iff.mpr ⟨hint₀, hdigits₀⟩
    obtain ⟨n₁, rfl, h₁⟩ := exists_isPlainNumeral_iff.mpr ⟨hint₁, hdigits₁⟩
    exact ⟨s₀, s₁, n₀, n₁, rfl, rfl, by omega, by omega, h₀, h₁⟩

/-- What stands after the address is what the parsers read the numbers from. -/
lemma exists_rest_iff {β : Type} {number : List Char → β → Prop} {s : String} {ip : IPAddress}
    {b : β} :
    (∃ rest, ipAndStringFromStr s = .ok (ip, rest) ∧ number rest b) ↔
      LenientForm number s.toList ip b := by
  constructor
  · rintro ⟨rest, hip, hb⟩
    obtain ⟨before, ipText, after, hsplit, haddress⟩ := ipAndStringFromStr_eq_ok_iff.mp hip
    exact ⟨before, ipText, rest, after, hsplit, haddress, hb⟩
  · rintro ⟨before, ipText, rest, after, hsplit, haddress, hb⟩
    exact ⟨rest, ipAndStringFromStr_eq_ok_iff.mpr ⟨before, ipText, after, hsplit, haddress⟩, hb⟩

/-- A text of the grammar has its numbers after the last colon. -/
lemma AddressForm.number_of_append {β : Type} {number : List Char → β → Prop} {ip : IPAddress}
    {b : β} {t rest : List Char} (h : AddressForm number (t ++ ':' :: rest) ip b)
    (hnumber : ∀ {u}, number u b → ':' ∉ u) (hrest : ':' ∉ rest) : number rest b := by
  obtain ⟨ipText, rest', heq, -, hb⟩ := h
  rw [((append_cons_inj_right hrest (hnumber hb)).mp heq).2]
  exact hb

/-- **Address grammar.**  Each of the two parsers follows its grammar on exactly the texts that it
does not misread and that have no odd zone. -/
theorem followsAddressGrammar_iff (s : String) :
    (FollowsPortGrammar s ↔
      ¬IsMisread IsLenientPort isPortChar s.toList ∧ ¬HasOddZone IsPort s.toList) ∧
    (FollowsRangeGrammar s ↔
      ¬IsMisread IsLenientPortRange isRangeChar s.toList ∧ ¬HasOddZone IsPortRange s.toList) := by
  constructor
  · rw [← lenientForm_iff isPort_iff (by decide) (by decide)]
    simp only [FollowsPortGrammar, ipPortFromStr_eq_ok_iff, exists_rest_iff]
  · rw [← lenientForm_iff isPortRange_iff (by decide) (by decide)]
    simp only [FollowsRangeGrammar, ipPortRangeFromStr_eq_ok_iff, exists_rest_iff, Prod.forall]

/-- A plus sign before a port is accepted. -/
theorem not_followsAddressGrammar :
    ¬FollowsPortGrammar "1.1.1.1:+42" ∧ ¬FollowsRangeGrammar "1.1.1.1:42-+44" := by
  constructor
  · intro h
    have hok : ipPortFromStr "1.1.1.1:+42" =
        .ok (.v4 ⟨[1, 1, 1, 1], by decide, by decide⟩, 42) := by
      decide +kernel
    have hform : AddressForm IsPort ("1.1.1.1".toList ++ ':' :: "+42".toList) _ _ :=
      (h _ _).mp hok
    have hport := hform.number_of_append (fun hu hc => ?_) (by decide)
    · exact absurd (((isPort_iff _ _).mp hport).2 '+' (by decide)) (by decide)
    · exact absurd (((isPort_iff _ _).mp hu).2 ':' hc) (by decide)
  · intro h
    have hok : ipPortRangeFromStr "1.1.1.1:42-+44" =
        .ok (.v4 ⟨[1, 1, 1, 1], by decide, by decide⟩, 42, 44) := by
      decide +kernel
    have hform : AddressForm IsPortRange ("1.1.1.1".toList ++ ':' :: "42-+44".toList) _ _ :=
      (h _ _ _).mp hok
    have hrange := hform.number_of_append (fun hu hc => ?_) (by decide)
    · exact absurd (((isPortRange_iff _ _).mp hrange).2 '+' (by decide)) (by decide)
    · exact absurd (((isPortRange_iff _ _).mp hu).2 ':' hc) (by decide)

end Esdx
