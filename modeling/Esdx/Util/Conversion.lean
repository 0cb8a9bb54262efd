import Esdx.Foundations.InetAddress
import Esdx.Foundations.Numeral
import Esdx.Proto.Market

/-!
# Conversions between texts and values

The functions of `util/conversion.py`: integer lists, ISD-AS numbers, times, and the two address
forms `ip:port` and `ip:port-port`.  A raised exception is an `Exc`.

A point in time, an aware `datetime` of Python, is its number of microseconds since the epoch.
-/

namespace Esdx

open PythonText InetAddress

/-! ## Exceptions -/

/-- The exceptions that the code raises or lets through.  `marketServiceErrorFrom` is
`raise MarketServiceError(str(ex)) from ex`; `outOfFuel` is no exception of the code, it marks a
loop that has not ended. -/
inductive Exc
  | valueError (msg : String)
  | addressValueError (text : String)
  | unicodeEncodeError (text : String)
  | overflowError (msg : String)
  | osError (errno : ℕ) (msg : String)
  | unboundLocalError
  | runtimeError (msg : String)
  | keyError (key : String)
  | parseError
  | doesNotExist (msg : String)
  | multipleObjectsReturned (msg : String)
  | integrityError (column : String)
  | validationError (errors : List (String × List String))
  | serializerError (errors : List (String × List (String × String)))
  | marketServiceError (msg : String)
  | marketServiceErrorFrom (cause : Exc)
  | outOfFuel
deriving DecidableEq, Repr

/-- `str(ex)`. -/
def Exc.str : Exc → String
  | valueError msg => msg
  | addressValueError text => "Unexpected text in " ++ text
  | unicodeEncodeError text => encodeError text
  | overflowError msg => msg
  | osError errno msg => "[Errno " ++ toString errno ++ "] " ++ msg
  | unboundLocalError => "local variable 'attempts' referenced before assignment"
  | runtimeError msg => msg
  | keyError key => pyRepr key
  | parseError => "Couldn't parse float"
  | doesNotExist msg => msg
  | multipleObjectsReturned msg => msg
  | integrityError column => "Duplicate entry for key '" ++ column ++ "'"
  | validationError errors =>
    "\x7b" ++ ", ".intercalate (errors.map fun e =>
      pyRepr e.1 ++ ": [" ++ ", ".intercalate (e.2.map pyRepr) ++ "]") ++ "\x7d"
  | serializerError errors =>
    "\x7b" ++ ", ".intercalate (errors.map fun e => pyRepr e.1 ++ ": [" ++ ", ".intercalate
      (e.2.map fun d => "ErrorDetail(string=" ++ pyRepr d.1 ++ ", code=" ++ pyRepr d.2 ++ ")") ++
      "]") ++ "\x7d"
  | marketServiceError msg => msg
  | marketServiceErrorFrom cause => cause.str
  | outOfFuel => ""

/-- `int(text, base)`, raising `ValueError`. -/
def toInt (base : ℕ) (s : List Char) : Except Exc ℤ :=
  match pyInt base s with
  | some z => .ok z
  | none => .error (.valueError ("invalid literal for int() with base " ++ toString base ++ ": " ++
      String.ofList ((pyRepr (String.ofList s)).toList.take 200)))

/-- Reading an integer succeeds exactly when `int` does. -/
lemma toInt_eq_ok {base : ℕ} {s : List Char} {z : ℤ} :
    toInt base s = .ok z ↔ pyInt base s = some z := by
  unfold toInt
  cases pyInt base s <;> simp

/-! ## Integer lists -/

/-- Read every part of a list as a decimal integer. -/
def toIntList : List (List Char) → Except Exc (List ℤ)
  | [] => .ok []
  | s :: ss => do
    let z ← toInt 10 s
    let zs ← toIntList ss
    return z :: zs

/-- `csv_to_intlist`. -/
def csvToIntlist (csv : String) : Except Exc (List ℤ) := toIntList (csv.toList.splitOn ',')

/-- `",".join([str(i) for i in l])`. -/
def intlistToCsv (l : List ℤ) : String :=
  String.ofList ([','].intercalate (l.map fun z => (toString z).toList))

/-! ## ISD-AS numbers -/

/-- The loop over the three hexadecimal groups of an AS number. -/
def asGroups : List (List Char) → ℕ → Except Exc ℕ
  | [], asValue => .ok asValue
  | s :: ss, asValue => do
    if strip s ≠ s then throw (.valueError "AS part contains blanks")
    let v ← toInt 16 s
    if 65535 < v then throw (.valueError ("AS part too big " ++ toString v))
    -- `s` holds no minus sign, so `v` is a natural number
    asGroups ss (asValue <<< 16 ||| v.toNat)

/-- The AS part of `ia_str_to_int`: one decimal number or three hexadecimal groups. -/
def asPartToInt (asPart : List Char) : Except Exc ℕ :=
  match asPart.splitOn ':' with
  | [s] => do
    if strip s ≠ s then throw (.valueError "AS part contains blanks")
    let v ← toInt 10 s
    if 2 ^ 32 - 1 < v then
      throw (.valueError ("decimal value for AS is too big " ++ toString v))
    return v.toNat
  | [s₀, s₁, s₂] => do
    let v ← asGroups [s₀, s₁, s₂] 0
    if 2 ^ 48 - 1 < v then throw (.valueError "AS value is too large")
    return v
  | _ => throw (.valueError "expected 3 parts in AS")

/-- `ia_str_to_int`. -/
def iaStrToInt (ia : String) : Except Exc ℕ :=
  match ia.toList.splitOn '-' with
  | [isdPart, asPart] => do
    if strip isdPart ≠ isdPart then throw (.valueError "ISD part contains blanks")
    if strip asPart ≠ asPart then throw (.valueError "AS part contains blanks")
    let isd ← toInt 10 isdPart
    if 65535 < isd then throw (.valueError ("ISD out of range: " ++ toString isd))
    let asValue ← asPartToInt asPart
    return isd.toNat <<< 48 ||| asValue
  | _ => throw (.valueError "expected ISD-AS")

/-! ## Times -/

/-- The first and last second of the years 1 to 9999. -/
def datetimeMinSeconds : ℤ := -62135596800

def datetimeMaxSeconds : ℤ := 253402300799

/-- Quotient rounded to nearest, ties to even. -/
def roundHalfEven (n d : ℤ) : ℤ :=
  let q := n.fdiv d
  let r := n.fmod d
  if 2 * r < d then q
  else if d < 2 * r then q + 1
  else if q % 2 = 0 then q else q + 1

/-- `int(t.timestamp())`: the seconds as a floating-point number, rounded towards zero. -/
def timestampInt (t : ℤ) : ℤ :=
  -- a number of this size has so many binary digits after the point
  let k := 52 - Nat.log2 (t.natAbs / 1000000)
  (roundHalfEven (t * 2 ^ k) 1000000).tdiv (2 ^ k)

/-- A multiple is not rounded. -/
lemma roundHalfEven_mul (q : ℤ) {d : ℤ} (hd : 0 < d) : roundHalfEven (q * d) d = q := by
  unfold roundHalfEven
  rw [Int.mul_fdiv_cancel _ hd.ne', Int.mul_fmod_left, if_pos (by omega)]

/-- Whole seconds are not rounded. -/
lemma timestampInt_seconds (seconds : ℤ) : timestampInt (seconds * 1000000) = seconds := by
  unfold timestampInt
  dsimp only
  generalize 52 - Nat.log2 ((seconds * 1000000).natAbs / 1000000) = k
  rw [mul_right_comm, roundHalfEven_mul _ (by norm_num)]
  exact Int.mul_tdiv_cancel _ (by positivity)

/-- The year that a second since the epoch lies in. -/
def yearOf (seconds : ℤ) : ℤ :=
  -- days since the first of March of the year 0, in cycles of 400 years
  let day := seconds / 86400 + 719468
  let dayOfCycle := day % 146097
  let yearOfCycle :=
    (dayOfCycle - dayOfCycle / 1460 + dayOfCycle / 36524 - dayOfCycle / 146096) / 365
  let dayOfYear := dayOfCycle - (365 * yearOfCycle + yearOfCycle / 4 - yearOfCycle / 100)
  day / 146097 * 400 + yearOfCycle + if 306 ≤ dayOfYear then 1 else 0

/-- What is wrong with a second out of the calendar: it does not fit a `time_t`, its years since
1900 do not fit the `int` of `localtime`, or its year is none of a `datetime`. -/
def yearError (seconds : ℤ) : Exc :=
  if seconds < -2 ^ 63 ∨ 2 ^ 63 ≤ seconds then
    .overflowError "timestamp out of range for platform time_t"
  else if yearOf seconds - 1900 < -2 ^ 31 ∨ 2 ^ 31 ≤ yearOf seconds - 1900 then
    .osError 75 "Value too large for defined data type"
  else .valueError ("year " ++ toString ((yearOf seconds).bmod (2 ^ 32)) ++ " is out of range")

/-- A `datetime` has a year between 1 and 9999. -/
def checkYear (seconds : ℤ) : Except Exc Unit :=
  if seconds < datetimeMinSeconds ∨ datetimeMaxSeconds < seconds then .error (yearError seconds)
  else .ok ()

/-- `datetime.fromtimestamp` of a double, local time being UTC.  The fraction is rounded to
microseconds, and the local time one day earlier is looked up as well, in search of a clock that was
set back. -/
def fromtimestamp (x : ℚ) : Except Exc ℤ := do
  let whole := if x < 0 then ⌈x⌉ else ⌊x⌋
  let micros := whole * 1000000 + Float64.nearestInt (Float64.nearest ((x - whole) * 1000000))
  checkYear (micros / 1000000)
  checkYear (micros / 1000000 - 86400)
  return micros

/-- `time_from_pb_timestamp`: the sum `timestamp.seconds + timestamp.nanos / 1e9` is one of
doubles. -/
@[irreducible] def timeFromPbTimestamp (ts : Timestamp) : Except Exc ℤ :=
  fromtimestamp (Float64.nearest
    (Float64.nearest ts.seconds + Float64.nearest (ts.nanos / 1000000000)))

/-- Whole seconds are read as they are, but for those of the first day of the year 1. -/
lemma fromtimestamp_intCast {n t : ℤ} : fromtimestamp n = .ok t ↔
    datetimeMinSeconds + 86400 ≤ n ∧ n ≤ datetimeMaxSeconds ∧ t = n * 1000000 := by
  have hmicros : n * 1000000 +
      Float64.nearestInt (Float64.nearest (((n : ℚ) - (n : ℤ)) * 1000000)) = n * 1000000 := by
    rw [sub_self, zero_mul]
    simp [Float64.nearest, Float64.nearestInt]
  unfold fromtimestamp checkYear
  simp only [Int.ceil_intCast, Int.floor_intCast, ite_self, hmicros,
    Int.mul_ediv_cancel n (by norm_num : (1000000 : ℤ) ≠ 0)]
  by_cases hyear : n < datetimeMinSeconds ∨ datetimeMaxSeconds < n
  · rw [if_pos hyear]
    exact iff_of_false (by simp [bind, Except.bind]) (by omega)
  · rw [if_neg hyear]
    by_cases hday : n - 86400 < datetimeMinSeconds ∨ datetimeMaxSeconds < n - 86400
    · rw [if_pos hday]
      exact iff_of_false (by simp [bind, Except.bind]) (by omega)
    · rw [if_neg hday]
      simp only [bind, Except.bind, pure, Except.pure, Except.ok.injEq]
      omega

/-- A timestamp of whole seconds is read as it is, but for those of the first day of the year 1. -/
lemma timeFromPbTimestamp_seconds {n t : ℤ} : timeFromPbTimestamp ⟨n, 0⟩ = .ok t ↔
    datetimeMinSeconds + 86400 ≤ n ∧ n ≤ datetimeMaxSeconds ∧ t = n * 1000000 := by
  have hzero : Float64.nearest (((0 : ℤ) : ℚ) / 1000000000) = 0 := by
    simp [Float64.nearest, Float64.nearestInt]
  rw [timeFromPbTimestamp, hzero, add_zero]
  by_cases hsmall : |n| < 2 ^ 53
  · rw [Float64.nearest_intCast hsmall, Float64.nearest_intCast hsmall, fromtimestamp_intCast]
  · -- the sum is an integer that is far out of range
    have hlarge : (2 : ℚ) ^ 53 ≤ |(n : ℚ)| := by exact_mod_cast not_lt.mp hsmall
    obtain ⟨m, hm, hmlarge⟩ := Float64.exists_nearest_eq_large (by norm_num) hlarge
    have hmlarge : (2 : ℚ) ^ 53 ≤ |(m : ℚ)| := by exact_mod_cast hmlarge
    obtain ⟨k, hk, hklarge⟩ := Float64.exists_nearest_eq_large (by norm_num) hmlarge
    have hout : ∀ z : ℤ, 2 ^ 53 ≤ |z| → ¬(datetimeMinSeconds + 86400 ≤ z ∧
        z ≤ datetimeMaxSeconds) := by
      intro z hz
      rw [le_abs] at hz
      unfold datetimeMinSeconds datetimeMaxSeconds
      omega
    rw [hm, hk, fromtimestamp_intCast]
    exact iff_of_false (fun h => hout k hklarge ⟨h.1, h.2.1⟩)
      fun h => hout n (not_lt.mp hsmall) ⟨h.1, h.2.1⟩

/-- `pb_timestamp_from_time`. -/
def pbTimestampFromTime (t : ℤ) : Timestamp := ⟨timestampInt t, 0⟩

/-! ## Addresses with ports -/

/-- Split a line at its last colon. -/
def splitLastColon (line : List Char) : Option (List Char × List Char) :=
  match (line.splitOn ':').getLast?, (line.splitOn ':').dropLast with
  | _, [] => none
  | none, _ => none
  | some last, init => some ([':'].intercalate init, last)

/-- The groups of `re.search("(.*):(.*)", s)`.  The dot matches no newline, so the match lies in
the first line that has a colon, and the first group is greedy. -/
def searchColon (s : List Char) : Option (List Char × List Char) :=
  (s.splitOn '\n').findSome? splitLastColon

/-- `c in "[]"`. -/
def isBracket (c : Char) : Bool := c == '[' || c == ']'

/-- `_ip_and_string_from_str`. -/
def ipAndStringFromStr (s : String) : Except Exc (IPAddress × List Char) :=
  match searchColon s.toList with
  | none => .error (.valueError ("invalid address " ++ s))
  | some (ipText, rest) =>
    match parseIPv4 ipText with
    | some a => .ok (.v4 a, rest)
    | none =>
      let addr := stripBy isBracket ipText
      if addr = ipText then .error (.valueError ("invalid address " ++ s))
      else
        match parseIPv6 addr with
        | some a => .ok (.v6 a, rest)
        | none => .error (.addressValueError (String.ofList addr))

/-- `ip_port_from_str`. -/
def ipPortFromStr (s : String) : Except Exc (IPAddress × ℤ) := do
  let (ip, port) ← ipAndStringFromStr s
  let port ← toInt 10 port
  if port < 0 ∨ 65534 < port then throw (.valueError ("invalid address " ++ s))
  return (ip, port)

/-- `ip_port_range_from_str`: the address, the lower and the higher port. -/
def ipPortRangeFromStr (s : String) : Except Exc (IPAddress × ℤ × ℤ) := do
  let (ip, portRange) ← ipAndStringFromStr s
  match portRange.splitOn '-' with
  | [p₀, p₁] =>
    let q₀ ← toInt 10 p₀
    let q₁ ← toInt 10 p₁
    if 65534 < max q₀ q₁ then
      throw (.valueError ("invalid port range in " ++ s ++ " (max out of range)"))
    return (ip, min q₀ q₁, max q₀ q₁)
  | _ => throw (.valueError ("invalid port range in " ++ s))

/-- `str(ip)`, in brackets for version 6. -/
def bracketed : IPAddress → List Char
  | .v4 a => a.text
  | .v6 a => '[' :: a.text ++ [']']

/-- `ip_port_to_str`. -/
def ipPortToStr (ip : IPAddress) (port : ℤ) : String :=
  String.ofList (bracketed ip ++ ':' :: (toString port).toList)

/-! ## Printing and reading back -/

/-- A comma is not part of a printed integer. -/
lemma comma_notMem_toString (z : ℤ) : ',' ∉ (toString z).toList := by
  intro h
  rcases isDigit_or_eq_minus_of_mem_toString h with h | h
  · exact absurd h (by decide)
  · exact absurd h (by decide)

/-- A list of printed integers is read back as the list. -/
lemma toIntList_map_toString (l : List ℤ) :
    toIntList (l.map fun z => (toString z).toList) = .ok l := by
  induction l with
  | nil => rfl
  | cons z l ih =>
    rw [List.map_cons, toIntList, toInt_eq_ok.mpr (pyInt_toString z), ih]
    rfl

/-- A list that was read has a value for every part of the text. -/
lemma length_of_toIntList {ss : List (List Char)} {l : List ℤ} (h : toIntList ss = .ok l) :
    l.length = ss.length := by
  induction ss generalizing l with
  | nil =>
    rw [toIntList, Except.ok.injEq] at h
    rw [← h]
    rfl
  | cons s ss ih =>
    rw [toIntList] at h
    rcases hz : toInt 10 s with e | z
    · simp [hz, bind, Except.bind] at h
    rcases hzs : toIntList ss with e | zs
    · simp [hz, hzs, bind, Except.bind] at h
    simp only [hz, hzs, bind, Except.bind, pure, Except.pure, Except.ok.injEq] at h
    rw [← h, List.length_cons, List.length_cons, ih hzs]

/-- Without minus signs all values of a list are natural numbers. -/
lemma nonneg_of_toIntList {ss : List (List Char)} (hss : ∀ s ∈ ss, '-' ∉ s) {l : List ℤ}
    (h : toIntList ss = .ok l) : ∀ z ∈ l, 0 ≤ z := by
  induction ss generalizing l with
  | nil =>
    rw [toIntList, Except.ok.injEq] at h
    simp [← h]
  | cons s ss ih =>
    rw [toIntList] at h
    rcases hz : toInt 10 s with e | z
    · simp [hz, bind, Except.bind] at h
    rcases hzs : toIntList ss with e | zs
    · simp [hz, hzs, bind, Except.bind] at h
    simp only [hz, hzs, bind, Except.bind, pure, Except.pure, Except.ok.injEq] at h
    rw [← h]
    intro w hw
    rcases List.mem_cons.mp hw with rfl | hw
    · exact pyInt_nonneg (hss s (by simp)) (toInt_eq_ok.mp hz)
    · exact ih (fun t ht => hss t (by simp [ht])) hzs w hw

/-- A text always has at least one part. -/
lemma csvToIntlist_ne_nil {csv : String} {l : List ℤ} (h : csvToIntlist csv = .ok l) : l ≠ [] := by
  intro hnil
  have hlen := length_of_toIntList h
  rw [hnil, List.length_nil] at hlen
  exact List.splitOn_ne_nil ',' csv.toList (List.length_eq_zero_iff.mp hlen.symm)

/-- **Round trip.**  A nonempty printed list is read back as itself. -/
theorem csvToIntlist_intlistToCsv {l : List ℤ} (h : l ≠ []) :
    csvToIntlist (intlistToCsv l) = .ok l := by
  have hsplit : ([','].intercalate (l.map fun z => (toString z).toList)).splitOn ',' =
      l.map fun z => (toString z).toList :=
    List.splitOn_intercalate _
      (by simpa using fun z _ => comma_notMem_toString z) (by simpa using h)
  rw [csvToIntlist, intlistToCsv, String.toList_ofList, hsplit, toIntList_map_toString]

/-- An address whose zone, if any, survives being printed between brackets on one line. -/
def Reparsable : IPAddress → Prop
  | .v4 _ => True
  | .v6 a => ∀ z ∈ a.zone, '\n' ∉ z ∧ ∀ c ∈ z.getLast?, isBracket c = false

/-- Splitting at the last colon. -/
lemma splitLastColon_append {a b : List Char} (h : ':' ∉ b) :
    splitLastColon (a ++ ':' :: b) = some (a, b) := by
  have hsplit : (a ++ ':' :: b).splitOn ':' = a.splitOn ':' ++ [b] := by
    rw [List.splitOn_append_cons_self, List.splitOn_eq_singleton h]
  unfold splitLastColon
  rw [hsplit, List.getLast?_concat, List.dropLast_concat]
  obtain ⟨p, ps, hps⟩ := List.exists_cons_of_ne_nil (List.splitOn_ne_nil ':' a)
  rw [hps]
  dsimp only
  rw [← hps, List.intercalate_splitOn]

/-- A text of one line is split at its last colon. -/
lemma searchColon_append {a b : List Char} (ha : '\n' ∉ a) (hb : '\n' ∉ b) (h : ':' ∉ b) :
    searchColon (a ++ ':' :: b) = some (a, b) := by
  have hline : '\n' ∉ a ++ ':' :: b := by simp [ha, hb]
  rw [searchColon, List.splitOn_eq_singleton hline]
  simp [splitLastColon_append h]

/-- The zone of a parsed address is the end of its text. -/
lemma zone_of_parseIPv6 {s : List Char} {a : IPv6Address} (h : parseIPv6 s = some a)
    {z : List Char} (hz : z ∈ a.zone) : ∃ pre, s = pre ++ '%' :: z := by
  obtain ⟨u, -, -, hzone⟩ := exists_of_parseIPv6 h
  rcases hzone with ⟨-, hnone⟩ | ⟨z', rfl, hz'⟩
  · rw [hnone] at hz
    simp at hz
  · obtain rfl : z' = z := by simpa [hz'] using hz
    exact ⟨u, rfl⟩

/-- The text of an address is on one line. -/
lemma newline_notMem_bracketed {ip : IPAddress} (h : Reparsable ip) : '\n' ∉ bracketed ip := by
  cases ip with
  | v4 a =>
    intro hc
    rcases digit_or_dot_of_parseIPv4 (parseIPv4_text a) hc with hc | hc
    · exact absurd hc (by decide)
    · exact absurd hc (by decide)
  | v6 a =>
    simp only [bracketed, List.cons_append, List.mem_cons, List.mem_append, List.not_mem_nil,
      or_false, not_or]
    refine ⟨by decide, fun hc => ?_, by decide⟩
    unfold IPv6Address.text at hc
    rcases List.mem_append.mp hc with hc | hc
    · rcases mem_intercalate_compressHextets hc with hc | hc
      · exact absurd hc (by decide)
      · exact (isHexDigit_ne hc).2.2.2.2.2.2.2 rfl
    · rcases hz : a.zone with _ | z
      · simp [hz] at hc
      · simp [hz, (h z hz).1] at hc

/-- The first character of an IPv6 text is no bracket. -/
lemma head_text_not_bracket (a : IPv6Address) : ∀ c ∈ a.text.head?, isBracket c = false := by
  intro c hc
  have hne : [':'].intercalate (compressHextets a.hextets) ≠ [] := by
    intro hnil
    have := parseIPv6_text a
    simp only [IPv6Address.text, hnil, List.nil_append] at this
    rcases hz : a.zone with _ | z
    · simp [hz, parseIPv6, splitZone, expandDotted, parseGroups] at this
    · obtain ⟨hz0, hper, hsl⟩ := a.zone_ok z hz
      have hsplit : ('%' :: z).splitOn '%' = [[], z] := by
        rw [← List.nil_append ('%' :: z), List.splitOn_append_cons_self_of_not_mem (by simp),
          List.splitOn_eq_singleton hper]
      simp [hz, parseIPv6, splitZone, hsplit, hz0, hsl, expandDotted, parseGroups] at this
  unfold IPv6Address.text at hc
  rw [List.head?_append_of_ne_nil _ hne] at hc
  rcases mem_intercalate_compressHextets (List.mem_of_mem_head? hc) with rfl | hc
  · rfl
  · obtain ⟨-, -, -, -, -, hl, hr, -⟩ := isHexDigit_ne hc
    simp [isBracket, hl, hr]

/-- The last character of an IPv6 text is no bracket. -/
lemma getLast_text_not_bracket {a : IPv6Address} (h : Reparsable (.v6 a)) :
    ∀ c ∈ a.text.getLast?, isBracket c = false := by
  intro c hc
  unfold IPv6Address.text at hc
  rcases hz : a.zone with _ | z
  · rw [hz] at hc
    dsimp only at hc
    rw [List.append_nil] at hc
    rcases mem_intercalate_compressHextets (List.mem_of_mem_getLast? hc) with rfl | hc
    · rfl
    · obtain ⟨-, -, -, -, -, hl, hr, -⟩ := isHexDigit_ne hc
      simp [isBracket, hl, hr]
  · rw [hz] at hc
    dsimp only at hc
    rw [List.getLast?_append_of_ne_nil _ (List.cons_ne_nil _ _),
      List.getLast?_cons_of_ne_nil (a.zone_ok z hz).1] at hc
    exact (h z hz).2 c hc

/-- A printed address is read back from the front of a text. -/
lemma ipAndStringFromStr_bracketed {ip : IPAddress} (h : Reparsable ip) {rest : List Char}
    (hn : '\n' ∉ rest) (hc : ':' ∉ rest) :
    ipAndStringFromStr (String.ofList (bracketed ip ++ ':' :: rest)) = .ok (ip, rest) := by
  unfold ipAndStringFromStr
  rw [String.toList_ofList, searchColon_append (newline_notMem_bracketed h) hn hc]
  cases ip with
  | v4 a => simp [bracketed, parseIPv4_text]
  | v6 a =>
    have hv4 : parseIPv4 (bracketed (.v6 a)) = none := by
      by_contra hne
      obtain ⟨b, hb⟩ := Option.ne_none_iff_exists'.mp hne
      rcases digit_or_dot_of_parseIPv4 hb (c := '[') (by simp [bracketed]) with hd | hd
      · exact absurd hd (by decide)
      · exact absurd hd (by decide)
    have hne : a.text ≠ [] := by
      intro hnil
      have := parseIPv6_text a
      rw [hnil, show parseIPv6 [] = none by decide] at this
      simp at this
    have hstrip : stripBy isBracket (bracketed (.v6 a)) = a.text := by
      rw [bracketed, ← List.singleton_append]
      exact stripBy_wrap (by simp [isBracket]) (by simp [isBracket]) hne
        (head_text_not_bracket a) (getLast_text_not_bracket h)
    have hlen : a.text ≠ bracketed (.v6 a) := by
      intro heq
      have := congrArg List.length heq
      simp only [bracketed, List.cons_append, List.length_cons, List.length_append,
        List.length_nil] at this
      omega
    simp [hv4, hstrip, hlen, parseIPv6_text]

/-- An address with a port shows the port. -/
lemma ipPortToStr_inj {ip : IPAddress} {port port' : ℤ} :
    ipPortToStr ip port = ipPortToStr ip port' ↔ port = port' := by
  refine ⟨fun h => ?_, fun h => by rw [h]⟩
  rw [ipPortToStr, ipPortToStr, String.ofList_inj, List.append_right_inj, List.cons.injEq,
    String.toList_inj, toString_inj] at h
  exact h.2

/-- Neither a colon nor a newline is part of a printed port. -/
lemma notMem_toString_port (port : ℤ) :
    ':' ∉ (toString port).toList ∧ '\n' ∉ (toString port).toList :=
  ⟨fun h => absurd (isDigit_or_eq_minus_of_mem_toString h) (by decide),
    fun h => absurd (isDigit_or_eq_minus_of_mem_toString h) (by decide)⟩

/-- A printed address with a port is read back as itself when the port is in range, and refused
when it is not. -/
lemma ipPortFromStr_ipPortToStr_eq_ok {ip : IPAddress} {port : ℤ} (h : Reparsable ip)
    {v : IPAddress × ℤ} :
    ipPortFromStr (ipPortToStr ip port) = .ok v ↔
      (0 ≤ port ∧ port ≤ 65534) ∧ v = (ip, port) := by
  obtain ⟨hcolon, hnewline⟩ := notMem_toString_port port
  rw [ipPortFromStr, ipPortToStr, ipAndStringFromStr_bracketed h hnewline hcolon]
  simp only [bind, Except.bind, toInt_eq_ok.mpr (pyInt_toString port)]
  split
  · rename_i hrange
    exact iff_of_false (by simp [throw, throwThe, MonadExceptOf.throw]) (by omega)
  · rename_i hrange
    change (Except.ok (ip, port) = Except.ok v) ↔ _
    rw [and_iff_right (by omega), Except.ok.injEq]
    exact eq_comm

/-- **Round trip.**  A printed address with a port is read back as itself. -/
theorem ipPortFromStr_ipPortToStr {ip : IPAddress} {port : ℤ} (h : Reparsable ip)
    (h0 : 0 ≤ port) (hmax : port ≤ 65534) :
    ipPortFromStr (ipPortToStr ip port) = .ok (ip, port) :=
  (ipPortFromStr_ipPortToStr_eq_ok h).mpr ⟨⟨h0, hmax⟩, rfl⟩

example : iaStrToInt "1-ff00:0:110" = .ok (2 ^ 48 + 0xff00_0000_0110) := by decide +kernel

example : (ipPortRangeFromStr "[fd00:f00d:cafe::7f00:9]:50-42").map (·.2) = .ok (42, 50) := by
  decide +kernel

end Esdx
