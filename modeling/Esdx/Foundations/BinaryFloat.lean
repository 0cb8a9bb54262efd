import Mathlib.Data.Int.Log
import Mathlib.Data.Rat.Floor
import Mathlib.Tactic

/-!
# Double precision numbers and their `e` rendering

A double is its bit pattern, as it travels in a message.  `formatE` is Python's `"{:e}".format`:
one digit, six decimals rounded half to even, and an exponent of at least two digits.
-/

/-- A double precision number, as its bit pattern. -/
structure Float64 where
  bits : BitVec 64
deriving DecidableEq

namespace Float64

/-- The sign bit. -/
def isNegative (x : Float64) : Bool := x.bits.msb

/-- The biased exponent. -/
def exponentField (x : Float64) : ℕ := x.bits.toNat / 2 ^ 52 % 2 ^ 11

/-- The fraction bits. -/
def fraction (x : Float64) : ℕ := x.bits.toNat % 2 ^ 52

/-- Neither infinite nor not-a-number. -/
def isFinite (x : Float64) : Bool := x.exponentField ≠ 2047

/-- The magnitude of a finite double as numerator and denominator. -/
def magnitude (x : Float64) : ℕ × ℕ :=
  if x.exponentField = 0 then (x.fraction, 2 ^ 1074)
  else if x.exponentField < 1075 then (2 ^ 52 + x.fraction, 2 ^ (1075 - x.exponentField))
  else ((2 ^ 52 + x.fraction) * 2 ^ (x.exponentField - 1075), 1)

/-- Integer quotient rounded to nearest, ties to even. -/
def roundHalfEven (n d : ℕ) : ℕ :=
  if 2 * (n % d) < d then n / d
  else if d < 2 * (n % d) then n / d + 1
  else n / d + n / d % 2

/-- The least `k ≥ start` with `den ≤ num * 10 ^ k`, searched in `fuel` steps; the smallest
double is above `10 ^ (-324)`. -/
def leadingZeros (num den : ℕ) : ℕ → ℕ → ℕ
  | 0, k => k
  | fuel + 1, k => if den ≤ num * 10 ^ k then k else leadingZeros num den fuel (k + 1)

/-- Seven significant digits and the decimal exponent of a positive ratio. -/
def significand (num den : ℕ) : ℕ × ℤ :=
  let (m, e) :=
    if den ≤ num then
      let k := (Nat.toDigits 10 (num / den)).length - 1
      (roundHalfEven (num * 10 ^ 6) (den * 10 ^ k), (k : ℤ))
    else
      let k := leadingZeros num den 330 0
      (roundHalfEven (num * 10 ^ (6 + k)) den, -(k : ℤ))
  -- rounding up may carry into an eighth digit
  if m = 10 ^ 7 then (10 ^ 6, e + 1) else (m, e)

/-- The digits of `n`, padded with zeros on the left. -/
def padLeft (width n : ℕ) : List Char :=
  List.replicate (width - (Nat.toDigits 10 n).length) '0' ++ Nat.toDigits 10 n

/-- The rendering of a finite magnitude. -/
def formatMagnitude (num den : ℕ) : List Char :=
  let (m, e) := if num = 0 then (0, 0) else significand num den
  Nat.toDigits 10 (m / 10 ^ 6) ++ '.' :: padLeft 6 (m % 10 ^ 6) ++ 'e' ::
    (if e < 0 then '-' else '+') :: padLeft 2 e.natAbs

/-- `"{:e}".format(x)`. -/
def formatE (x : Float64) : List Char :=
  let sign := if x.isNegative then ['-'] else []
  if x.isFinite then sign ++ formatMagnitude x.magnitude.1 x.magnitude.2
  else if x.fraction = 0 then sign ++ ['i', 'n', 'f']
  else ['n', 'a', 'n']

/-- One hundred, and a price of a thousand-millionth. -/
example : formatE ⟨0x4059000000000000⟩ = "1.000000e+02".toList := by decide +kernel

example : formatE ⟨0x3E112E0BE826D695⟩ = "1.000000e-09".toList := by decide +kernel

/-! ## Rounding to a double -/

/-- The integer nearest to a number, ties to even. -/
def nearestInt (x : ℚ) : ℤ :=
  if 2 * Int.fract x < 1 then ⌊x⌋
  else if 1 < 2 * Int.fract x then ⌊x⌋ + 1
  else if 2 ∣ ⌊x⌋ then ⌊x⌋ else ⌊x⌋ + 1

/-- The double nearest to a number, ties to even, in the range of the normal doubles: a multiple of
the unit in the last place of the binade that the number lies in. -/
def nearest (x : ℚ) : ℚ :=
  let e := Int.log 2 |x| - 52
  nearestInt (x * 2 ^ (-e)) * 2 ^ e

lemma floor_le_nearestInt (x : ℚ) : ⌊x⌋ ≤ nearestInt x := by
  unfold nearestInt
  split_ifs <;> omega

/-- Rounding does not pass an integer from above. -/
lemma le_nearestInt {m : ℤ} {x : ℚ} (h : (m : ℚ) ≤ x) : m ≤ nearestInt x :=
  (Int.le_floor.mpr h).trans (floor_le_nearestInt x)

/-- Rounding does not pass an integer from below. -/
lemma nearestInt_le {m : ℤ} {x : ℚ} (h : x ≤ m) : nearestInt x ≤ m := by
  rcases h.eq_or_lt with rfl | hlt
  · rw [nearestInt, Int.fract_intCast, mul_zero, if_pos one_pos, Int.floor_intCast]
  · have hfloor : ⌊x⌋ < m := Int.floor_lt.mpr hlt
    unfold nearestInt
    split_ifs <;> omega

/-- An integer is not rounded. -/
@[simp] lemma nearestInt_intCast (m : ℤ) : nearestInt m = m :=
  le_antisymm (nearestInt_le le_rfl) (le_nearestInt le_rfl)

/-- Rounding is symmetric. -/
lemma nearestInt_neg (x : ℚ) : nearestInt (-x) = -nearestInt x := by
  rcases eq_or_ne (Int.fract x) 0 with hx | hx
  · have hinteger : x = (⌊x⌋ : ℤ) := by
      rw [← Int.floor_add_fract x, hx, add_zero, Int.floor_intCast]
    rw [hinteger, ← Int.cast_neg, nearestInt_intCast, nearestInt_intCast]
  · have hfract : Int.fract (-x) = 1 - Int.fract x := Int.fract_neg hx
    have hfloor : ⌊-x⌋ = -⌊x⌋ - 1 := by
      have hsum : ((⌊-x⌋ : ℤ) : ℚ) = ((-⌊x⌋ - 1 : ℤ) : ℚ) := by
        push_cast
        linarith [Int.floor_add_fract x, Int.floor_add_fract (-x)]
      exact_mod_cast hsum
    unfold nearestInt
    rw [hfract, hfloor]
    split_ifs <;> first | omega | linarith

lemma nearest_neg (x : ℚ) : nearest (-x) = -nearest x := by
  unfold nearest
  dsimp only
  rw [abs_neg, neg_mul, nearestInt_neg, Int.cast_neg, neg_mul]

/-- An integer of at most 53 binary digits is a double. -/
lemma nearest_intCast {n : ℤ} (h : |n| < 2 ^ 53) : nearest n = n := by
  rcases eq_or_ne n 0 with rfl | hn
  · simp [nearest, nearestInt]
  have hpos : (0 : ℚ) < |(n : ℚ)| := abs_pos.mpr (Int.cast_ne_zero.mpr hn)
  have hlog : Int.log 2 |(n : ℚ)| < 53 := by
    refine (Int.lt_zpow_iff_log_lt Nat.one_lt_two hpos).mp ?_
    exact_mod_cast h
  obtain ⟨k, hk⟩ := Int.eq_ofNat_of_zero_le (by omega : 0 ≤ -(Int.log 2 |(n : ℚ)| - 52))
  have hscaled : (n : ℚ) * 2 ^ (-(Int.log 2 |(n : ℚ)| - 52)) = ((n * 2 ^ k : ℤ) : ℚ) := by
    rw [hk]
    push_cast
    rw [zpow_natCast]
  unfold nearest
  dsimp only
  rw [hscaled, nearestInt_intCast, ← hscaled, mul_assoc, ← zpow_add₀ two_ne_zero, neg_add_cancel,
    zpow_zero, mul_one]

/-- A number of 53 binary digits or more before the point is rounded to an integer. -/
lemma exists_nearest_eq_intCast {x : ℚ} (h : 2 ^ 52 ≤ |x|) : ∃ m : ℤ, nearest x = m := by
  have hlog : 52 ≤ Int.log 2 |x| :=
    (Int.zpow_le_iff_le_log Nat.one_lt_two ((by norm_num : (0 : ℚ) < 2 ^ 52).trans_le h)).mp
      (by exact_mod_cast h)
  obtain ⟨k, hk⟩ := Int.eq_ofNat_of_zero_le (by omega : 0 ≤ Int.log 2 |x| - 52)
  refine ⟨nearestInt (x * 2 ^ (-(Int.log 2 |x| - 52))) * 2 ^ k, ?_⟩
  rw [nearest, Int.cast_mul, Int.cast_pow, Int.cast_ofNat, hk, zpow_natCast]

/-- A number of at least a power of two is rounded to at least this power. -/
lemma zpow_le_nearest {k : ℤ} {x : ℚ} (h : 2 ^ k ≤ x) : 2 ^ k ≤ nearest x := by
  have hx : 0 < x := (zpow_pos two_pos k).trans_le h
  rw [nearest, abs_of_pos hx]
  have hk : k ≤ Int.log 2 x := (Int.zpow_le_iff_le_log Nat.one_lt_two hx).mp (by exact_mod_cast h)
  have hlog : (2 : ℚ) ^ Int.log 2 x ≤ x := by
    exact_mod_cast Int.zpow_log_le_self Nat.one_lt_two hx
  generalize Int.log 2 x = l at hk hlog
  have hscaled : ((2 ^ 52 : ℤ) : ℚ) ≤ x * 2 ^ (-(l - 52)) := by
    calc ((2 ^ 52 : ℤ) : ℚ) = 2 ^ l * 2 ^ (-(l - 52)) := by
          rw [← zpow_add₀ two_ne_zero]
          norm_num
      _ ≤ x * 2 ^ (-(l - 52)) := mul_le_mul_of_nonneg_right hlog (zpow_nonneg two_pos.le _)
  have hround : ((2 ^ 52 : ℤ) : ℚ) ≤ nearestInt (x * 2 ^ (-(l - 52))) := by
    exact_mod_cast le_nearestInt hscaled
  calc (2 : ℚ) ^ k ≤ 2 ^ l := zpow_le_zpow_right₀ one_le_two hk
    _ = ((2 ^ 52 : ℤ) : ℚ) * 2 ^ (l - 52) := by
        rw [Int.cast_pow, Int.cast_ofNat, ← zpow_natCast, ← zpow_add₀ two_ne_zero]
        norm_num
    _ ≤ nearestInt (x * 2 ^ (-(l - 52))) * 2 ^ (l - 52) :=
        mul_le_mul_of_nonneg_right hround (zpow_nonneg two_pos.le _)

/-- A number of at least a power of two is rounded to at least this power, whatever its sign. -/
lemma zpow_le_abs_nearest {k : ℤ} {x : ℚ} (h : 2 ^ k ≤ |x|) : 2 ^ k ≤ |nearest x| := by
  rcases le_total 0 x with hx | hx
  · rw [abs_of_nonneg hx] at h
    exact (zpow_le_nearest h).trans (le_abs_self _)
  · rw [abs_of_nonpos hx] at h
    have hneg := zpow_le_nearest h
    rw [nearest_neg] at hneg
    exact hneg.trans (neg_le_abs _)

/-- A large number is rounded to a large integer. -/
lemma exists_nearest_eq_large {k : ℕ} (hk : 52 ≤ k) {x : ℚ} (h : 2 ^ k ≤ |x|) :
    ∃ m : ℤ, nearest x = m ∧ 2 ^ k ≤ |m| := by
  obtain ⟨m, hm⟩ := exists_nearest_eq_intCast ((pow_le_pow_right₀ one_le_two hk).trans h)
  have habs : (2 : ℚ) ^ (k : ℤ) ≤ |nearest x| := zpow_le_abs_nearest (by rwa [zpow_natCast])
  rw [hm, zpow_natCast] at habs
  exact ⟨m, hm, by exact_mod_cast habs⟩

end Float64
