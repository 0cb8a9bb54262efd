import Mathlib.Tactic
import Mathlib.Data.UInt

/-!
# Byte order

Loads of two and four bytes from a sequence of bytes, in little-endian and in big-endian order, and
the byte swaps that turn one into the other.
-/

namespace ByteOrder

/-- The byte at a position, zero beyond the end. -/
def byteAt (p : List UInt8) (i : ℕ) : UInt8 := p.getD i 0

/-- Two bytes, the low one first. -/
def le16 (p : List UInt8) (i : ℕ) : UInt16 :=
  (byteAt p i).toUInt16 + (byteAt p (i + 1)).toUInt16 * 256

/-- Two bytes, the high one first. -/
def be16 (p : List UInt8) (i : ℕ) : UInt16 :=
  (byteAt p i).toUInt16 * 256 + (byteAt p (i + 1)).toUInt16

/-- Four bytes, the low ones first. -/
def le32 (p : List UInt8) (i : ℕ) : UInt32 :=
  (le16 p i).toUInt32 + (le16 p (i + 2)).toUInt32 * 65536

/-- Four bytes, the high ones first. -/
def be32 (p : List UInt8) (i : ℕ) : UInt32 :=
  (be16 p i).toUInt32 * 65536 + (be16 p (i + 2)).toUInt32

/-- Swap the two bytes of a word. -/
def bswap16 (x : UInt16) : UInt16 := x % 256 * 256 + x / 256

/-- Reverse the four bytes of a word. -/
def bswap32 (x : UInt32) : UInt32 :=
  (bswap16 x.toUInt16).toUInt32 * 65536 + (bswap16 (x / 65536).toUInt16).toUInt32

/-- The four bytes of a word in memory, the low ones first. -/
def bytes32 (x : UInt32) : List UInt8 :=
  [x.toUInt8, (x / 256).toUInt8, (x / 65536).toUInt8, (x / 16777216).toUInt8]

/-! ## Values -/

lemma toNat_byteAt_lt (p : List UInt8) (i : ℕ) : (byteAt p i).toNat < 256 :=
  (byteAt p i).toNat_lt

lemma toNat_le16 (p : List UInt8) (i : ℕ) :
    (le16 p i).toNat = (byteAt p i).toNat + (byteAt p (i + 1)).toNat * 256 := by
  have hlo := toNat_byteAt_lt p i
  have hhi := toNat_byteAt_lt p (i + 1)
  simp only [le16, UInt16.toNat_add, UInt16.toNat_mul, UInt8.toNat_toUInt16, UInt16.reduceToNat]
  omega

lemma toNat_be16 (p : List UInt8) (i : ℕ) :
    (be16 p i).toNat = (byteAt p i).toNat * 256 + (byteAt p (i + 1)).toNat := by
  have hhi := toNat_byteAt_lt p i
  have hlo := toNat_byteAt_lt p (i + 1)
  simp only [be16, UInt16.toNat_add, UInt16.toNat_mul, UInt8.toNat_toUInt16, UInt16.reduceToNat]
  omega

lemma toNat_le32 (p : List UInt8) (i : ℕ) :
    (le32 p i).toNat = (le16 p i).toNat + (le16 p (i + 2)).toNat * 65536 := by
  have hlo := (le16 p i).toNat_lt
  have hhi := (le16 p (i + 2)).toNat_lt
  simp only [le32, UInt32.toNat_add, UInt32.toNat_mul, UInt16.toNat_toUInt32, UInt32.reduceToNat]
  omega

lemma toNat_be32 (p : List UInt8) (i : ℕ) :
    (be32 p i).toNat = (be16 p i).toNat * 65536 + (be16 p (i + 2)).toNat := by
  have hhi := (be16 p i).toNat_lt
  have hlo := (be16 p (i + 2)).toNat_lt
  simp only [be32, UInt32.toNat_add, UInt32.toNat_mul, UInt16.toNat_toUInt32, UInt32.reduceToNat]
  omega

lemma toNat_bswap16 (x : UInt16) : (bswap16 x).toNat = x.toNat % 256 * 256 + x.toNat / 256 := by
  have hx := x.toNat_lt
  simp only [bswap16, UInt16.toNat_add, UInt16.toNat_mul, UInt16.toNat_mod, UInt16.toNat_div,
    UInt16.reduceToNat]
  omega

/-- Two bytes with the high and the low half of a word are the word. -/
lemma be16_eq {p : List UInt8} {i : ℕ} {x : UInt16} (hhi : byteAt p i = (x / 256).toUInt8)
    (hlo : byteAt p (i + 1) = x.toUInt8) : be16 p i = x := by
  have hx := x.toNat_lt
  rw [← UInt16.toNat_inj, toNat_be16, hhi, hlo, UInt16.toNat_toUInt8, UInt16.toNat_toUInt8,
    UInt16.toNat_div]
  simp only [UInt16.reduceToNat]
  omega

/-! ## Swapping -/

/-- Swapping twice does nothing. -/
@[simp] lemma bswap16_bswap16 (x : UInt16) : bswap16 (bswap16 x) = x := by
  have hx := x.toNat_lt
  rw [← UInt16.toNat_inj, toNat_bswap16, toNat_bswap16]
  omega

/-- A swapped little-endian load is a big-endian load. -/
@[simp] lemma bswap16_le16 (p : List UInt8) (i : ℕ) : bswap16 (le16 p i) = be16 p i := by
  have hlo := toNat_byteAt_lt p i
  rw [← UInt16.toNat_inj, toNat_bswap16, toNat_le16, toNat_be16]
  omega

/-- A swapped big-endian load is a little-endian load. -/
@[simp] lemma bswap16_be16 (p : List UInt8) (i : ℕ) : bswap16 (be16 p i) = le16 p i := by
  rw [← bswap16_le16, bswap16_bswap16]

/-- A reversed little-endian load is a big-endian load. -/
@[simp] lemma bswap32_le32 (p : List UInt8) (i : ℕ) : bswap32 (le32 p i) = be32 p i := by
  have hlow : (le32 p i).toUInt16 = le16 p i := by
    rw [← UInt16.toNat_inj, UInt32.toNat_toUInt16, toNat_le32]
    have := (le16 p i).toNat_lt
    omega
  have hhigh : (le32 p i / 65536).toUInt16 = le16 p (i + 2) := by
    rw [← UInt16.toNat_inj, UInt32.toNat_toUInt16, UInt32.toNat_div, toNat_le32]
    have := (le16 p i).toNat_lt
    have := (le16 p (i + 2)).toNat_lt
    simp only [UInt32.reduceToNat]
    omega
  rw [bswap32, hlow, hhigh, bswap16_le16, bswap16_le16, be32]

end ByteOrder
