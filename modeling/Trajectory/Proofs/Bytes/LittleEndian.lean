import Mathlib.Algebra.GroupWithZero.Nat
import Trajectory.Bytes.LittleEndian
/-!
# Little-endian numbers and their bytes

Reading the bytes of a number gives the number modulo the range of the width, and every run of
bytes is the encoding of the number read from it, so the two forms of one width determine each
other.
-/
namespace Trajectory.LittleEndian

/-- Each place of an encoding holds the digit of that place in base 256. -/
theorem getElem?_encode {width place : Nat} (inside : place < width) (value : Nat) :
    (encode width value)[place]? = some (UInt8.ofNat (value / 256 ^ place)) := by
  induction width generalizing place value with
  | zero => contradiction
  | succ width ih =>
    cases place with
    | zero => rw [encode, List.getElem?_cons_zero, Nat.pow_zero, Nat.div_one]
    | succ place =>
      rw [encode, List.getElem?_cons_succ, ih (Nat.lt_of_succ_lt_succ inside),
        Nat.div_div_eq_div_mul, Nat.pow_succ']

/-- Reading an encoding gives the number within the range of the width. -/
theorem decode_encode (width value : Nat) : decode (encode width value) = value % 256 ^ width := by
  induction width generalizing value with
  | zero => simp [encode, decode, Nat.mod_one]
  | succ width ih =>
    have split : value % 256 ^ (width + 1) = value % 256 + 256 * (value / 256 % 256 ^ width) := by
      rw [Nat.pow_succ', Nat.mod_mul]
    simp only [encode, decode, ih, split, UInt8.toNat_ofNat']

/-- Every run of bytes is the encoding of the number it holds. -/
theorem encode_decode (bytes : List UInt8) : encode bytes.length (decode bytes) = bytes := by
  induction bytes with
  | nil => rfl
  | cons digit rest ih =>
    have low : UInt8.ofNat (digit.toNat + 256 * decode rest) = digit := by
      apply UInt8.toNat_inj.mp
      have bound := digit.toNat_lt
      simp only [UInt8.toNat_ofNat']
      omega
    have high : (digit.toNat + 256 * decode rest) / 256 = decode rest := by
      have bound := digit.toNat_lt
      omega
    simp only [List.length_cons, encode, decode, low, high, ih]

/-- The number in a run of bytes is within the range of its width. -/
theorem decode_lt (bytes : List UInt8) : decode bytes < 256 ^ bytes.length := by
  induction bytes with
  | nil => simp [decode]
  | cons digit rest ih =>
    have bound := digit.toNat_lt
    simp only [decode, List.length_cons, Nat.pow_succ]
    omega

end Trajectory.LittleEndian
