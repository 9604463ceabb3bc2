/-!
# Little-endian numbers

A number of a given width is stored low byte first, and read from its first bytes.
-/
namespace Trajectory.LittleEndian

/-- The `width` low bytes of a number, low byte first. -/
def encode : Nat → Nat → List UInt8
  | 0, _ => []
  | width + 1, value => UInt8.ofNat value :: encode width (value / 256)

/-- The number whose base-256 digits are the bytes, low digit first. -/
def decode : List UInt8 → Nat
  | [] => 0
  | digit :: rest => digit.toNat + 256 * decode rest

/-- The number in the first `width` bytes, if there are that many. -/
def read? (width : Nat) (bytes : List UInt8) : Option Nat :=
  let digits := bytes.take width
  if digits.length = width then some (decode digits) else none

/-- An encoding has one byte for each place. -/
theorem length_encode (width value : Nat) : (encode width value).length = width := by
  induction width generalizing value with
  | zero => rfl
  | succ width ih => simp [encode, ih]

end Trajectory.LittleEndian
