import Trajectory.Bytes.Basic
import Trajectory.Proofs.Bytes.LittleEndian
import Trajectory.Zip.Probe
/-!
# Numbers and runs of bytes at their places

What is laid out at a place of a file is read back there: a number that its width can hold, and a
run of bytes of a known length.
-/
namespace Trajectory

namespace LittleEndian

/-- A number that its width can hold is read back from its bytes. -/
theorem decode_encode_of_lt {width value : Nat} (fits : value < 256 ^ width) :
    decode (encode width value) = value := by
  rw [decode_encode, Nat.mod_eq_of_lt fits]

end LittleEndian

namespace Bytes

variable {data run : List UInt8} {start position : Nat}

/-- Bytes at the front are at the start. -/
theorem at_zero (run rest : List UInt8) : At (run ++ rest) 0 run := ⟨[], rest, rfl, rfl⟩

/-- What a file consists of is at its start. -/
theorem at_of_eq (layout : data = run) : At data 0 run :=
  ⟨[], [], by rw [layout, List.append_nil, List.nil_append], rfl⟩

/-- A run of bytes is read back at its place. -/
theorem At.slice? (found : At data start run) (place : start = position) :
    Bytes.slice? data position run.length = some run := by
  subst place
  rw [Bytes.slice?, found.slice, if_pos rfl]

/-- Bytes of a range are as many as it takes. -/
theorem length_of_slice? {length : Nat} (found : Bytes.slice? data position length = some run) :
    run.length = length := by
  unfold Bytes.slice? at found
  dsimp only at found
  split at found
  · next full => exact Option.some.inj found ▸ full
  · contradiction

/-- So they lie inside, if there are any. -/
theorem le_length_of_slice? {length : Nat} (found : Bytes.slice? data position length = some run)
    (some_byte : length ≠ 0) : position + length ≤ data.length := by
  unfold Bytes.slice? at found
  dsimp only at found
  split at found
  · next full =>
    rw [List.length_take, List.length_drop] at full
    omega
  · contradiction

end Bytes

namespace Zip

open Bytes (At)

variable {data : List UInt8} {start position width value : Nat}

/-- A number that its width can hold is read back at its place. -/
theorem number?_of_at (found : At data start (LittleEndian.encode width value))
    (place : start = position) (fits : value < 256 ^ width) :
    number? width data position = some value := by
  subst place
  have bytes := found.slice
  rw [LittleEndian.length_encode] at bytes
  rw [number?, LittleEndian.read?, bytes, LittleEndian.length_encode, if_pos rfl,
    LittleEndian.decode_encode_of_lt fits]

/-- A number is one that its width can hold. -/
theorem lt_of_number? (found : number? width data position = some value) : value < 256 ^ width := by
  unfold number? LittleEndian.read? at found
  dsimp only at found
  split at found
  · next full =>
    have bound := LittleEndian.decode_lt ((data.drop position).take width)
    rw [full] at bound
    exact Option.some.inj found ▸ bound
  · contradiction

/-- Numbers of some widths, one behind the other. -/
def numbers : List Nat → List Nat → List UInt8
  | width :: widths, value :: values => LittleEndian.encode width value ++ numbers widths values
  | _, _ => []

/-- Numbers take as many bytes as their widths together. -/
theorem length_numbers {widths values : List Nat} (each : values.length = widths.length) :
    (numbers widths values).length = widths.sum := by
  induction widths generalizing values with
  | nil => rfl
  | cons width widths ih =>
    cases values with
    | nil => contradiction
    | cons value values =>
      rw [numbers, List.length_append, LittleEndian.length_encode, ih (Nat.succ.inj each),
        List.sum_cons]

/-- Each of several numbers is read back behind those before it. -/
theorem number?_of_numbers {widths values : List Nat}
    (found : At data start (numbers widths values)) (index width position value : Nat)
    (has_width : widths[index]? = some width) (has_value : values[index]? = some value)
    (place : start + (widths.take index).sum = position) (fits : value < 256 ^ width) :
    number? width data position = some value := by
  induction index generalizing widths values start with
  | zero =>
    cases widths with
    | nil => contradiction
    | cons first widths =>
      cases values with
      | nil => contradiction
      | cons last values =>
        obtain rfl := Option.some.inj has_width
        obtain rfl := Option.some.inj has_value
        exact number?_of_at found.left place fits
  | succ index ih =>
    cases widths with
    | nil => contradiction
    | cons first widths =>
      cases values with
      | nil => contradiction
      | cons last values =>
        refine ih found.right has_width has_value ?_
        rw [LittleEndian.length_encode, Nat.add_assoc, ← List.sum_cons]
        exact place

end Zip

end Trajectory
