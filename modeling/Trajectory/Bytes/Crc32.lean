/-!
# Cyclic redundancy check

The reflected 32-bit check of zip archives: each byte is folded into a register that is divided
bit by bit by the polynomial `0xEDB88320`. The register starts and ends complemented.
-/
namespace Trajectory.Crc32

/-- Divide one bit out of the register. -/
def shift (register : UInt32) : UInt32 :=
  if register &&& 1 = 1 then (register >>> 1) ^^^ 0xEDB88320 else register >>> 1

/-- Fold one byte into the register. -/
def update (register : UInt32) (byte : UInt8) : UInt32 :=
  Nat.repeat shift 8 (register ^^^ byte.toUInt32)

/-- The check of a run of bytes. -/
def check (bytes : List UInt8) : UInt32 := bytes.foldl update 0xFFFFFFFF ^^^ 0xFFFFFFFF

end Trajectory.Crc32
