import Trajectory.IoError
/-!
# Faults of tar archives

A header can refuse to be built, a stored block can fail to be one, and the stream below can
fail.
-/
namespace Trajectory.Tar

/-- Why no header can be built for an entry. -/
inductive HeaderLimit where
  /-- The stored path is too long. -/
  | pathTooLong (length : Nat)
  /-- The size does not fit its field. -/
  | sizeTooLarge (size : Nat)
  deriving DecidableEq, Repr

/-- Why a block is not a header. -/
inductive HeaderFault where
  /-- The format's mark is missing. -/
  | magic (offset : Nat)
  /-- The recorded checksum is not that of the block. -/
  | checksum (offset stored computed : Nat)
  /-- A number is not in octal digits. -/
  | octal (offset : Nat)
  deriving DecidableEq, Repr

/-- A fault of an archive. -/
inductive Error where
  /-- The stream failed. -/
  | io (fault : IoError)
  /-- An entry has no header. -/
  | limit (limit : HeaderLimit)
  /-- A stored header is damaged. -/
  | header (fault : HeaderFault)
  deriving DecidableEq, Repr

namespace HeaderLimit

/-- The text of the fault. -/
def message : HeaderLimit → String
  | pathTooLong length => s!"can't store path of length {length}"
  | sizeTooLarge size => s!"payload of {size} bytes does not fit the size field"

end HeaderLimit

namespace HeaderFault

/-- A number in octal digits. -/
def inOctal (value : Nat) : String := String.ofList (Nat.toDigits 8 value)

/-- The text of the fault. -/
def message : HeaderFault → String
  | magic offset => s!"magic mismatch at offset {offset} (is this actually a tar file?)"
  | checksum offset stored computed =>
    s!"header checksum mismatch at offset {offset}: stored {inOctal stored}, computed " ++
      inOctal computed
  | octal offset => s!"malformed octal field in header at offset {offset}"

end HeaderFault

namespace Error

/-- The text of the fault. -/
def message : Error → String
  | io fault => fault.message
  | limit fault => fault.message
  | header fault => fault.message

end Error

end Trajectory.Tar
