/-!
# Faults of files and streams

What can go wrong when a file is named, opened, read or written, each with the text that
reports it.
-/
namespace Trajectory

/-- A fault of a file or a stream. -/
inductive IoError where
  /-- Nothing has the name. -/
  | notFound
  /-- Something has the name already. -/
  | alreadyExists
  /-- A name passes through a file. -/
  | notDirectory
  /-- A directory stands where a file is needed. -/
  | isDirectory
  /-- A name or one segment of it is too long. -/
  | nameTooLong
  /-- A name holds a NUL. -/
  | nulInName
  /-- A stream ended before an exact length was read. -/
  | unexpectedEnd
  /-- A stream took no more bytes. -/
  | writeZero
  /-- A file that should be text is not UTF-8. -/
  | notText
  /-- Stored contents do not have the recorded check. -/
  | invalidChecksum
  /-- A deflated stream is cut off or makes no sense. -/
  | brokenStream
  /-- A fault with a text of its own. -/
  | other (text : String)
  deriving DecidableEq, Repr

namespace IoError

/-- The text of the fault. -/
def message : IoError → String
  | notFound => "No such file or directory (os error 2)"
  | alreadyExists => "File exists (os error 17)"
  | notDirectory => "Not a directory (os error 20)"
  | isDirectory => "Is a directory (os error 21)"
  | nameTooLong => "File name too long (os error 36)"
  | nulInName => "file name contained an unexpected NUL byte"
  | unexpectedEnd => "failed to fill whole buffer"
  | writeZero => "failed to write whole buffer"
  | notText => "stream did not contain valid UTF-8"
  | invalidChecksum => "Invalid checksum"
  | brokenStream => "corrupt deflate stream"
  | other text => text

end IoError

end Trajectory
