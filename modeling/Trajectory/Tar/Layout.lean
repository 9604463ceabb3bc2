import Trajectory.Sink
import Trajectory.Tar.Header
/-!
# Layout of tar archives

An entry is its header, its contents, and zeros up to the next multiple of 512 bytes. A finished
archive ends in two blocks of zeros. Each is written as runs of bytes in order.
-/
namespace Trajectory.Tar

/-- Zeros after contents of a length. -/
def paddingLength (length : Nat) : Nat :=
  if length % blockLength = 0 then 0 else blockLength - length % blockLength

/-- Bytes of a header and padded contents of a length. -/
def entryLength (length : Nat) : Nat := blockLength + length + paddingLength length

/-- Bytes of the end of an archive. -/
def closingSize : Nat := 2 * blockLength

/-- The runs of an entry with a header. -/
def entryRuns (header contents : List UInt8) : List (List UInt8) :=
  [header, contents, Bytes.zeros (paddingLength contents.length)]

/-- The runs of the end of an archive. -/
def closingRuns : List (List UInt8) := [Bytes.zeros blockLength, Bytes.zeros blockLength]

/-- Append an entry to a sink, giving the bytes it takes. -/
def append (sink : Sink) (path : String) (contents : List UInt8) (time : Nat) :
    Except Error Nat × Sink :=
  match Header.encode path contents.length time with
  | .error limit => (.error (.limit limit), sink)
  | .ok header =>
    match sink.writeAll (entryRuns header contents) with
    | (.ok (), after) => (.ok (entryLength contents.length), after)
    | (.error fault, after) => (.error (.io fault), after)

/-- Write the end of an archive to a sink, giving the bytes it takes. -/
def finish (sink : Sink) : Except Error Nat × Sink :=
  match sink.writeAll closingRuns with
  | (.ok (), after) => (.ok closingSize, after)
  | (.error fault, after) => (.error (.io fault), after)

/-- An entry takes whole blocks. -/
theorem blockLength_dvd_entryLength (length : Nat) : blockLength ∣ entryLength length := by
  by_cases whole : length % 512 = 0
  · simp only [entryLength, paddingLength, blockLength, whole, ↓reduceIte]
    omega
  · simp only [entryLength, paddingLength, blockLength, whole, ↓reduceIte]
    omega

end Trajectory.Tar
