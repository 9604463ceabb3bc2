import Trajectory.IoError
/-!
# Sinks that run out of room

A sink receives bytes, in all no more than its limit. Writing a run of bytes that does not fit
leaves the part that fits behind and fails.
-/
namespace Trajectory

/-- A receiver of bytes. -/
structure Sink where
  /-- The bytes received so far. -/
  received : List UInt8
  /-- Most bytes it takes in all; any number without a limit. -/
  limit : Option Nat
  deriving DecidableEq, Repr

namespace Sink

/-- A sink that has received nothing. -/
def empty (limit : Option Nat) : Sink := ⟨[], limit⟩

/-- How many of a number of bytes still fit. -/
def fitting (sink : Sink) (count : Nat) : Nat :=
  sink.limit.elim count fun limit => min count (limit - sink.received.length)

/-- Write a run of bytes whole, or as far as there is room. -/
def write (sink : Sink) (bytes : List UInt8) : Except IoError Unit × Sink :=
  let taken := bytes.take (sink.fitting bytes.length)
  let after := { sink with received := sink.received ++ taken }
  if taken.length = bytes.length then (.ok (), after) else (.error .writeZero, after)

/-- Write several runs in order, up to the first that does not fit. -/
def writeAll (sink : Sink) : List (List UInt8) → Except IoError Unit × Sink
  | [] => (.ok (), sink)
  | run :: later =>
    match sink.write run with
    | (.ok (), after) => after.writeAll later
    | (.error fault, after) => (.error fault, after)

end Sink

end Trajectory
