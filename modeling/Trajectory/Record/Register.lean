import Trajectory.Record.Order
import Trajectory.Record.Path
/-!
# Register of the records of an archive

The register lists the record types that an archive holds, in record order, and for each type the
frames that have been recorded, in the order in which they were first seen. Nothing is ever
removed, and recording a frame again changes nothing.
-/
namespace Trajectory

/-- The record types of an archive and the frames of each. -/
structure Register where
  /-- Types in ascending order, each with its frames in first-seen order. -/
  entries : List (Record × List String)
  deriving DecidableEq

namespace Register

/-- The register of an archive without entries. -/
def empty : Register := ⟨[]⟩

/-- Put a frame of a type into its place. -/
def place (recordType : Record) (frame : String) :
    List (Record × List String) → List (Record × List String)
  | [] => [(recordType, [frame])]
  | (head, frames) :: rest =>
    match recordType.order head with
    | .lt => (recordType, [frame]) :: (head, frames) :: rest
    | .eq => (head, if frame ∈ frames then frames else frames ++ [frame]) :: rest
    | .gt => (head, frames) :: place recordType frame rest

/-- Record an entry. -/
def enter (register : Register) (record : Record) : Register :=
  ⟨place record.recordType record.index register.entries⟩

/-- Record the entry at a path. -/
def enterPath (register : Register) (path : String) : Register :=
  register.enter (Record.parse path)

/-- The register of an enumeration of paths. -/
def ofPaths (paths : List String) : Register := paths.foldl enterPath empty

/-- Every record type, in order. -/
def types (register : Register) : List Record := register.entries.map (·.1)

/-- Number of record types. -/
def size (register : Register) : Nat := register.entries.length

/-- Frames of the type of a record in the order first seen; its own index does not count. -/
def framesSeen (register : Register) (record : Record) : List String :=
  match register.entries.find? fun entry => entry.1 = record.recordType with
  | some (_, frames) => frames
  | none => []

/-- Frames of the type of a record in index order. -/
def frames (register : Register) (record : Record) : List String :=
  sortIndices (register.framesSeen record)

/-- One frame of the type of a record, by its place in the order first seen. -/
def frameAt? (register : Register) (record : Record) (place : Nat) : Option String :=
  (register.framesSeen record)[place]?

end Register

end Trajectory
