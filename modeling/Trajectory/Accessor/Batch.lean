import Trajectory.Accessor.Basic
/-!
# Batches of writes

A batch takes hold of an accessor until it ends. While it lasts the archive may hold its writes
back; reading sees them all the same. It ends when it is finished, and one that is abandoned is
finished too, with nobody told of the outcome.
-/
namespace Trajectory

/-- A batch of writes under way. -/
structure Batch where
  /-- The accessor that it writes to. -/
  accessor : Accessor
  deriving DecidableEq

namespace Batch

/-- Begin a batch; where it cannot begin, the accessor is given back. -/
def start (accessor : Accessor) : Except (ArchiveError × Accessor) Batch :=
  match accessor.beginBatch with
  | (.ok (), accessor) => .ok ⟨accessor⟩
  | (.error error, accessor) => .error (error, accessor)

variable (batch : Batch) (volume : Volume)

/-- Write an entry, which may be held back. -/
def write (draft : Draft) (libraries : Libraries := .literal) :
    Except ArchiveError Unit × Batch × Volume :=
  let (result, accessor, volume) := batch.accessor.put volume draft false libraries
  (result, ⟨accessor⟩, volume)

/-- The contents at a path. -/
def read (path : String) : Except ArchiveError (List UInt8) × Batch × Volume :=
  let (result, accessor, volume) := batch.accessor.read volume path
  (result, ⟨accessor⟩, volume)

/-- End the batch. -/
def finish : Except ArchiveError Unit × Accessor × Volume := batch.accessor.endBatch volume

end Batch

end Trajectory
