import Trajectory.Archive.Kind
import Trajectory.Compression
/-!
# Configuration

What an accessor may be told beyond a path and a mode: the kind of archive, the compression of
what is written without asking for one, and the sizes of pieces.
-/
namespace Trajectory

/-- Settings of an accessor. -/
structure Config where
  /-- Kind of archive; the path tells it where none is given. -/
  kind : Option ArchiveKind
  /-- Compression where a write asks for none. -/
  compression : Compression
  /-- Sizes of pieces, where an archive stores pieces. -/
  sizes : PieceSizes
  deriving DecidableEq, Repr

namespace Config

/-- The settings where nothing is said. -/
def standard : Config := ⟨none, .fast, .standard⟩

end Config

end Trajectory
