import Trajectory.Deflate.Store
import Trajectory.Sqlite.Statement
/-!
# Libraries

Archives are stored with the help of libraries. How they compress is left open, as is what
statements a database refuses; all that is known of a way to compress is that its results are
taken back to what they were made from.
-/
namespace Trajectory

/-- What archives are stored with. -/
structure Libraries where
  /-- What carries out the statements of databases. -/
  engine : Sqlite.Engine
  /-- How the contents of zip files are deflated. -/
  deflater : Deflate.Deflater

/-- The libraries that compress nothing and refuse nothing. -/
def Libraries.literal : Libraries := ⟨.literal, .literal⟩

end Trajectory
