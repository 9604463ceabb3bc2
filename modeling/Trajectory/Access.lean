/-!
# Access to an archive

An archive is opened for reading, to be written anew, or to have entries added. The mode lasts as
long as the archive is open.
-/
namespace Trajectory

/-- How an archive is opened, for as long as it is open. -/
inductive Access where
  /-- Nothing is changed. -/
  | read
  /-- A new archive, in place of any there was. -/
  | write
  /-- Entries are kept, and new ones are added. -/
  | append
  deriving DecidableEq, Repr, Inhabited

namespace Access

/-- The mode in words. -/
def name : Access → String
  | read => "read"
  | write => "write"
  | append => "append"

/-- Whether entries may be written. -/
def canWrite : Access → Bool
  | read => false
  | write | append => true

end Access

end Trajectory
