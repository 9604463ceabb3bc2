import Trajectory.Archive.Error
import Trajectory.Catalog
import Trajectory.Record.Basic
/-!
# Archives in directories

An archive in a directory keeps each entry as a plain file below the directory. A path is taken
only if no segment of it leads up or back to the directory itself, so that no file outside is
reached. The files that are there are enumerated when the archive is opened for reading or to
append; an archive opened for writing leaves them alone and enumerates its own writes only.
-/
namespace Trajectory.Directory

/-- An archive in a directory. -/
structure Archive where
  /-- Path of the directory. -/
  root : String
  /-- How it was opened. -/
  mode : Access
  /-- The entries. -/
  catalog : Catalog Unit
  /-- Whether the archive is closed. -/
  closed : Bool
  deriving DecidableEq, Repr

/-- The name under which a path is enumerated: without slashes at its front. -/
def entryName (path : String) : String := String.ofList (trimSlashes path.toList)

/-- Whether the path of an entry stays below the directory. A dot at its start counts as a
segment; a later one is passed over, and so is an empty segment. -/
def staysBelow (name : String) : Bool :=
  let segments := Volume.segments name
  name ≠ "" ∧ segments.head? ≠ some "." ∧ ".." ∉ segments

/-- A path below a directory. -/
def join (root name : String) : String :=
  if root = "" ∨ root.toList.getLast? = some '/' then root ++ name else root ++ "/" ++ name

/-- The file of an entry, if its path is taken. -/
def target? (root path : String) : Option String :=
  if staysBelow (entryName path) then some (join root (entryName path)) else none

/-- The paths of all files below a place, a directory's own in order. -/
def fileNames (volume : Volume) (place : Place) : List String :=
  (volume.listing place).filterMap fun (below, node) =>
    match node with
    | .file _ => some (Volume.joined below)
    | .directory => none

/-- Open an archive in a directory. -/
def openRoot (volume : Volume) (root : String) (mode : Access) :
    Except ArchiveError Archive × Volume :=
  let scan : Except ArchiveError Archive :=
    match volume.find root with
    | .ok (place, .directory) =>
      .ok ⟨root, mode, .ofList ((fileNames volume place).map fun name => (name, ())), false⟩
    | _ => .error (.invalidPath (.notDirectory root))
  if volume.exists? root ∧ ¬ volume.isDirectory root then
    (.error (.invalidPath (.notDirectory root)), volume)
  else if mode = .read ∨ mode = .append ∧ volume.exists? root then (scan, volume)
  else
    match volume.makeDirectories root with
    | (.ok (), after) => (.ok ⟨root, mode, .empty, false⟩, after)
    | (.error fault, after) => (.error (.io fault), after)

namespace Archive

/-- Write an entry, making the directories that lead to it. -/
def write (archive : Archive) (volume : Volume) (path : String) (contents : List UInt8) :
    Except ArchiveError Unit × Archive × Volume :=
  if archive.closed then (.error .closed, archive, volume)
  else if archive.mode = .read then (.error (.invalidMode .readOnly), archive, volume)
  else
    match target? archive.root path with
    | none => (.error (.invalidPath (.refused path)), archive, volume)
    | some target =>
      let made :=
        match Volume.above (Volume.segments target).reverse with
        | some outer => volume.makeAll outer
        | none => (.ok (), volume)
      match made with
      | (.error fault, after) => (.error (.io fault), archive, after)
      | (.ok (), after) =>
        match after.save target contents with
        | (.error fault, after) => (.error (.io fault), archive, after)
        | (.ok (), after) =>
          (.ok (), { archive with catalog := archive.catalog.insert (entryName path) () }, after)

/-- Read an entry; a path that is not taken, or at which nothing is found, reads as empty. -/
def read (archive : Archive) (volume : Volume) (path : String) :
    Except ArchiveError (List UInt8) :=
  if archive.closed then .error .closed
  else
    match target? archive.root path with
    | none => .ok []
    | some target =>
      match volume.load target with
      | .ok contents => .ok contents
      | .error .notFound => .ok []
      | .error fault => .error (.io fault)

/-- Whether the archive is open. -/
def requireOpen (archive : Archive) : Except ArchiveError Unit :=
  if archive.closed then .error .closed else .ok ()

end Archive

end Trajectory.Directory
