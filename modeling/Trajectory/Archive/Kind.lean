import Trajectory.Volume.Basic
/-!
# Kinds of archives

An archive is a tar file, a database, a zip file or a directory; a fifth kind is known by name
only. The kind is told by the file name: one that ends in a slash is a directory, an extension
names the kind, and anything else is a zip file.
-/
namespace Trajectory

/-- What an archive is stored as. -/
inductive ArchiveKind where
  /-- A tar file. -/
  | tar
  /-- A database. -/
  | sqlite
  /-- A zip file. -/
  | zip
  /-- A directory of plain files. -/
  | directory
  /-- A kind that cannot be opened. -/
  | hdf5
  deriving DecidableEq, Repr, Inhabited

namespace ArchiveKind

/-- Every kind. -/
def all : List ArchiveKind := [tar, sqlite, zip, directory, hdf5]

/-- The name of a kind in a message. -/
def title : ArchiveKind → String
  | tar => "Tar"
  | sqlite => "Sqlite"
  | zip => "Zip"
  | directory => "Dir"
  | hdf5 => "Hdf5"

/-- The name of a kind in a configuration. -/
def name : ArchiveKind → String
  | tar => "tar"
  | sqlite => "sqlite"
  | zip => "zip"
  | directory => "dir"
  | hdf5 => "hdf5"

/-- The kind of a name. -/
def ofName? (text : String) : Option ArchiveKind := all.find? fun kind => kind.name = text

/-- The last name in a path; none where it ends above or at the working directory. -/
def fileName? (path : String) : Option String :=
  match (Volume.segments path).reverse.dropWhile Volume.isBlank with
  | [] => none
  | last :: _ => if last = ".." then none else some last

/-- The text after the last dot of a name, if anything precedes that dot. -/
def extension? (name : String) : Option String :=
  match (Text.pieces '.' name.toList).reverse with
  | last :: first :: outer =>
    if first = [] ∧ outer = [] then none else some (String.ofList last)
  | _ => none

/-- The kind that a file name tells. -/
def ofPath (path : String) : ArchiveKind :=
  if path.toList.getLast? = some '/' then directory
  else
    match (fileName? path).bind extension? with
    | some "tar" => tar
    | some "sqlite" => sqlite
    | some "h5" | some "hdf5" => hdf5
    | _ => zip

end ArchiveKind

end Trajectory
