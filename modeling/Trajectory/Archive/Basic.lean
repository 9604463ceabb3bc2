import Trajectory.Directory.Archive
import Trajectory.Libraries
import Trajectory.Sqlite.Session
import Trajectory.Tar.Archive
import Trajectory.Zip.Archive
/-!
# Archives

An archive is an open container of one of four kinds. Whatever the kind, it stores contents under
paths, reads them back, with a path that is not stored read as empty, and enumerates its paths in
the order in which they were stored. Writes may be held back in a batch. After an archive is
closed every operation fails, and closing again does nothing.

An operation takes the volume that the container is stored on and gives it back, whether it
succeeds or fails. A write also takes the libraries that the container is stored with.
-/
namespace Trajectory

/-- An open container. -/
inductive Archive where
  /-- A tar file, by the number of the file. -/
  | tar (number : Nat) (archive : Tar.Archive)
  /-- A database. -/
  | sqlite (session : Sqlite.Session)
  /-- A zip file, by its number. -/
  | zip (number : Nat) (archive : Zip.Archive)
  /-- A directory. -/
  | directory (archive : Directory.Archive)
  deriving DecidableEq, Repr

/-- What opening an archive gives. -/
structure Opening (α : Type) where
  /-- What was opened, or why nothing was. -/
  result : Except ArchiveError α
  /-- The volume afterwards. -/
  volume : Volume
  /-- What there is to report. -/
  warning : Option Tar.Warning

namespace Opening

/-- Change what was opened. -/
def map {α β : Type} (change : α → β) (opening : Opening α) : Opening β :=
  ⟨opening.result.map change, opening.volume, opening.warning⟩

end Opening

namespace Content

/-- The rows of a file, none where it is no database. -/
def rows : Content → Sqlite.Database
  | database rows => rows
  | bytes _ => .empty

end Content

namespace Archive

/-- An entry to be written. -/
structure Request where
  /-- Path of the entry. -/
  path : String
  /-- Its contents. -/
  contents : List UInt8
  /-- The compression asked for. -/
  compression : Compression
  /-- Whether it should reach the container at once. -/
  immediate : Bool
  deriving DecidableEq, Repr

/-- The mode of opening that applies: a tar or zip file that is missing is written anew. -/
def effectiveMode (volume : Volume) (file : String) (mode : Access) : Access :=
  if mode = .append ∧ ¬ volume.exists? file then .write else mode

/-- Open a tar file. -/
def openTar (volume : Volume) (file : String) (mode : Access) : Opening Archive :=
  match effectiveMode volume file mode with
  | .write =>
    match volume.create file with
    | (.error fault, after) => ⟨.error (.io fault), after, none⟩
    | (.ok number, after) => ⟨.ok (.tar number .create), after, none⟩
  | existing =>
    match volume.openFile file with
    | .error fault => ⟨.error (.io fault), volume, none⟩
    | .ok number =>
      let (opened, warning) := Tar.Archive.openExisting existing (volume.bytes number)
      ⟨opened.map (.tar number), volume, warning⟩

/-- Whether the zip file at a path is of the new form. -/
def isWide (volume : Volume) (file : String) : Except ArchiveError Bool :=
  match volume.load file with
  | .error fault => .error (.io fault)
  | .ok data =>
    match Zip.isWide data with
    | .ok wide => .ok wide
    | .error damage => .error (.corrupt (.zip file damage))

/-- Open a zip file with its entries. -/
def loadZip (volume : Volume) (file : String) (mode : Access) : Except ArchiveError Archive :=
  match volume.find file with
  | .error fault => .error (.io fault)
  | .ok (_, .directory) => .error (.zip .unreadable)
  | .ok (_, .file number) =>
    match Zip.Archive.openExisting mode (volume.bytes number) with
    | .error error => .error (.zip error)
    | .ok archive => .ok (.zip number archive)

/-- Open a zip file. Only a file of the new form can be appended to. -/
def openZip (volume : Volume) (file : String) (mode : Access) : Opening Archive :=
  match effectiveMode volume file mode with
  | .write =>
    match volume.create file with
    | (.error fault, after) => ⟨.error (.io fault), after, none⟩
    | (.ok number, after) => ⟨.ok (.zip number .create), after, none⟩
  | .read => ⟨loadZip volume file .read, volume, none⟩
  | .append =>
    match isWide volume file with
    | .error error => ⟨.error error, volume, none⟩
    | .ok false => ⟨.error (.invalidMode (.notZip64 file)), volume, none⟩
    | .ok true => ⟨loadZip volume file .append, volume, none⟩

/-- Open a database in the file that there is. -/
def startSqlite (volume : Volume) (file : String) (mode : Access) (sizes : PieceSizes) :
    Opening Archive :=
  let (started, after) := Sqlite.Session.start volume file mode sizes
  ⟨(started.map sqlite).mapError .sqlite, after, none⟩

/-- Open a database. One opened for writing takes the place of the file there was. -/
def openSqlite (volume : Volume) (file : String) (mode : Access) (sizes : PieceSizes) :
    Opening Archive :=
  match mode with
  | .read | .append => startSqlite volume file mode sizes
  | .write =>
    match volume.remove file with
    | (.ok (), after) | (.error .notFound, after) => startSqlite after file mode sizes
    | (.error fault, after) => ⟨.error (.io fault), after, none⟩

/-- Open an archive of a kind. -/
def openAs (kind : ArchiveKind) (volume : Volume) (file : String) (mode : Access)
    (sizes : PieceSizes) : Opening Archive :=
  match kind with
  | .tar => openTar volume file mode
  | .sqlite => openSqlite volume file mode sizes
  | .zip => openZip volume file mode
  | .directory =>
    let (opened, after) := Directory.openRoot volume file mode
    ⟨opened.map .directory, after, none⟩
  | .hdf5 => ⟨.error (.unsupported kind), volume, none⟩

/-- How the archive was opened. -/
def mode : Archive → Access
  | tar _ archive => archive.mode
  | sqlite session => session.archive.mode
  | zip _ archive => archive.mode
  | directory archive => archive.mode

/-- Whether the archive is open. -/
def requireOpen : Archive → Except ArchiveError Unit
  | tar _ archive => archive.requireOpen
  | sqlite session => session.archive.requireOpen
  | zip _ archive => archive.requireOpen
  | directory archive => archive.requireOpen

/-- The paths listed by the archive, open or not. -/
def known : Archive → List String
  | tar _ archive => archive.catalog.names
  | sqlite session => session.archive.catalog.names
  | zip _ archive => archive.catalog.names
  | directory archive => archive.catalog.names

/-- Number of entries. -/
def size (archive : Archive) : Except ArchiveError Nat :=
  match archive.requireOpen with
  | .ok () => .ok archive.known.length
  | .error error => .error error

/-- The path at a position of the enumeration. -/
def pathAt (archive : Archive) (index : Nat) : Except ArchiveError String :=
  match archive.requireOpen with
  | .ok () => pickPath archive.known index
  | .error error => .error error

/-- The paths of all entries, in order. -/
def paths (archive : Archive) : Except ArchiveError (List String) :=
  match archive.requireOpen with
  | .ok () => .ok archive.known
  | .error error => .error error

/-- Write an entry. -/
def write (archive : Archive) (volume : Volume) (request : Request)
    (libraries : Libraries := .literal) : Except ArchiveError Unit × Archive × Volume :=
  match archive with
  | tar number archive =>
    let (result, archive, data) := archive.write (volume.bytes number) volume.clock request.path
      request.contents request.immediate
    (result, tar number archive, volume.setBytes number data)
  | sqlite session =>
    let (result, session, volume) :=
      session.write volume libraries.engine request.path request.contents request.compression
    (result, sqlite session, volume)
  | zip number archive =>
    let (result, archive, data) :=
      archive.write libraries.deflater (volume.bytes number) request.path request.contents
        request.compression
    (result, zip number archive, volume.setBytes number data)
  | directory archive =>
    let (result, archive, volume) := archive.write volume request.path request.contents
    (result, directory archive, volume)

/-- Read an entry. -/
def read (archive : Archive) (volume : Volume) (path : String) :
    Except ArchiveError (List UInt8) × Archive × Volume :=
  match archive with
  | tar number archive =>
    let (result, archive, data) := archive.read (volume.bytes number) path
    (result, tar number archive, volume.setBytes number data)
  | sqlite session =>
    let (result, volume) := session.read volume path
    (result, sqlite session, volume)
  | zip number archive => (archive.read (volume.bytes number) path, zip number archive, volume)
  | directory archive => (archive.read volume path, directory archive, volume)

/-- Begin a batch of writes. -/
def beginBatch : Archive → Except ArchiveError Unit × Archive
  | sqlite session =>
    let (result, session) := session.beginBatch
    (result, sqlite session)
  | other => (other.requireOpen, other)

/-- End a batch of writes. -/
def endBatch (archive : Archive) (volume : Volume) :
    Except ArchiveError Unit × Archive × Volume :=
  match archive with
  | tar number archive =>
    let (result, archive, data) := archive.endBatch (volume.bytes number)
    (result, tar number archive, volume.setBytes number data)
  | sqlite session =>
    let (result, session, volume) := session.endBatch volume
    (result, sqlite session, volume)
  | other => (other.requireOpen, other, volume)

/-- Close the archive, which completes its container. Where that fails the archive stays open. -/
def close (archive : Archive) (volume : Volume) : Except ArchiveError Unit × Archive × Volume :=
  match archive with
  | tar number archive =>
    let (archive, data) := archive.close (volume.bytes number)
    (.ok (), tar number archive, volume.setBytes number data)
  | sqlite session =>
    let (result, session, volume) := session.close volume
    (result, sqlite session, volume)
  | zip number archive =>
    let (archive, data) := archive.close (volume.bytes number)
    (.ok (), zip number archive, volume.setBytes number data)
  | directory archive => (.ok (), directory { archive with closed := true }, volume)

/-- An archive that was given up and could not be completed. -/
structure Loss where
  /-- The name it was opened by. -/
  file : String
  /-- What went wrong. -/
  error : ArchiveError
  deriving DecidableEq, Repr

/-- The text of a loss. -/
def Loss.message (loss : Loss) : String := s!"closing {loss.file}: {loss.error.message}"

/-- Give up an archive, which closes it. -/
def giveUp (archive : Archive) (volume : Volume) : Option Loss × Volume :=
  match archive.close volume, archive with
  | (.error error, _, after), sqlite session => (some ⟨session.file, error⟩, after)
  | (_, _, after), _ => (none, after)

end Archive

end Trajectory
