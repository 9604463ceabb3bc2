import Trajectory.Archive.Basic
import Trajectory.Config.Basic
import Trajectory.Record.Register
/-!
# Accessors

An accessor is an archive together with a register of its records. The register is made from the
paths that the archive enumerates when it is opened, and learns of a path as soon as the archive
has taken it, so that it always lists what the archive enumerates. On top of bytes the accessor
writes and reads elements, text and records.

Closing an accessor completes its archive. Every other operation on a closed accessor fails, and
closing it again does nothing.
-/
namespace Trajectory

/-- An archive with a register of its records. -/
structure Accessor where
  /-- The path it was opened by. -/
  path : String
  /-- How it was opened. -/
  mode : Access
  /-- The archive, until it is closed. -/
  archive : Option Archive
  /-- The records of the archive. -/
  register : Register
  /-- Compression where a write asks for none. -/
  compression : Compression
  deriving DecidableEq

/-- Something to be written at a path. -/
structure Draft where
  /-- Path of the entry. -/
  path : String
  /-- Its contents. -/
  contents : List UInt8
  /-- The compression asked for, if any. -/
  compression : Option Compression
  deriving DecidableEq, Repr

namespace Draft

/-- Bytes, with no compression asked for. -/
def bytes (path : String) (contents : List UInt8) : Draft := ⟨path, contents, none⟩

/-- A text. -/
def text (path text : String) : Draft := bytes path (Utf8.encode text)

/-- The elements of an individual property. -/
def elements {format : Format} (path : String) (values : List (Element format)) : Draft :=
  bytes path (Element.encode values)

/-- The element of a uniform property. -/
def element {format : Format} (path : String) (value : Element format) : Draft :=
  bytes path (Element.encodeOne value)

end Draft

namespace Accessor

/-- An accessor of an archive that has just been opened. -/
def ofArchive (path : String) (mode : Access) (compression : Compression)
    (archive : Archive) : Accessor :=
  ⟨path, mode, some archive, .ofPaths archive.known, compression⟩

/-- Open an archive. Where nothing is there to append to, a new one is written. -/
def openUsing (config : Config) (volume : Volume) (path : String) (mode : Access) :
    Opening Accessor :=
  let mode := Archive.effectiveMode volume path mode
  let kind := config.kind.getD (.ofPath path)
  (Archive.openAs kind volume path mode config.sizes).map
    (ofArchive path mode config.compression)

/-- Open an archive with the settings where nothing is said. -/
def openStandard : Volume → String → Access → Opening Accessor := openUsing .standard

variable (accessor : Accessor) (volume : Volume)

/-- Close the accessor and its archive. An archive that cannot be completed is given up. -/
def close : Except ArchiveError Unit × Accessor × Volume :=
  match accessor.archive with
  | none => (.ok (), accessor, volume)
  | some archive =>
    let (result, _, volume) := archive.close volume
    (result, { accessor with archive := none }, volume)

/-- The archive, while it is open. -/
def current : Except ArchiveError Archive :=
  match accessor.archive with
  | some archive => .ok archive
  | none => .error .closed

/-- Write an entry, at once or when the batch ends. -/
def put (draft : Draft) (immediate : Bool) (libraries : Libraries := .literal) :
    Except ArchiveError Unit × Accessor × Volume :=
  match accessor.archive with
  | none => (.error .closed, accessor, volume)
  | some archive =>
    match archive.write volume ⟨draft.path, draft.contents,
      draft.compression.getD accessor.compression, immediate⟩ libraries with
    | (.ok (), archive, volume) =>
      (.ok (), { accessor with
        archive := some archive, register := accessor.register.enterPath draft.path }, volume)
    | (.error error, archive, volume) =>
      (.error error, { accessor with archive := some archive }, volume)

/-- Write an entry. -/
def write (draft : Draft) (libraries : Libraries := .literal) :
    Except ArchiveError Unit × Accessor × Volume :=
  accessor.put volume draft true libraries

/-- The contents at a path, empty where nothing is stored. -/
def read (path : String) : Except ArchiveError (List UInt8) × Accessor × Volume :=
  match accessor.archive with
  | none => (.error .closed, accessor, volume)
  | some archive =>
    let (result, archive, volume) := archive.read volume path
    (result, { accessor with archive := some archive }, volume)

/-- The contents of a record at a frame of its property. -/
def readRecord (record : Record) (frame : String) :
    Except ArchiveError (List UInt8) × Accessor × Volume :=
  accessor.read volume (record.atFrame frame).path

/-- Contents as elements. -/
def decoded {α : Type} (decode : List UInt8 → Except ElementError α)
    (result : Except ArchiveError (List UInt8)) : Except ArchiveError α :=
  match result with
  | .ok contents => (decode contents).mapError .elements
  | .error error => .error error

/-- The elements of an individual property. -/
def readElements (format : Format) (path : String) :
    Except ArchiveError (List (Element format)) × Accessor × Volume :=
  let (result, after) := accessor.read volume path
  (decoded (Element.decode format) result, after)

/-- The element of a uniform property; none where nothing is stored. -/
def readElement (format : Format) (path : String) :
    Except ArchiveError (Option (Element format)) × Accessor × Volume :=
  let (result, after) := accessor.read volume path
  (decoded (Element.decodeOne format) result, after)

/-- A question to the register, which a closed accessor does not answer. -/
def query {α : Type} (question : Register → α) : Except ArchiveError α :=
  match accessor.current with
  | .ok _ => .ok (question accessor.register)
  | .error error => .error error

/-- Every record type, in record order. -/
def types : Except ArchiveError (List Record) := accessor.query (·.types)

/-- Frames of the type of a record, in index order. -/
def frames (record : Record) : Except ArchiveError (List String) :=
  accessor.query (·.frames record)

/-- Frames of the type of a record, in the order first seen. -/
def framesSeen (record : Record) : Except ArchiveError (List String) :=
  accessor.query (·.framesSeen record)

/-- One frame of the type of a record, by its place in the order first seen. -/
def frameAt? (record : Record) (place : Nat) : Except ArchiveError (Option String) :=
  accessor.query (·.frameAt? record place)

/-- Number of entries. -/
def size : Except ArchiveError Nat :=
  match accessor.current with
  | .ok archive => archive.size
  | .error error => .error error

/-- The paths of all entries. -/
def paths : Except ArchiveError (List String) :=
  match accessor.current with
  | .ok archive => archive.paths
  | .error error => .error error

/-- Let writes be held back until the batch ends. -/
def beginBatch : Except ArchiveError Unit × Accessor :=
  match accessor.archive with
  | none => (.error .closed, accessor)
  | some archive =>
    let (result, archive) := archive.beginBatch
    (result, { accessor with archive := some archive })

/-- End a batch: what was held back reaches the container. -/
def endBatch : Except ArchiveError Unit × Accessor × Volume :=
  match accessor.archive with
  | none => (.error .closed, accessor, volume)
  | some archive =>
    let (result, archive, volume) := archive.endBatch volume
    (result, { accessor with archive := some archive }, volume)

end Accessor

end Trajectory
