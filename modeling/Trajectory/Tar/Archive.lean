import Trajectory.Archive.Error
import Trajectory.Catalog
import Trajectory.Tar.BufferedWriter
import Trajectory.Tar.Scan
/-!
# Archives in tar files

An archive in a tar file knows where the contents of each entry are, from a scan when it is
opened and from its own writes. New entries go to the end of those known, through a buffered
writer that shares its cursor with the reads. The cursor is moved back to the end only after a
read that succeeded or a write that failed; a read that fails leaves it where it stopped, and the
next entry is written there. Closing writes the end of the archive and cuts off what follows.

Every operation takes the bytes of the file and gives them back.
-/
namespace Trajectory.Tar

/-- Where the contents of an entry are. -/
structure Extent where
  /-- Offset of the contents. -/
  offset : Nat
  /-- Bytes of the contents. -/
  size : Nat
  deriving DecidableEq, Repr

/-- How an open archive uses its file. -/
inductive Channel where
  /-- For reading. -/
  | reader
  /-- For writing, and for reading when entries are appended. -/
  | writer (writer : BufferedWriter)
  /-- No longer. -/
  | closed
  deriving DecidableEq, Repr

/-- An archive in a tar file. -/
structure Archive where
  /-- How it was opened. -/
  mode : Access
  /-- How it uses its file. -/
  channel : Channel
  /-- The entries, and where their contents are. -/
  catalog : Catalog Extent
  /-- End of the last entry, where the next one goes. -/
  stop : Nat
  /-- Whether the cursor is taken to be at the end. -/
  inPlace : Bool
  deriving DecidableEq, Repr

namespace Archive

/-- The warning at the end of a scan. -/
def warning? : Finding → Option Warning
  | .finished warning => warning
  | _ => none

/-- A new archive, in an empty file. -/
def create : Archive := ⟨.write, .writer .start, .empty, 0, true⟩

/-- The archive that a scan found. -/
def ofScan (mode : Access) (channel : Channel) (found : Scan) : Archive where
  mode := mode
  channel := channel
  catalog := .ofList (found.entries.map fun (entry, _) => (entry.path, ⟨entry.offset, entry.size⟩))
  stop := found.scanner.offset
  inPlace := true

/-- Open an archive there is, for reading or to append. -/
def openExisting (mode : Access) (file : List UInt8) :
    Except ArchiveError Archive × Option Warning :=
  let found := scan (.ofBytes file)
  match found.ending with
  | .failed error => (.error (.ofTar error), none)
  | ending =>
    let channel :=
      if mode = .read then .reader else .writer ⟨[], found.scanner.offset⟩
    (.ok (ofScan mode channel found), warning? ending)

/-- Append an entry at the cursor. -/
def append (archive : Archive) (file : List UInt8) (time : Nat) (path : String)
    (contents : List UInt8) (immediate : Bool) : Except ArchiveError Unit × Archive × List UInt8 :=
  match archive.channel with
  | .closed => (.error .closed, archive, file)
  | .reader => (.error (.invalidMode .readOnly), archive, file)
  | .writer writer =>
    let (placed, file) := if archive.inPlace then (writer, file) else writer.seek file archive.stop
    match Header.encode path contents.length time with
    | .error limit =>
      (.error (.ofTar (.limit limit)), { archive with channel := .writer placed }, file)
    | .ok header =>
      let (written, file) := placed.writeAll file (entryRuns header contents)
      let (settled, file) := if immediate then written.flush file else (written, file)
      (.ok (),
        { archive with
          channel := .writer settled
          catalog := archive.catalog.insert path ⟨archive.stop + blockLength, contents.length⟩
          stop := archive.stop + entryLength contents.length
          inPlace := true },
        file)

/-- Write an entry. After a failure the next one starts over at the end. -/
def write (archive : Archive) (file : List UInt8) (time : Nat) (path : String)
    (contents : List UInt8) (immediate : Bool) : Except ArchiveError Unit × Archive × List UInt8 :=
  match archive.append file time path contents immediate with
  | (.ok (), after, file) => (.ok (), after, file)
  | (.error error, after, file) => (.error error, { after with inPlace := false }, file)

/-- The contents at an extent of a file, and the position at which reading them stops. -/
def readExtent (file : List UInt8) (extent : Extent) : Except IoError (List UInt8) × Nat :=
  let (contents, source) := readContents (.ofBytes file) ⟨"", extent.offset, extent.size⟩
  (contents, source.position)

/-- Read an entry; a path without entry reads as empty. -/
def read (archive : Archive) (file : List UInt8) (path : String) :
    Except ArchiveError (List UInt8) × Archive × List UInt8 :=
  match archive.channel with
  | .closed => (.error .closed, archive, file)
  | .reader =>
    match archive.catalog.get? path with
    | none => (.ok [], archive, file)
    | some extent =>
      match readExtent file extent with
      | (.ok contents, _) => (.ok contents, { archive with inPlace := false }, file)
      | (.error fault, _) => (.error (.io fault), archive, file)
  | .writer writer =>
    if archive.mode = .write then (.error (.invalidMode (.writeOnly .tar)), archive, file)
    else
      let (flushed, file) := writer.flush file
      match archive.catalog.get? path with
      | none => (.ok [], { archive with channel := .writer flushed }, file)
      | some extent =>
        match readExtent file extent with
        | (.ok contents, position) =>
          (.ok contents, { archive with channel := .writer ⟨[], position⟩, inPlace := false }, file)
        | (.error fault, position) =>
          (.error (.io fault), { archive with channel := .writer ⟨[], position⟩ }, file)

/-- Whether the archive is open. -/
def requireOpen (archive : Archive) : Except ArchiveError Unit :=
  if archive.channel = .closed then .error .closed else .ok ()

/-- Begin a batch of writes, which changes nothing. -/
def beginBatch (archive : Archive) : Except ArchiveError Unit := archive.requireOpen

/-- End a batch of writes, which passes on what is pending. -/
def endBatch (archive : Archive) (file : List UInt8) :
    Except ArchiveError Unit × Archive × List UInt8 :=
  match archive.channel with
  | .closed => (.error .closed, archive, file)
  | .reader => (.ok (), archive, file)
  | .writer writer =>
    let (flushed, file) := writer.flush file
    (.ok (), { archive with channel := .writer flushed }, file)

/-- Close the archive: its end follows the last entry, and the file ends there. -/
def close (archive : Archive) (file : List UInt8) : Archive × List UInt8 :=
  match archive.channel with
  | .closed | .reader => ({ archive with channel := .closed }, file)
  | .writer writer =>
    let (placed, file) := writer.seek file archive.stop
    let (written, file) := placed.writeAll file closingRuns
    let (_, file) := written.flush file
    ({ archive with channel := .closed }, Bytes.resize file (archive.stop + closingSize))

end Archive

end Trajectory.Tar
