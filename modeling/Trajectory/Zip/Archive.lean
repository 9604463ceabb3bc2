import Trajectory.Catalog
import Trajectory.Zip.Directory
/-!
# Archives in zip files

While open for writing, an archive puts each new entry, under a path that is not stored yet, after
the last one, and writes the directory when it is closed. In a file that is appended to, the first
new entry goes where the directory ended, over the end record, so that the file is no zip file
until it is completed; its old directory stays in the middle. Reads know the entries that the file
held when the archive was opened: an entry added since reads as missing until the archive is
opened again. An entry that was there before a session of appends loses its field with eight-byte
sizes when the file is completed; only the entries of the session have it. New contents are stored
as they are or deflated, by the compression that is asked for.

Every operation takes the bytes of the file and gives them back.
-/
namespace Trajectory.Zip

/-- What is to be completed when an archive is closed. -/
structure Session where
  /-- All entries, in order. -/
  entries : List Entry
  /-- Where the next entry goes. -/
  position : Nat
  /-- What else the file keeps. -/
  remark : Remark
  deriving DecidableEq, Repr

namespace Session

/-- Put an entry into the file. -/
def add (session : Session) (deflater : Deflate.Deflater) (file : List UInt8) (path : String)
    (contents : List UInt8) (options : Options) : Session × List UInt8 :=
  let stored := options.pack deflater contents
  let entry := Entry.ofContents path options contents stored session.position
  let record := entry.localRecord stored
  ({ session with
      entries := session.entries ++ [entry]
      position := session.position + record.length },
    Bytes.overwrite file session.position record)

/-- Write the directory after the entries. Where the file goes on behind it, what was written is
made invalid and written once more, at the end of the file. -/
def complete (session : Session) (file : List UInt8) : List UInt8 :=
  let last := ending session.entries session.remark session.position
  let stop := session.position + last.length
  let written := Bytes.overwrite file session.position last
  if stop < written.length then
    let voided :=
      Bytes.overwrite (Bytes.overwrite written session.position (Bytes.zeros 4))
        (stop - endLength - session.remark.comment.length) (Bytes.zeros 4)
    let start := written.length - last.length
    Bytes.overwrite voided start (ending session.entries session.remark start)
  else written

end Session

/-- An archive in a zip file. -/
structure Archive where
  /-- How it was opened. -/
  mode : Access
  /-- The entries that the file held. -/
  stored : List Held
  /-- What is to be completed, unless it was opened for reading. -/
  session : Option Session
  /-- The paths of all entries. -/
  catalog : Catalog Unit
  /-- Whether the archive is closed. -/
  closed : Bool
  deriving DecidableEq, Repr

namespace Archive

/-- A new archive, in an empty file. -/
def create : Archive := ⟨.write, [], some ⟨[], 0, .none⟩, .empty, false⟩

/-- The archive in a file, for reading or to append. -/
def openExisting (mode : Access) (file : List UInt8) : Except ZipError Archive :=
  match listing file with
  | .error error => .error error
  | .ok found =>
    match holdAll file found.entries with
    | .error error => .error error
    | .ok stored =>
      .ok
        { mode := mode
          stored := stored
          session := if mode = .read then none else some ⟨found.entries, found.stop, found.remark⟩
          catalog := .ofList (found.entries.map fun entry => (entry.name, ()))
          closed := false }

/-- Add an entry, unless there is one of its name to be completed. -/
def write (archive : Archive) (deflater : Deflate.Deflater) (file : List UInt8) (path : String)
    (contents : List UInt8) (compression : Compression) :
    Except ArchiveError Unit × Archive × List UInt8 :=
  if archive.closed then (.error .closed, archive, file)
  else if archive.mode = .read then (.error (.invalidMode .readOnly), archive, file)
  else
    match archive.session with
    | none => (.error .closed, archive, file)
    | some session =>
      if path ∈ session.entries.map (·.name) then (.error (.zip (.duplicate path)), archive, file)
      else
        let (session, file) := session.add deflater file path contents (.ofCompression compression)
        (.ok (),
          { archive with session := some session, catalog := archive.catalog.insert path () },
          file)

/-- The contents of an entry. -/
def contents (file : List UInt8) (held : Held) : Except ArchiveError (List UInt8) :=
  let stored := (file.drop held.start).take held.entry.length
  if held.entry.encrypted then .error (.zip .passwordRequired)
  else if held.entry.method ≠ plain ∧ held.entry.method ≠ deflated then
    .error (.zip .unsupportedMethod)
  else if held.entry.sealed then .error (.zip .wrongPassword)
  else
    match unpack? held.entry.method stored with
    | none => .error (.io .brokenStream)
    | some contents =>
      if (Crc32.check contents).toNat ≠ held.entry.checksum then .error (.io .invalidChecksum)
      else .ok contents

/-- Read an entry that the file held; any other path reads as empty. -/
def read (archive : Archive) (file : List UInt8) (path : String) :
    Except ArchiveError (List UInt8) :=
  if archive.closed then .error .closed
  else if archive.mode = .write then .error (.invalidMode (.writeOnly .zip))
  else
    match archive.stored.find? (·.entry.name = path) with
    | some held => contents file held
    | none => .ok []

/-- Whether the archive is open. -/
def requireOpen (archive : Archive) : Except ArchiveError Unit :=
  if archive.closed then .error .closed else .ok ()

/-- Close the archive, which completes its file. -/
def close (archive : Archive) (file : List UInt8) : Archive × List UInt8 :=
  ({ archive with closed := true },
    match archive.session with
    | some session => if archive.closed then file else session.complete file
    | none => file)

end Archive

end Trajectory.Zip
