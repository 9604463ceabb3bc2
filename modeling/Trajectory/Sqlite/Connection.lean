import Trajectory.Sqlite.Name
import Trajectory.Volume.Basic
/-!
# Connections to databases

A connection has the file of a database open. What the file holds by now decides whether there are
rows: an empty file has no tables, and other bytes are no database. A change needs the file to be
where it was opened, writable, and held by no other transaction. While it lasts a journal stands
beside the file, and it is complete when the journal is removed. The next to look at the rows
settles a journal that an interrupted change left. A database without a file has none of this.
-/
namespace Trajectory.Sqlite

/-- A connection to a database. -/
structure Connection where
  /-- Number of the file. -/
  number : Nat
  /-- Path of the file, if it has one. -/
  home : Option String
  /-- Whether the file may be changed. -/
  writable : Bool
  deriving DecidableEq, Repr

/-- The table of entries. -/
def fileTable : String := "file_list"

/-- The table of pieces. -/
def pieceTable : String := "file_contents"

/-- Most bytes of the path of a file, from the working directory on. -/
def pathRoom : Nat := 488

/-- Path of the journal beside a file. -/
def journal (home : String) : String := home ++ "-journal"

/-- Whether bytes count as an empty file. -/
def isBlank (data : List UInt8) : Bool := data.length ≤ 1

/-- Why bytes have no rows, for one who looks for a table. -/
def bytesFault (table : String) (data : List UInt8) : SqliteError :=
  if isBlank data then .noTable table
  else if Content.databaseMark.isPrefixOf data
      ∧ (data.drop 21).take 3 = Content.databaseFractions then .malformed
  else .notDatabase

namespace Connection

/-- Open the file of a database. -/
def openFile (volume : Volume) (file : String) (name : Name) :
    Except SqliteError Connection × Volume :=
  let segments := Volume.settled name.path
  let home := if segments = [] then "." else Volume.joined segments
  let writable := name.grant ≠ .read ∧ ¬ name.frozen
  let atRoot := segments = [] ∧ name.path.toList.head? = some '/'
  if atRoot ∨ pathRoom < home.utf8ByteSize then
    (.error (.cannotOpen file), volume)
  else
    match volume.find home with
    | .ok (_, .file number) => (.ok ⟨number, some home, writable⟩, volume)
    | .ok (_, .directory) =>
      (.error (if name.grant = .read then .diskError else .cannotOpen file), volume)
    | .error _ =>
      if name.grant = .create then
        match volume.create home with
        | (.ok number, after) => (.ok ⟨number, some home, writable⟩, after)
        | (.error _, _) => (.error (.cannotOpen file), volume)
      else (.error (.cannotOpen file), volume)

/-- The first position of a NUL in a name, in stored bytes. -/
def nulPosition (file : String) : Nat := ((Utf8.encode file).takeWhile (· ≠ 0)).length

/-- Connect to the database of a name. -/
def start (volume : Volume) (file : String) (mode : Access) :
    Except SqliteError Connection × Volume :=
  if Char.ofNat 0 ∈ file.toList then (.error (.nulInPath (nulPosition file)), volume)
  else
    match Name.ofText mode file with
    | .error error => (.error error, volume)
    | .ok name =>
      if name.isApart then
        let (number, after) := volume.addUnnamed
        (.ok ⟨number, none, name.grant ≠ .read⟩, after)
      else openFile volume file name

variable (connection : Connection) (volume : Volume)

/-- The rows of the database, for one who looks for a table. -/
def rows (table : String) : Except SqliteError Database :=
  match volume.content connection.number with
  | .database rows => .ok rows
  | .bytes data => .error (bytesFault table data)

/-- Whether the file counts as empty. -/
def isEmpty : Bool :=
  match volume.content connection.number with
  | .database _ => false
  | .bytes data => isBlank data

/-- The volume without the journal. -/
def withoutJournal : Volume :=
  match connection.home with
  | some home => (volume.remove (journal home)).2
  | none => volume

/-- Settle what stands where the journal goes, before looking at the rows. A journal whose first
byte is not zero is what an interrupted change left: a connection that may change the file removes
it, and any other is stopped by it. The journal of a change under way is left alone. -/
def settle : Except SqliteError Volume :=
  if connection.number ∈ volume.held then .ok volume
  else
    match connection.home.map fun home => volume.load (journal home) with
    | some (.error .isDirectory) =>
      if connection.isEmpty volume then .ok volume else .error .diskError
    | some (.ok (first :: _)) =>
      if connection.writable then
        .ok (if connection.isEmpty volume ∨ first ≠ 0 then connection.withoutJournal volume
          else volume)
      else if connection.isEmpty volume ∨ first = 0 then .ok volume
      else .error .readOnly
    | _ => .ok volume

/-- The rows of the database for one who looks for a table, and the volume once it is settled. -/
def look (table : String) : Except SqliteError Database × Volume :=
  match connection.settle volume with
  | .error error => (.error error, volume)
  | .ok settled => (connection.rows settled table, settled)

/-- Whether the file is where it was opened. -/
def isHome : Bool :=
  match connection.home with
  | some home => (volume.openFile home).toOption = some connection.number
  | none => true

/-- Whether a journal can be made beside the file. -/
def hasJournal : Bool :=
  match connection.home with
  | some home => (volume.create (journal home)).1.toBool
  | none => true

/-- Whether the file may be changed now. -/
def allowed : Except SqliteError Unit :=
  if connection.number ∈ volume.held then .error .locked
  else if ¬ connection.isHome volume then .error .readOnly
  else if ¬ connection.hasJournal volume then .error .noJournal
  else .ok ()

/-- The rows to be changed, if they may be, and the volume once it is settled. -/
def changeable : Except SqliteError Database × Volume :=
  if ¬ connection.writable then (.error .readOnly, volume)
  else
    match connection.look volume pieceTable with
    | (.error error, settled) => (.error error, settled)
    | (.ok rows, settled) => ((connection.allowed settled).map fun () => rows, settled)

/-- Change the rows at once. A journal that another change left beside the file goes with its
own. -/
def change (rows : Database) : Volume :=
  (connection.withoutJournal volume).setContent connection.number (.database rows)

/-- The rows of the database, with the tables made where the file is empty. -/
def prepare : Except SqliteError Database × Volume :=
  match connection.look volume fileTable with
  | (.error (.noTable _), settled) =>
    if connection.writable then
      match connection.allowed settled with
      | .error error => (.error error, settled)
      | .ok () => (.ok .empty, connection.change settled .empty)
    else (.error .readOnly, settled)
  | found => found

/-- Begin a change that lasts: the file is held, and the journal stands beside it. -/
def hold : Volume :=
  let held := volume.hold connection.number
  match connection.home with
  | some home => (held.save (journal home) []).2
  | none => held

/-- Complete a change that lasted. The rows are written first; without a journal the change
cannot be completed. -/
def commit (rows : Database) : Except SqliteError Unit × Volume :=
  let written :=
    (volume.release connection.number).setContent connection.number (.database rows)
  match connection.home with
  | none => (.ok (), written)
  | some home =>
    match written.remove (journal home) with
    | (.ok (), after) => (.ok (), after)
    | (.error _, _) => (.error .diskError, written)

end Connection

end Trajectory.Sqlite
