import Trajectory.Bytes.Basic
import Trajectory.IoError
import Trajectory.Sqlite.Database
import Trajectory.Text.Pieces
/-!
# Volumes

A volume is what archives are stored on: a tree of directories and files below a working
directory, and a clock. A name stands for a directory or for a numbered file, and the contents
are kept by number, so that a file that is open keeps its contents when its name is removed or
given to another file. The contents of a file are bytes, or the rows of a database. A file can be
held by a transaction, which keeps others from changing its rows.

A path is read from the working directory, segment by segment. An empty segment and a single dot
stay where they are, two dots go up, and a segment can be passed only in a directory.
-/
namespace Trajectory

/-- The contents of a file. -/
inductive Content where
  /-- Plain bytes. -/
  | bytes (data : List UInt8)
  /-- A database. -/
  | database (rows : Sqlite.Database)
  deriving DecidableEq, Repr

namespace Content

/-- The mark at the start of a database. -/
def databaseMark : List UInt8 :=
  "SQLite format 3".toList.map (fun c => UInt8.ofNat c.toNat) ++ [0]

/-- The fractions of a page that a database allots to its cells, which never vary. -/
def databaseFractions : List UInt8 := [64, 32, 32]

/-- Bytes of the four pages that the tables of a database take at least. -/
def databaseSize : Nat := 16384

/-- The pages of a database, as far as they are known: its mark, page size and fractions. -/
def databasePages : List UInt8 :=
  Bytes.resize (databaseMark ++ [16, 0, 1, 1, 0] ++ databaseFractions) databaseSize

/-- The contents as bytes. -/
def toBytes : Content → List UInt8
  | bytes data => data
  | database _ => databasePages

end Content

/-- What a name in a directory stands for. -/
inductive Node where
  /-- A directory. -/
  | directory
  /-- The file of a number. -/
  | file (number : Nat)
  deriving DecidableEq, Repr

/-- A place in a volume: the names from the working directory down, itself the empty place. -/
abbrev Place := List String

/-- A tree of directories and files, and a clock. -/
structure Volume where
  /-- What stands at each place. -/
  nodes : List (Place × Node)
  /-- The contents of every file there has been, by number. -/
  files : List Content
  /-- The files that a transaction holds. -/
  held : List Nat
  /-- The time, in seconds, that is recorded with what is written. -/
  clock : Nat
  deriving DecidableEq, Repr

namespace Volume

/-- A working directory without entries. -/
def empty (clock : Nat) : Volume := ⟨[], [], [], clock⟩

/-- Most bytes of one segment. -/
def segmentLimit : Nat := 255

/-- A path has fewer bytes than this. -/
def pathLimit : Nat := 4096

/-- The segments of a path between slashes. -/
def segments (path : String) : List String :=
  (Text.pieces '/' path.toList).map String.ofList

/-- A path of segments. -/
def joined (segments : List String) : String :=
  String.ofList (Text.join '/' (segments.map String.toList))

/-- Whether a path can be looked up at all. -/
def checkPath (path : String) : Except IoError Unit :=
  if Char.ofNat 0 ∈ path.toList then .error .nulInName
  else if path.utf8ByteSize = 0 then .error .notFound
  else if pathLimit ≤ path.utf8ByteSize then .error .nameTooLong
  else .ok ()

variable (volume : Volume)

/-- What stands at a place. -/
def nodeAt (place : Place) : Option Node :=
  if place = [] then some .directory else volume.nodes.lookup place

/-- Pass one segment. -/
def enter (here : Place) (segment : String) : Except IoError Place :=
  match volume.nodeAt here with
  | some .directory =>
    if segment = "" ∨ segment = "." then .ok here
    else if segment = ".." then .ok here.dropLast
    else if segmentLimit < segment.utf8ByteSize then .error .nameTooLong
    else
      match volume.nodeAt (here ++ [segment]) with
      | some _ => .ok (here ++ [segment])
      | none => .error .notFound
  | _ => .error .notDirectory

/-- Pass several segments. -/
def walk (here : Place) : List String → Except IoError Place
  | [] => .ok here
  | segment :: later =>
    match volume.enter here segment with
    | .ok there => walk there later
    | .error fault => .error fault

/-- The place of a path, and what stands there. -/
def find (path : String) : Except IoError (Place × Node) :=
  match checkPath path with
  | .error fault => .error fault
  | .ok () =>
    match volume.walk [] (segments path) with
    | .error fault => .error fault
    | .ok place =>
      match volume.nodeAt place with
      | some node => .ok (place, node)
      | none => .error .notFound

/-- Whether anything stands at a path. -/
def exists? (path : String) : Bool := (volume.find path).toBool

/-- Whether a directory stands at a path. -/
def isDirectory (path : String) : Bool :=
  match volume.find path with
  | .ok (_, .directory) => true
  | _ => false

/-- The number of the file at a path. -/
def openFile (path : String) : Except IoError Nat :=
  match volume.find path with
  | .error fault => .error fault
  | .ok (_, .directory) => .error .isDirectory
  | .ok (_, .file number) => .ok number

/-- The contents of a file. -/
def content (number : Nat) : Content := volume.files.getD number (.bytes [])

/-- The contents of a file as bytes. -/
def bytes (number : Nat) : List UInt8 := (volume.content number).toBytes

/-- Change the contents of a file. -/
def setContent (number : Nat) (content : Content) : Volume :=
  { volume with files := volume.files.set number content }

/-- Change the bytes of a file; a database that keeps its bytes stays what it is, whatever follows
them. -/
def setBytes (number : Nat) (data : List UInt8) : Volume :=
  match volume.content number with
  | .bytes _ => volume.setContent number (.bytes data)
  | .database rows =>
    if (Content.database rows).toBytes.isPrefixOf data then volume
    else volume.setContent number (.bytes data)

/-- A file that is given the contents it has stays what it is. -/
theorem setContent_content (number : Nat) :
    volume.setContent number (volume.content number) = volume := by
  unfold setContent content
  congr 1
  by_cases inside : number < volume.files.length
  · rw [List.getD_eq_getElem?_getD, List.getElem?_eq_getElem inside, Option.getD_some,
      List.set_getElem_self]
  · exact List.set_eq_of_length_le (Nat.not_lt.mp inside)

/-- A file that is given the bytes it has stays what it is. -/
theorem setBytes_bytes (number : Nat) :
    volume.setBytes number (volume.bytes number) = volume := by
  have same := volume.setContent_content number
  unfold setBytes bytes
  split
  · next data stored => rw [stored] at same ⊢; exact same
  · next rows stored =>
    rw [stored, if_pos (List.isPrefixOf_iff_prefix.mpr (List.prefix_refl _))]

/-- Read a whole file. -/
def load (path : String) : Except IoError (List UInt8) :=
  match volume.openFile path with
  | .ok number => .ok (volume.bytes number)
  | .error fault => .error fault

/-- The segments of a path with those that stay where they are left out, and with those that go
up, whatever there is, taken against the segment before. -/
def settled (path : String) : List String :=
  (segments path).foldl
    (fun passed segment =>
      if segment = "" ∨ segment = "." then passed
      else if segment = ".." then passed.dropLast
      else passed ++ [segment])
    []

/-- The directory that a new name goes to, the name, and whether slashes follow it. -/
def splitLast (path : String) : List String × String × Bool :=
  match (segments path).reverse.dropWhile (· = "") with
  | [] => ([], "", true)
  | last :: outer => (outer.reverse, last, (segments path).getLast? = some "")

/-- The directory in which the last segment of a path stands. -/
def parentDirectory (outer : List String) : Except IoError Place :=
  match volume.walk [] outer with
  | .error fault => .error fault
  | .ok here =>
    match volume.nodeAt here with
    | some .directory => .ok here
    | _ => .error .notDirectory

/-- Add an empty file without a name. -/
def addUnnamed : Nat × Volume :=
  (volume.files.length, { volume with files := volume.files ++ [.bytes []] })

/-- Put an empty file at a place. -/
def addFile (place : Place) : Nat × Volume :=
  let (number, after) := volume.addUnnamed
  (number, { after with nodes := after.nodes ++ [(place, .file number)] })

/-- Let a transaction hold a file. -/
def hold (number : Nat) : Volume := { volume with held := number :: volume.held }

/-- End the hold of a transaction on a file. -/
def release (number : Nat) : Volume := { volume with held := volume.held.erase number }

/-- Open a file to be written from the start: what it held is gone, and a missing one is made. -/
def create (path : String) : Except IoError Nat × Volume :=
  match checkPath path with
  | .error fault => (.error fault, volume)
  | .ok () =>
    let (outer, last, slashes) := splitLast path
    match volume.parentDirectory outer with
    | .error fault => (.error fault, volume)
    | .ok here =>
      if slashes ∨ last = "." ∨ last = ".." then (.error .isDirectory, volume)
      else if segmentLimit < last.utf8ByteSize then (.error .nameTooLong, volume)
      else
        match volume.nodeAt (here ++ [last]) with
        | some .directory => (.error .isDirectory, volume)
        | some (.file number) => (.ok number, volume.setBytes number [])
        | none =>
          let (number, after) := volume.addFile (here ++ [last])
          (.ok number, after)

/-- Write a whole file. -/
def save (path : String) (data : List UInt8) : Except IoError Unit × Volume :=
  match volume.create path with
  | (.ok number, after) => (.ok (), after.setBytes number data)
  | (.error fault, after) => (.error fault, after)

/-- Remove the name of a file. -/
def remove (path : String) : Except IoError Unit × Volume :=
  match volume.find path with
  | .error fault => (.error fault, volume)
  | .ok (_, .directory) => (.error .isDirectory, volume)
  | .ok (place, .file _) =>
    (.ok (), { volume with nodes := volume.nodes.filter (·.1 ≠ place) })

/-- Make one directory. -/
def makeDirectory (path : String) : Except IoError Unit × Volume :=
  match checkPath path with
  | .error fault => (.error fault, volume)
  | .ok () =>
    let (outer, last, _) := splitLast path
    match volume.parentDirectory outer with
    | .error fault => (.error fault, volume)
    | .ok here =>
      if last = "" ∨ last = "." ∨ last = ".." then (.error .alreadyExists, volume)
      else if segmentLimit < last.utf8ByteSize then (.error .nameTooLong, volume)
      else if (volume.nodeAt (here ++ [last])).isSome then (.error .alreadyExists, volume)
      else (.ok (), { volume with nodes := volume.nodes ++ [(here ++ [last], .directory)] })

/-- Whether a segment stays where it is. -/
def isBlank (segment : String) : Bool := segment = "" ∨ segment = "."

/-- The segments of the directory above, last segment first; none above the first. -/
def above (reversed : List String) : Option (List String) :=
  match reversed.dropWhile isBlank with
  | [] => none
  | _ :: outer => some (outer.dropWhile isBlank)

/-- The directory above has fewer segments. -/
theorem length_above {reversed outer : List String} (found : above reversed = some outer) :
    outer.length < reversed.length := by
  have kept := (List.dropWhile_suffix isBlank (l := reversed)).length_le
  unfold above at found
  split at found
  · contradiction
  · next rest listed =>
    have shorter := (List.dropWhile_suffix isBlank (l := rest)).length_le
    rw [listed, List.length_cons] at kept
    obtain rfl := Option.some.inj found
    omega

/-- Make a directory and those above it that are missing, from its segments, the last first. -/
def makeAll (volume : Volume) (reversed : List String) : Except IoError Unit × Volume :=
  let path := joined reversed.reverse
  if path = "" then (.ok (), volume)
  else
    match volume.makeDirectory path with
    | (.ok (), after) => (.ok (), after)
    | (.error .notFound, _) =>
      match _found : above reversed with
      | none => (.error .notFound, volume)
      | some outer =>
        match makeAll volume outer with
        | (.error fault, after) => (.error fault, after)
        | (.ok (), after) =>
          match after.makeDirectory path with
          | (.ok (), made) => (.ok (), made)
          | (.error fault, _) => (if after.isDirectory path then .ok () else .error fault, after)
    | (.error fault, _) => (if volume.isDirectory path then .ok () else .error fault, volume)
termination_by reversed.length
decreasing_by exact length_above ‹_›

/-- Make a directory and those above it that are missing. -/
def makeDirectories (path : String) : Except IoError Unit × Volume :=
  volume.makeAll (segments path).reverse

/-- Everything below a place, by the names that lead there: a directory before what it holds, and
the names of one directory in order. -/
def listing (place : Place) : List (List String × Node) :=
  let below := volume.nodes.filterMap fun (other, node) =>
    if place.isPrefixOf other ∧ place ≠ other then some (other.drop place.length, node) else none
  below.mergeSort fun left right => (compare left.1 right.1).isLE

end Volume

end Trajectory
