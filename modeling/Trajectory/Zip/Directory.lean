import Trajectory.Text.CodePage437
import Trajectory.Zip.Extra
/-!
# Reading the directory of a zip file

The end record is looked for from the end of the file; one that leads to no directory is passed
over. An end record whose numbers are kept elsewhere may have a locator before it, which leads to
the end record of the new form. Bytes may precede the first entry: the first directory record
found at or after the place that the end record names tells how many, and moves the local records
by as much; in the new form the second end record tells it. A name listed again takes the place of
the first, with what was listed last. The local record of an entry says where its stored bytes
start.
-/
namespace Trajectory.Zip

/-- The method of an entry that is strongly encrypted. -/
def sealedMethod : Nat := 99

/-- The text of a name or comment, by the flag that tells its character set. -/
def decodeText (flags : Nat) (stored : List UInt8) : String :=
  if flags / utf8Flag % 2 = 1 then String.ofList (Utf8.decodeLossy stored)
  else String.ofList (stored.map CodePage437.char)

/-- The directory record at the front, and its length. -/
def listed? (records : List UInt8) : Option (Entry × Nat) := do
  let mark ← number? 4 records 0
  let flags ← number? 2 records 8
  let method ← number? 2 records 10
  let checksum ← number? 4 records 16
  let length ← number? 4 records 20
  let size ← number? 4 records 24
  let nameLength ← number? 2 records 28
  let extraLength ← number? 2 records 30
  let commentLength ← number? 2 records 32
  let offset ← number? 4 records 42
  let name ← Bytes.slice? records directoryLength nameLength
  let extra ← Bytes.slice? records (directoryLength + nameLength) extraLength
  let comment ← Bytes.slice? records (directoryLength + nameLength + extraLength) commentLength
  let entry ← takeExtra
    { name := decodeText flags name
      storedName := name
      method := method
      checksum := checksum
      length := length
      size := size
      offset := offset
      extra := extra
      comment := decodeText flags comment
      encrypted := flags % 2 = 1
      sealed := false }
    extra
  if mark = directoryMark ∧ (entry.method = sealedMethod → entry.sealed) then
    some (entry, directoryLength + nameLength + extraLength + commentLength)
  else none

/-- Where a directory is. -/
structure Location where
  /-- Number of its records. -/
  count : Nat
  /-- Position of the first. -/
  start : Nat
  /-- How far the local records have moved. -/
  shift : Nat
  /-- Whether the numbers of the end record are in keeping with each other. -/
  consistent : Bool
  /-- What else the file keeps. -/
  remark : Remark
  deriving DecidableEq, Repr

namespace Location

/-- A number of records of the directory, from a position on, and the position after them. Local
records precede the directory. -/
def records? (location : Location) : Nat → List UInt8 → Nat → Option (List Entry × Nat)
  | 0, _, position => some ([], position)
  | count + 1, records, position => do
    let (entry, taken) ← listed? records
    let moved := { entry with offset := entry.offset + location.shift }
    if moved.offset < location.start then
      let (later, stop) ← location.records? count (records.drop taken) (position + taken)
      some (moved :: later, stop)
    else none

end Location

/-- The directory of a zip file. -/
structure Listing where
  /-- The entries, each name once. -/
  entries : List Entry
  /-- Position after the last record. -/
  stop : Nat
  /-- What else the file keeps. -/
  remark : Remark
  deriving DecidableEq, Repr

/-- Entries with one put in: in place of the one of its name, or at the end. -/
def Entry.placeIn (entry : Entry) : List Entry → List Entry
  | [] => [entry]
  | other :: rest =>
    if other.name = entry.name then entry :: rest else other :: entry.placeIn rest

/-- Entries with each name once: what is told last of a name stands where the name came first. -/
def distinct (entries : List Entry) : List Entry :=
  entries.foldl (fun before entry => entry.placeIn before) []

namespace Location

/-- The directory at a location of a file. -/
def listing? (location : Location) (file : List UInt8) : Option Listing :=
  if location.consistent then
    match location.records? location.count (file.drop location.start) location.start with
    | some (entries, stop) => some ⟨distinct entries, stop, location.remark⟩
    | none => none
  else none

end Location

/-- The positions of a mark in bytes that start at a position, the last first. -/
def marks (mark position : Nat) (found : List Nat) : List UInt8 → List Nat
  | [] => found
  | byte :: rest =>
    let marked := LittleEndian.read? 4 (byte :: rest) = some mark
    marks mark (position + 1) (if marked then position :: found else found) rest

/-- The positions of a mark in a range of a file, the first first. -/
def marksBetween (mark start stop : Nat) (file : List UInt8) : List Nat :=
  (marks mark start [] ((file.take stop).drop start)).reverse

/-- What an end record says. -/
structure EndRecord where
  /-- Number of this part of the file. -/
  disk : Nat
  /-- Number of the part with the directory. -/
  directoryDisk : Nat
  /-- Number of directory records in this part. -/
  diskCount : Nat
  /-- Number of directory records. -/
  count : Nat
  /-- Where the directory starts. -/
  offset : Nat
  /-- The comment. -/
  comment : List UInt8
  deriving DecidableEq, Repr

/-- The end record at a position. -/
def endRecordAt (file : List UInt8) (position : Nat) : Except ZipError EndRecord :=
  let record := (file.drop position).take endLength
  match number? 2 record 4, number? 2 record 6, number? 2 record 8, number? 2 record 10,
      number? 4 record 16, number? 2 record 20 with
  | some disk, some directoryDisk, some diskCount, some count, some offset, some length =>
    match Bytes.slice? file (position + endLength) length with
    | some comment => .ok ⟨disk, directoryDisk, diskCount, count, offset, comment⟩
    | none => .error .commentOutside
  | _, _, _, _, _, _ => .error .unreadable

/-- What a locator says. -/
structure Locator where
  /-- Number of the part with the second end record. -/
  disk : Nat
  /-- Where the second end record is. -/
  offset : Nat
  /-- Number of parts. -/
  disks : Nat
  deriving DecidableEq, Repr

/-- The locator before the end record at a position, if its numbers are kept elsewhere. -/
def locator? (file : List UInt8) (position : Nat) (record : EndRecord) : Option Locator := do
  if (record.count = full16 ∨ record.offset = full32) ∧ locatorLength ≤ position then
    let start := position - locatorLength
    let mark ← number? 4 file start
    let disk ← number? 4 file (start + 4)
    let offset ← number? 8 file (start + 8)
    let disks ← number? 4 file (start + 16)
    if mark = locatorMark then some ⟨disk, offset, disks⟩ else none
  else none

/-- The directory that the end record of the new form at a position leads to. It ends where the
locator starts. -/
def wideLocation (file : List UInt8) (comment : List UInt8) (locator : Locator)
    (stop position : Nat) : Except ZipError Location :=
  let record := (file.drop position).take wideEndLength
  match number? 8 record 4, number? 2 record 12, number? 2 record 14, number? 4 record 16,
      number? 4 record 20, number? 8 record 24, number? 8 record 32, number? 8 record 48 with
  | some size, some made, some needed, some disk, some directoryDisk, some diskCount, some count,
      some offset =>
    if size + wideEndHead < wideEndLength then .error .wideEndShort
    else if stop - position < size + wideEndHead then .error .wideEndLong
    else if directoryDisk ≠ locator.disk then .error .wideEndDisk
    else if size + wideEndHead ≠ stop - position then .error .wideEndLength
    else if position < count * directoryLength + offset then .error .wideEndCount
    else
      let shift := position - locator.offset
      .ok
        { count := count
          start := offset + shift
          shift := shift
          consistent := disk = directoryDisk ∧ diskCount ≤ count ∧ needed ≤ made
          remark := ⟨comment, some ((file.take stop).drop (position + wideEndLength))⟩ }
  | _, _, _, _, _, _, _, _ => .error .unreadable

/-- The first location that one of some positions leads to; otherwise the fault of the last. -/
def firstLocation (fault : ZipError) (locate : Nat → Except ZipError Location) :
    List Nat → Except ZipError Location
  | [] => .error fault
  | position :: later =>
    match locate position with
    | .ok location => .ok location
    | .error fault => firstLocation fault locate later

/-- The directory that the end record at a position leads to. -/
def location (file : List UInt8) (position : Nat) (record : EndRecord) :
    Except ZipError Location :=
  match locator? file position record with
  | some locator =>
    let stop := position - locatorLength
    if stop ≤ locator.offset then .error .wideEndBehindLocator
    else if 1 < locator.disks then .error .severalDisks
    else
      firstLocation .noWideEnd (wideLocation file record.comment locator stop)
        (marksBetween wideEndMark locator.offset stop file)
  | none =>
    let found (shift : Nat) : Location :=
      { count := record.diskCount
        start := record.offset + shift
        shift := shift
        consistent := record.disk = record.directoryDisk
        remark := ⟨record.comment, .none⟩ }
    if record.count = 0 then .ok (found (position - record.offset))
    else if position ≤ record.offset then .error .directoryBehindEnd
    else
      match marksBetween directoryMark record.offset position file with
      | start :: _ => .ok (found (start - record.offset))
      | [] => .error .noDirectory

/-- The directory of a file, from the positions of its end marks: the first that can be read. A
fault is kept until a directory is passed over; that of an end record gives way to any other. -/
def findListing (file : List UInt8) (kept : Option ZipError) :
    List Nat → Except ZipError Listing
  | [] => .error (kept.getD .noEndRecord)
  | position :: earlier =>
    match endRecordAt file position with
    | .error error => findListing file (kept.or (some error)) earlier
    | .ok record =>
      match location file position record with
      | .error error => findListing file (some error) earlier
      | .ok found =>
        match found.listing? file with
        | some listing => .ok listing
        | none => findListing file none earlier

/-- The directory of a file. -/
def listing (file : List UInt8) : Except ZipError Listing :=
  findListing file none (marks endMark 0 [] file)

/-- An entry, and where its stored bytes start. -/
structure Held where
  /-- The entry. -/
  entry : Entry
  /-- Where its stored bytes start. -/
  start : Nat
  deriving DecidableEq, Repr

/-- Where the stored bytes of an entry start, after its local record. -/
def hold (file : List UInt8) (entry : Entry) : Except ZipError Held :=
  let record := (file.drop entry.offset).take localLength
  match number? 4 record 0, number? 2 record 26, number? 2 record 28 with
  | some mark, some name, some extra =>
    if mark = localMark then .ok ⟨entry, entry.offset + localLength + name + extra⟩
    else .error .noLocalHeader
  | _, _, _ => .error .unreadable

/-- Where the stored bytes of all entries start. -/
def holdAll (file : List UInt8) : List Entry → Except ZipError (List Held)
  | [] => .ok []
  | entry :: later =>
    match hold file entry, holdAll file later with
    | .ok held, .ok others => .ok (held :: others)
    | .error error, _ | .ok _, .error error => .error error

end Trajectory.Zip
