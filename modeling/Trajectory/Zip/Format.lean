import Trajectory.Bytes.Crc32
import Trajectory.Bytes.LittleEndian
import Trajectory.Text.Utf8
import Trajectory.Zip.Options
/-!
# Layout of zip files

A zip file holds the entries one after the other, each a local record with its stored bytes, then
the directory, which repeats what is known of each entry and says where its record starts, and
last the end record, which says where the directory is and may carry a comment. A file of the new
form can have a second end record before it, with wider numbers, and a locator that leads there.
A record of an entry of the new form carries its sizes in a field of the kind `0x0001`, in eight
bytes each. Numbers are little-endian.
-/
namespace Trajectory.Zip

/-- Mark of a local record. -/
def localMark : Nat := 0x04034b50

/-- Mark of a directory record. -/
def directoryMark : Nat := 0x02014b50

/-- Mark of the end record. -/
def endMark : Nat := 0x06054b50

/-- Mark of the record that leads to the end record of the new form. -/
def locatorMark : Nat := 0x07064b50

/-- Mark of the end record of the new form. -/
def wideEndMark : Nat := 0x06064b50

/-- Kind of the field with eight-byte sizes. -/
def wideField : Nat := 0x0001

/-- A number of two bytes that stands for one kept elsewhere. -/
def full16 : Nat := 0xffff

/-- A number of four bytes that stands for one kept elsewhere. -/
def full32 : Nat := 0xffffffff

/-- Bytes of the fixed part of a local record. -/
def localLength : Nat := 30

/-- Bytes of the fixed part of a directory record. -/
def directoryLength : Nat := 46

/-- Bytes of the fixed part of the end record. -/
def endLength : Nat := 22

/-- Bytes of the record that leads to the end record of the new form. -/
def locatorLength : Nat := 20

/-- Bytes of the fixed part of the end record of the new form. -/
def wideEndLength : Nat := 56

/-- Bytes of the end record of the new form up to its recorded length. -/
def wideEndHead : Nat := 12

/-- Most bytes of the comment after the end record. -/
def commentLimit : Nat := 0xffff

/-- The flag of an encrypted entry. -/
def encryptedFlag : Nat := 0x0001

/-- The flag of a name in UTF-8. -/
def utf8Flag : Nat := 0x0800

/-- The version of the format that is written. -/
def version : Nat := 45

/-- What the directory tells of an entry. -/
structure Entry where
  /-- Path of the entry. -/
  name : String
  /-- The path as it is stored. -/
  storedName : List UInt8
  /-- How the contents are stored. -/
  method : Nat
  /-- The recorded check of its contents. -/
  checksum : Nat
  /-- Number of its stored bytes. -/
  length : Nat
  /-- Number of bytes of its contents. -/
  size : Nat
  /-- Where its local record starts. -/
  offset : Nat
  /-- The fields of its extra part that are kept. -/
  extra : List UInt8
  /-- Its comment. -/
  comment : String
  /-- Whether it is encrypted. -/
  encrypted : Bool
  /-- Whether it has a field of strong encryption. -/
  sealed : Bool
  deriving DecidableEq, Repr

namespace Entry

/-- The field with the number of bytes of the contents and of the stored bytes, in eight bytes
each, and the place of their local record where four bytes cannot hold it. -/
def wideSizes (size length offset : Nat) : List UInt8 :=
  let place := if offset < full32 then [] else LittleEndian.encode 8 offset
  LittleEndian.encode 2 wideField ++ LittleEndian.encode 2 (16 + place.length)
    ++ LittleEndian.encode 8 size ++ LittleEndian.encode 8 length ++ place

/-- A new entry, of contents and the bytes that they are stored as. -/
def ofContents (name : String) (options : Options) (contents stored : List UInt8)
    (offset : Nat) : Entry where
  name := name
  storedName := Utf8.encode name
  method := options.method
  checksum := (Crc32.check contents).toNat
  length := stored.length
  size := contents.length
  offset := offset
  extra := if options.wide then wideSizes contents.length stored.length offset else []
  comment := ""
  encrypted := false
  sealed := false

/-- Whether bytes are ASCII. -/
def isPlain (bytes : List UInt8) : Bool := bytes.all (· < 128)

/-- The flags that are written: a name that is UTF-8 is marked so where it or the comment is not
plain ASCII. -/
def flags (entry : Entry) : Nat :=
  let plain := isPlain entry.storedName && isPlain (Utf8.encode entry.comment)
  let marked := !plain && (Utf8.decode? entry.storedName).isSome
  (if marked then utf8Flag else 0) + (if entry.encrypted then encryptedFlag else 0)

/-- What both records of an entry share, from the version on. -/
def shared (entry : Entry) : List UInt8 :=
  LittleEndian.encode 2 version ++ LittleEndian.encode 2 entry.flags
    ++ LittleEndian.encode 2 entry.method ++ LittleEndian.encode 2 0
    ++ LittleEndian.encode 2 0x0021 ++ LittleEndian.encode 4 entry.checksum
    ++ LittleEndian.encode 4 (min entry.length full32)
    ++ LittleEndian.encode 4 (min entry.size full32)
    ++ LittleEndian.encode 2 entry.storedName.length ++ LittleEndian.encode 2 entry.extra.length

/-- The local record with the stored bytes. -/
def localRecord (entry : Entry) (stored : List UInt8) : List UInt8 :=
  LittleEndian.encode 4 localMark ++ entry.shared ++ entry.storedName ++ entry.extra ++ stored

/-- The directory record. -/
def directoryRecord (entry : Entry) : List UInt8 :=
  let comment := Utf8.encode entry.comment
  LittleEndian.encode 4 directoryMark ++ LittleEndian.encode 2 version ++ entry.shared
    ++ LittleEndian.encode 2 comment.length ++ LittleEndian.encode 2 0
    ++ LittleEndian.encode 2 0 ++ LittleEndian.encode 4 0
    ++ LittleEndian.encode 4 (min entry.offset full32) ++ entry.storedName ++ entry.extra
    ++ comment

end Entry

/-- The directory of entries. -/
def directory (entries : List Entry) : List UInt8 := entries.flatMap Entry.directoryRecord

/-- What else a file keeps when it is completed again. -/
structure Remark where
  /-- The comment after the end record. -/
  comment : List UInt8
  /-- The bytes after the fixed part of the end record of the new form, if there is one. -/
  wideData : Option (List UInt8)
  deriving DecidableEq, Repr

namespace Remark

/-- Nothing else. -/
def none : Remark := ⟨[], .none⟩

end Remark

/-- The end record of the new form, and the locator that leads to it. -/
def wideEnd (count size start : Nat) (data : List UInt8) : List UInt8 :=
  LittleEndian.encode 4 wideEndMark
    ++ LittleEndian.encode 8 (wideEndLength - wideEndHead + data.length)
    ++ LittleEndian.encode 2 version ++ LittleEndian.encode 2 version
    ++ LittleEndian.encode 4 0 ++ LittleEndian.encode 4 0 ++ LittleEndian.encode 8 count
    ++ LittleEndian.encode 8 count ++ LittleEndian.encode 8 size ++ LittleEndian.encode 8 start
    ++ data ++ LittleEndian.encode 4 locatorMark ++ LittleEndian.encode 4 0
    ++ LittleEndian.encode 8 (start + size) ++ LittleEndian.encode 4 1

/-- The end record. -/
def endRecord (count size start : Nat) (comment : List UInt8) : List UInt8 :=
  LittleEndian.encode 4 endMark ++ LittleEndian.encode 2 0 ++ LittleEndian.encode 2 0
    ++ LittleEndian.encode 2 (min count full16) ++ LittleEndian.encode 2 (min count full16)
    ++ LittleEndian.encode 4 (min size full32) ++ LittleEndian.encode 4 (min start full32)
    ++ LittleEndian.encode 2 comment.length ++ comment

/-- Everything from the directory on, when it starts at a place. -/
def ending (entries : List Entry) (remark : Remark) (start : Nat) : List UInt8 :=
  let listing := directory entries
  let wide := full16 < entries.length ∨ full32 < max listing.length start ∨ remark.wideData.isSome
  let second :=
    if wide then wideEnd entries.length listing.length start (remark.wideData.getD []) else []
  listing ++ second ++ endRecord entries.length listing.length start remark.comment

end Trajectory.Zip
