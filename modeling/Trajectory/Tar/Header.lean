import Trajectory.Bytes.Basic
import Trajectory.Tar.Error
import Trajectory.Text.Utf8
/-!
# Headers of tar entries

An entry starts with a block of 512 bytes that holds its path and its size. A path of fewer than
100 bytes is the name; the last 100 bytes of a longer one are the name and the bytes before them,
at most 154, the lead. Numbers are octal digits that end in a NUL. The checksum is the sum of all
bytes, with its own field counted as spaces.

| Offset | Width | Field |
| -----: | ----: | ----- |
| 0 | 100 | name |
| 100 | 8 | permissions, `0000644` |
| 108 | 8 | owner, zero |
| 116 | 8 | group, zero |
| 124 | 12 | size |
| 136 | 12 | time of modification |
| 148 | 8 | checksum: six digits, NUL, space |
| 156 | 1 | kind, `0` |
| 257 | 6 | `ustar` and NUL |
| 263 | 2 | `00` |
| 345 | 155 | lead of a long path |
-/
namespace Trajectory.Tar

/-- Bytes of a block. -/
def blockLength : Nat := 512

/-- What an archive reads from a header. -/
structure Header where
  /-- Path of the entry. -/
  path : String
  /-- Bytes of the entry's contents. -/
  size : Nat
  deriving DecidableEq, Repr

namespace Header

/-- Bytes of the name field. -/
def nameWidth : Nat := 100

/-- Most bytes of the lead of a path. -/
def leadLimit : Nat := 154

/-- Sizes and times are below this number, in eleven octal digits. -/
def numberLimit : Nat := Nat.pow 8 11

/-- The low octal digits of a number as text, high digit first. -/
def octalDigits : Nat → Nat → List UInt8
  | 0, _ => []
  | count + 1, value => octalDigits count (value / 8) ++ [UInt8.ofNat (48 + value % 8)]

/-- A field filled up with NUL. -/
def padded (width : Nat) (bytes : List UInt8) : List UInt8 := Bytes.resize bytes width

/-- The lead and the name of a stored path. -/
def splitPath (bytes : List UInt8) : List UInt8 × List UInt8 :=
  if bytes.length < nameWidth then ([], bytes)
  else bytes.splitAt (bytes.length - nameWidth)

/-- The fields before the checksum. -/
def fieldsBefore (name : List UInt8) (size time : Nat) : List UInt8 :=
  padded nameWidth name ++ padded 8 (Utf8.encode "0000644") ++ padded 8 (Utf8.encode "0000000")
    ++ padded 8 (Utf8.encode "0000000") ++ padded 12 (octalDigits 11 size)
    ++ padded 12 (octalDigits 11 (min time (numberLimit - 1)))

/-- The fields after the checksum. -/
def fieldsAfter (lead : List UInt8) : List UInt8 :=
  padded 101 (Utf8.encode "0") ++ padded 6 (Utf8.encode "ustar") ++ padded 82 (Utf8.encode "00")
    ++ padded 167 lead

/-- The sum of some bytes. -/
def sum (bytes : List UInt8) : Nat := bytes.foldl (fun total byte => total + byte.toNat) 0

/-- The sum of some bytes, each read as signed. -/
def signedSum (bytes : List UInt8) : Int :=
  bytes.foldl (fun total byte => total + byte.toInt8.toInt) 0

/-- The sum that the checksum field adds, as eight spaces. -/
def blankSum : Nat := 8 * 32

/-- The checksum of a block. -/
def checksum (block : List UInt8) : Nat := sum (block.take 148) + blankSum + sum (block.drop 156)

/-- The checksum of a block that counts bytes as signed, as some writers have done. -/
def checksumSigned (block : List UInt8) : Int :=
  signedSum (block.take 148) + blankSum + signedSum (block.drop 156)

/-- The block of an entry. A time past the last that fits is stored as the last. -/
def encode (path : String) (size time : Nat) : Except HeaderLimit (List UInt8) :=
  let stored := Utf8.encode path
  let (lead, name) := splitPath stored
  if leadLimit < lead.length then .error (.pathTooLong stored.length)
  else if numberLimit ≤ size then .error (.sizeTooLarge size)
  else
    let before := fieldsBefore name size time
    let after := fieldsAfter lead
    let total := sum before + blankSum + sum after
    .ok (before ++ (octalDigits 6 total ++ [0, 32]) ++ after)

/-- One field of a block. -/
def field (block : List UInt8) (offset width : Nat) : List UInt8 :=
  (block.drop offset).take width

/-- The value of an octal digit. -/
def octalDigit? (byte : UInt8) : Option Nat :=
  if 48 ≤ byte ∧ byte ≤ 55 then some (byte.toNat - 48) else none

/-- The number in a field: spaces are passed over, and the digits end at a NUL or a space. -/
def octal? (bytes : List UInt8) : Option Nat :=
  match (bytes.dropWhile (· = 32)).takeWhile fun byte => byte ≠ 0 ∧ byte ≠ 32 with
  | [] => none
  | digits =>
    digits.foldlM (fun value byte => (octalDigit? byte).map (value * 8 + ·)) 0

/-- The text in a field, up to its first NUL. -/
def fieldText (bytes : List UInt8) : List Char := Utf8.decodeLossy (bytes.takeWhile (· ≠ 0))

/-- The header in a block found at an offset; a block of zeros ends the archive. -/
def decode (block : List UInt8) (offset : Nat) : Except HeaderFault (Option Header) :=
  if block.all (· = 0) then .ok none
  else if field block 257 5 ≠ Utf8.encode "ustar" then .error (.magic offset)
  else
    match octal? (field block 148 8) with
    | none => .error (.octal offset)
    | some stored =>
      if stored ≠ checksum block ∧ (stored : Int) ≠ checksumSigned block then
        .error (.checksum offset stored (checksum block))
      else
        match octal? (field block 124 12) with
        | none => .error (.octal offset)
        | some size =>
          let path := fieldText (field block 345 155) ++ fieldText (field block 0 100)
          .ok (some ⟨String.ofList path, size⟩)

end Header

end Trajectory.Tar
