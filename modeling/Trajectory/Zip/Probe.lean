import Trajectory.Archive.Error
import Trajectory.Zip.Format
/-!
# Telling the form of a zip file

A file is of the new form when a record before its end record leads to a second one, when a number
of the end record is kept elsewhere, when it has no entries, or when a directory record has a
field with eight-byte sizes. The end record is the last mark of one in the last bytes of the file,
as many as the longest comment and the records around it take.
-/
namespace Trajectory.Zip

/-- The number of a width at a position. -/
def number? (width : Nat) (bytes : List UInt8) (position : Nat) : Option Nat :=
  LittleEndian.read? width (bytes.drop position)

/-- The last position of an end mark among those with `endLength` bytes from there on; `left`
counts the bytes from `position` on. -/
def lastMark (position left : Nat) (found : Option Nat) : List UInt8 → Option Nat
  | [] => found
  | byte :: rest =>
    let marked := left ≥ endLength ∧ LittleEndian.read? 4 (byte :: rest) = some endMark
    lastMark (position + 1) (left - 1) (if marked then some position else found) rest

/-- The position of the end record. -/
def endPosition? (tail : List UInt8) : Option Nat := lastMark 0 tail.length none tail

/-- Whether an extra part has a field with eight-byte sizes. -/
def hasWideField (extra : List UInt8) : Bool :=
  match _kind : LittleEndian.read? 2 extra, LittleEndian.read? 2 (extra.drop 2) with
  | some kind, some size => kind = wideField || hasWideField (extra.drop (4 + size))
  | _, _ => false
termination_by extra.length
decreasing_by
  simp only [LittleEndian.read?, List.length_take] at *
  split at * <;> simp_all
  omega

/-- The extra part of the directory record at the front, and the bytes after that record; nothing
where the record is cut off. -/
def directoryExtra? (records : List UInt8) : Option (List UInt8 × List UInt8) :=
  match number? 2 records 28, number? 2 records 30, number? 2 records 32 with
  | some name, some extra, some comment =>
    if directoryLength + name + extra ≤ records.length then
      some ((records.drop (directoryLength + name)).take extra,
        records.drop (directoryLength + name + extra + comment))
    else none
  | _, _, _ => none

/-- What follows a directory record is shorter. -/
theorem length_directoryExtra? {records extra rest : List UInt8}
    (found : directoryExtra? records = some (extra, rest)) :
    rest.length < records.length := by
  unfold directoryExtra? at found
  split at found
  · split at found
    · simp only [Option.some.injEq, Prod.mk.injEq] at found
      obtain ⟨_, rfl⟩ := found
      simp only [List.length_drop, directoryLength] at *
      omega
    · contradiction
  · contradiction

/-- Whether a directory record has a field with eight-byte sizes; nothing where a record is cut
off before one is found. -/
def anyWide (records : List UInt8) : Option Bool :=
  if LittleEndian.read? 4 records = some directoryMark then
    match _found : directoryExtra? records with
    | none => none
    | some (extra, rest) => if hasWideField extra then some true else anyWide rest
  else some false
termination_by records.length
decreasing_by exact length_directoryExtra? ‹_›

/-- Whether the bytes of a file are a zip file of the new form. -/
def isWide (file : List UInt8) : Except ZipDamage Bool :=
  let window := min file.length (endLength + commentLimit + locatorLength)
  let tail := file.drop (file.length - window)
  match endPosition? tail with
  | none => .error .noEndRecord
  | some position =>
    if locatorLength ≤ position ∧ number? 4 tail (position - locatorLength) = some locatorMark then
      .ok true
    else
      match number? 2 tail (position + 10), number? 4 tail (position + 12),
          number? 4 tail (position + 16) with
      | some entries, some size, some offset =>
        if entries = full16 ∨ size = full32 ∨ offset = full32 then .ok true
        else if entries = 0 then .ok true
        else if file.length < offset + size then .error .outOfBounds
        else
          match anyWide ((file.drop offset).take size) with
          | some wide => .ok wide
          | none => .error .shortEntry
      | _, _, _ => .error .shortEndRecord

end Trajectory.Zip
