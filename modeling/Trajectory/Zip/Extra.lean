import Trajectory.Bytes.Basic
import Trajectory.Zip.Probe
/-!
# Extra parts of directory records

The extra part of a record is a run of fields, each a kind, a length and that many bytes. Some
kinds change what the record says of its entry: sizes and a place in eight bytes, a name or a
comment in UTF-8 with a check of the one it stands for, and the method below a strong encryption.
A field that breaks the rules of its kind spoils the whole directory. A field that is cut off ends
the part, and the part is kept as it is; of a part that is read to its end the last field with
eight-byte sizes is dropped.
-/
namespace Trajectory.Zip

/-- Kind of the field of strong encryption. -/
def sealField : Nat := 0x9901

/-- Kind of the field with exact times. -/
def timesField : Nat := 0x5455

/-- Kind of the field with times of another system. -/
def ticksField : Nat := 0x000a

/-- Kind of the field with a comment in UTF-8. -/
def commentField : Nat := 0x6375

/-- Kind of the field with a name in UTF-8. -/
def nameField : Nat := 0x7075

/-- Bytes of a field before its data. -/
def fieldHead : Nat := 4

/-- Why a field is not taken. -/
inductive FieldFault where
  /-- It is cut off; the entry is what it said up to there. -/
  | cut (entry : Entry)
  /-- It breaks the rules of its kind. -/
  | refused
  deriving DecidableEq, Repr

namespace Entry

variable (entry : Entry) (data : List UInt8)

/-- A number of the data of a field. -/
def number (width position : Nat) : Except FieldFault Nat :=
  match number? width data position with
  | some value => .ok value
  | none => .error (.cut entry)

/-- Bytes of the data of a field. -/
def run (position count : Nat) : Except FieldFault (List UInt8) :=
  match Bytes.slice? data position count with
  | some bytes => .ok bytes
  | none => .error (.cut entry)

/-- The number of eight bytes at a position and the position after it, if there is one; otherwise
the number known. -/
def widened (present : Bool) (known position : Nat) : Except FieldFault (Nat × Nat) := do
  if present then
    let value ← entry.number data 8 position
    .ok (value, position + 8)
  else .ok (known, position)

/-- Take sizes and the place in eight bytes each: all three where there is room for them,
otherwise those that do not fit into four. -/
def takeWide (length : Nat) : Except FieldFault (Entry × Nat) := do
  let all : Bool := 24 ≤ length
  let (size, position) ← entry.widened data (all || entry.size == full32) entry.size 0
  let entry := { entry with size := size }
  let (stored, position) ← entry.widened data (all || entry.length == full32) entry.length position
  let entry := { entry with length := stored }
  let (offset, position) ← entry.widened data (all || entry.offset == full32) entry.offset position
  let entry := { entry with offset := offset }
  if length < position then .error .refused
  else
    let _ ← entry.run data position (length - position)
    .ok (entry, length)

/-- Take exact times, each announced by a bit. A field for one time holds the first. -/
def takeTimes (length : Nat) : Except FieldFault (Entry × Nat) := do
  let announced ← entry.number data 1 0
  if length ≠ 5 ∧ length ≠ 1 + 4 * (List.range 8).countP announced.testBit then .error .refused
  else
    let times := if length = 5 then 1 else (List.range 3).countP announced.testBit
    let _ ← entry.run data 1 (4 * times)
    .ok (entry, 1 + 4 * times)

/-- Take three times of another system, the only ones that such a field may hold. -/
def takeTicks (length : Nat) : Except FieldFault (Entry × Nat) := do
  if length ≠ 32 then .error .refused
  else
    let tag ← entry.number data 2 4
    if tag ≠ 1 then .error .refused
    else
      let size ← entry.number data 2 6
      if size ≠ 24 then .error .refused
      else
        let _ ← entry.run data 8 24
        .ok (entry, length)

/-- Take the method below a strong encryption. -/
def takeSeal (length : Nat) : Except FieldFault (Entry × Nat) := do
  if length ≠ 7 then .error .refused
  else
    let form ← entry.number data 2 0
    let vendor ← entry.number data 2 2
    let strength ← entry.number data 1 4
    let method ← entry.number data 2 5
    if vendor = 0x4541 ∧ (form = 1 ∨ form = 2) ∧ (strength = 1 ∨ strength = 2 ∨ strength = 3) then
      .ok ({ entry with method := method, sealed := true }, length)
    else .error .refused

/-- A text in UTF-8 that stands for some bytes, after a byte for the version and the check of
those bytes. -/
def replacement (length : Nat) (bytes : List UInt8) :
    Except FieldFault (List UInt8 × String) := do
  let check ← entry.number data 4 1
  if length < 5 then .error .refused
  else
    let stored ← entry.run data 5 (length - 5)
    match Utf8.decode? stored with
    | some text =>
      if check = (Crc32.check bytes).toNat then .ok (stored, text)
      else .error .refused
    | none => .error .refused

/-- Take one field: the entry after it, and how many bytes of data it has. -/
def takeField (kind length : Nat) : Except FieldFault (Entry × Nat) :=
  if kind = wideField then entry.takeWide data length
  else if kind = timesField then entry.takeTimes data length
  else if kind = ticksField then entry.takeTicks data length
  else if kind = sealField then entry.takeSeal data length
  else if kind = nameField then do
    let (stored, name) ← entry.replacement data length entry.storedName
    .ok ({ entry with storedName := stored, name := name }, length)
  else if kind = commentField then do
    let (_, comment) ← entry.replacement data length (Utf8.encode entry.comment)
    .ok ({ entry with comment := comment }, length)
  else do
    let _ ← entry.run data 0 length
    .ok (entry, length)

end Entry

/-- The entry after the fields that are left of an extra part, of which some is kept. -/
def takeFields (extra kept : List UInt8) (entry : Entry) (rest : List UInt8) : Option Entry :=
  if rest.isEmpty then some { entry with extra := kept }
  else
    match _kind : number? 2 rest 0, number? 2 rest 2 with
    | some kind, some length =>
      match entry.takeField (rest.drop fieldHead) kind length with
      | .error .refused => none
      | .error (.cut entry) => some { entry with extra := extra }
      | .ok (entry, taken) =>
        let later := rest.drop (fieldHead + taken)
        let kept :=
          if kind = wideField then extra.take (extra.length - rest.length) ++ later else kept
        takeFields extra kept entry later
    | _, _ => some { entry with extra := extra }
termination_by rest.length
decreasing_by
  simp only [number?, LittleEndian.read?, List.length_take, List.length_drop, fieldHead] at *
  split at * <;> simp_all
  omega

/-- The entry that a record and its extra part tell of; nothing where a field is refused. -/
def takeExtra (entry : Entry) (extra : List UInt8) : Option Entry :=
  takeFields extra extra entry extra

end Trajectory.Zip
