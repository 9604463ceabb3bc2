import Trajectory.Record.Tags
/-!
# Records

A record is the structured form of an archive path: a property, and the index of one of its
frames. Three rules hold of every record, so that a record can be written as a path: a group
starts with no slash, text has the byte format, and only a continuous property has a suffix.
`Record.make` establishes them from arbitrary fields, and a change of the index keeps them.
-/
namespace Trajectory

/-- The characters left once every slash at the front is dropped. -/
def trimSlashes (text : List Char) : List Char := text.dropWhile (· = '/')

/-- What is left starts with no slash. -/
theorem head?_trimSlashes (text : List Char) : (trimSlashes text).head? ≠ some '/' := by
  induction text with
  | nil => simp [trimSlashes]
  | cons c rest ih =>
    by_cases slash : c = '/'
    · simpa [trimSlashes, slash] using ih
    · simp [trimSlashes, slash]

/-- A text that starts with no slash is left as it is. -/
theorem trimSlashes_of_head? {text : List Char} (trimmed : text.head? ≠ some '/') :
    trimSlashes text = text := by
  cases text with
  | nil => rfl
  | cons c rest =>
    have different : c ≠ '/' := by simpa using trimmed
    simp [trimSlashes, different]

/-- A property and the index of one frame of it. -/
structure Record where
  /-- Path of the property's group, empty for none. -/
  group : String
  /-- Name of the property, without its tags. -/
  name : String
  /-- What follows the index of a continuous property. -/
  suffix : String
  /-- How the property varies in time. -/
  behavior : Behavior
  /-- Type of the elements. -/
  format : Format
  /-- Level of detail. -/
  resolution : Resolution
  /-- The frame, empty for none. -/
  index : String
  /-- A group starts with no slash. -/
  group_trimmed : group.toList.head? ≠ some '/'
  /-- Text has the byte format, since its path has no format tag. -/
  format_text : resolution = .text → format = .uint8
  /-- Only a continuous property has a suffix. -/
  suffix_continuous : behavior ≠ .continuous → suffix = ""
  deriving DecidableEq

namespace Record

/-- The record of arbitrary fields, normalized: slashes at the front of the group are dropped,
text takes the byte format, and only a continuous property keeps its suffix. -/
def make (group name index suffix : String) (behavior : Behavior) (format : Format)
    (resolution : Resolution) : Record where
  group := String.ofList (trimSlashes group.toList)
  name := name
  suffix := if behavior = .continuous then suffix else ""
  behavior := behavior
  format := if resolution = .text then .uint8 else format
  resolution := resolution
  index := index
  group_trimmed := by simpa using head?_trimSlashes group.toList
  format_text textual := by simp [textual]
  suffix_continuous other := by simp [other]

/-- The same property at another index. -/
def atFrame (record : Record) (index : String) : Record := { record with index := index }

/-- The type of a record: its property, at no index. -/
def recordType (record : Record) : Record := record.atFrame ""

/-- Take the index out of a record, which leaves its type. -/
def takeIndex (record : Record) : String × Record := (record.index, record.recordType)

/-- A type and an index make up a record. -/
theorem atFrame_recordType (record : Record) : record.recordType.atFrame record.index = record :=
  rfl

/-- Changing the index does not change the type. -/
theorem recordType_atFrame (record : Record) (index : String) :
    (record.atFrame index).recordType = record.recordType := rfl

end Record

end Trajectory
