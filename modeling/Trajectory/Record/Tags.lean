/-!
# Tags of a record

How a property varies in time, what its elements are, and how finely it is resolved. A format
and a resolution have tags that stand at the end of a stored name; a textual property has none.
The three listings are ordered by position.
-/
namespace Trajectory

/-- How a property varies in time. -/
inductive Behavior where
  /-- One value for the whole trajectory. -/
  | constant
  /-- A value for each frame, with the frame's index before the name. -/
  | discrete
  /-- A value for each index of its own, with the index after the name. -/
  | continuous
  deriving DecidableEq, Repr, Inhabited

/-- Binary type of the elements of a property. -/
inductive Format where
  /-- Binary floating point of 32 bits. -/
  | float32
  /-- Binary floating point of 64 bits. -/
  | float64
  /-- Signed integer of 32 bits. -/
  | int32
  /-- Signed integer of 64 bits. -/
  | int64
  /-- A byte. -/
  | uint8
  /-- Unsigned integer of 32 bits. -/
  | uint32
  /-- Unsigned integer of 64 bits. -/
  | uint64
  deriving DecidableEq, Repr, Inhabited

/-- Level of detail of a property. -/
inductive Resolution where
  /-- Text, or bytes of no further structure. -/
  | text
  /-- One element. -/
  | uniform
  /-- One element for each individual. -/
  | individual
  deriving DecidableEq, Repr, Inhabited

namespace Behavior

/-- Position in the listing, which orders behaviors. -/
def rank : Behavior → Nat
  | constant => 0
  | discrete => 1
  | continuous => 2

end Behavior

namespace Format

/-- Every format, in order. -/
def all : List Format := [float32, float64, int32, int64, uint8, uint32, uint64]

/-- Position in the listing, which orders formats. -/
def rank : Format → Nat
  | float32 => 0
  | float64 => 1
  | int32 => 2
  | int64 => 3
  | uint8 => 4
  | uint32 => 5
  | uint64 => 6

/-- The tag in a stored name. -/
def tag : Format → String
  | float32 => "f32"
  | float64 => "f64"
  | int32 => "i32"
  | int64 => "i64"
  | uint8 => "u8"
  | uint32 => "u32"
  | uint64 => "u64"

/-- The format of a tag. -/
def ofTag? (text : String) : Option Format := all.find? fun format => format.tag = text

/-- Bytes of one element. -/
def width : Format → Nat
  | uint8 => 1
  | float32 | int32 | uint32 => 4
  | float64 | int64 | uint64 => 8

/-- Every element takes at least one byte. -/
theorem width_pos (format : Format) : 0 < format.width := by cases format <;> decide

/-- The tag of a format names that format. -/
theorem ofTag?_tag (format : Format) : ofTag? format.tag = some format := by
  cases format <;> decide

end Format

namespace Resolution

/-- Position in the listing, which orders resolutions. -/
def rank : Resolution → Nat
  | text => 0
  | uniform => 1
  | individual => 2

/-- The tag in a stored name; text has none. -/
def tag? : Resolution → Option String
  | text => none
  | uniform => some "uni"
  | individual => some "ind"

/-- The resolution of a tag. -/
def ofTag? (tag : String) : Option Resolution :=
  [uniform, individual].find? fun resolution => resolution.tag? = some tag

end Resolution

end Trajectory
