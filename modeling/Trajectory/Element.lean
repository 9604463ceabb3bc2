import Trajectory.Bytes.Basic
import Trajectory.Bytes.LittleEndian
import Trajectory.Record.Tags
/-!
# Elements of a property

An element is the bit pattern of one value, so that a floating-point value keeps every bit. The
elements of an individual property are stored one after the other, each low byte first; a
uniform property stores one element. Reading refuses a length that no whole number of elements
has, and an absent uniform property reads as no element.
-/
namespace Trajectory

/-- The bit pattern of one value of a format. -/
abbrev Element (format : Format) := BitVec (8 * format.width)

/-- Why stored bytes are not elements of a format. -/
inductive ElementError where
  /-- The length is not a multiple of the element width. -/
  | width (length element : Nat)
  /-- One element was expected, and the length is another one. -/
  | uniform (length element : Nat)
  deriving DecidableEq, Repr

namespace ElementError

/-- The text of the fault. -/
def message : ElementError → String
  | width length element =>
    s!"buffer of {length} bytes is not a multiple of the {element} byte element width"
  | uniform length element => s!"uniform value needs {element} bytes, found {length}"

end ElementError

namespace Format

/-- Whether the elements are floating-point values, whose number is not their bit pattern. -/
def isFloat : Format → Bool
  | float32 | float64 => true
  | _ => false

/-- Whether the elements are signed integers. -/
def isSigned : Format → Bool
  | int32 | int64 => true
  | _ => false

end Format

namespace Element

variable {format : Format}

/-- The element of an integer, reduced to the range of the format. -/
def ofInt (format : Format) (value : Int) : Element format := BitVec.ofInt _ value

/-- The integer of a bit pattern, signed where the format is. -/
def toInt (element : Element format) : Int :=
  if format.isSigned then BitVec.toInt element else element.toNat

/-- The stored bytes of one element. -/
def encodeOne (element : Element format) : List UInt8 :=
  LittleEndian.encode format.width element.toNat

/-- The stored bytes of several elements. -/
def encode (elements : List (Element format)) : List UInt8 := elements.flatMap encodeOne

/-- The element stored in a run of bytes of its width. -/
def ofBytes (format : Format) (bytes : List UInt8) : Element format :=
  BitVec.ofNat _ (LittleEndian.decode bytes)

/-- Read as many elements as there are. -/
def decode (format : Format) (bytes : List UInt8) : Except ElementError (List (Element format)) :=
  if bytes.length % format.width = 0 then
    .ok ((Bytes.chunks format.width bytes).map (ofBytes format))
  else .error (.width bytes.length format.width)

/-- Read the element of a uniform property, or none where nothing is stored. -/
def decodeOne (format : Format) (bytes : List UInt8) :
    Except ElementError (Option (Element format)) :=
  if bytes.length = 0 then .ok none
  else if bytes.length = format.width then .ok (some (ofBytes format bytes))
  else .error (.uniform bytes.length format.width)

end Element

end Trajectory
