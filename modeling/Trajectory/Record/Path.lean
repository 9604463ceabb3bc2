import Trajectory.Record.Basic
import Trajectory.Text.Pieces
/-!
# Paths of records

A record and its path convert into each other. The layout of a path depends on the behavior:

* constant: `[group/]name[.format.resolution]`
* discrete: `[group/]frames/index/name[.format.resolution]`
* continuous: `[group/]vars/name[.format.resolution]/index[suffix]`

Reading never fails. The marker `frames` or `vars` counts only as the third segment from the
end, the two tags count only as a pair at the end of a name with a piece before them, and
whatever is not recognized stays in the group or the name. The last segment of a continuous
path is cut at its first dot into the index and the suffix. Slashes at the front are ignored.
-/
namespace Trajectory

/-- A property's name with the tags at its end. -/
structure Label where
  /-- The name without the tags. -/
  name : List Char
  /-- The format, `uint8` where there are no tags. -/
  format : Format
  /-- The resolution, `text` where there are no tags. -/
  resolution : Resolution
  deriving DecidableEq

namespace Label

/-- Read a segment: its last two pieces are tags if both are known and a piece precedes them. -/
def parse (segment : List Char) : Label :=
  match (Text.pieces '.' segment).reverse with
  | detail :: element :: next :: outer =>
    match Format.ofTag? (String.ofList element), Resolution.ofTag? (String.ofList detail) with
    | some format, some resolution =>
      ⟨Text.join '.' (next :: outer).reverse, format, resolution⟩
    | _, _ => ⟨segment, .uint8, .text⟩
  | _ => ⟨segment, .uint8, .text⟩

/-- Write a name with its tags; text has none. -/
def render (label : Label) : List Char :=
  match label.resolution.tag? with
  | none => label.name
  | some detail => label.name ++ '.' :: label.format.tag.toList ++ '.' :: detail.toList

end Label

namespace Record

/-- Segment that marks a discrete property. -/
def framesMarker : List Char := ['f', 'r', 'a', 'm', 'e', 's']

/-- Segment that marks a continuous property. -/
def varsMarker : List Char := ['v', 'a', 'r', 's']

/-- The record of a behavior, from the segments of its group and a labelled name. -/
def ofLabel (group : List (List Char)) (label : Label) (index suffix : List Char)
    (behavior : Behavior) : Record :=
  make (String.ofList (Text.join '/' group)) (String.ofList label.name) (String.ofList index)
    (String.ofList suffix) behavior label.format label.resolution

/-- The record of a path. -/
def parse (path : String) : Record :=
  match (Text.pieces '/' (trimSlashes path.toList)).reverse with
  | last :: second :: marker :: outer =>
    if marker = framesMarker then
      ofLabel outer.reverse (Label.parse last) second [] .discrete
    else if marker = varsMarker then
      ofLabel outer.reverse (Label.parse second) (last.takeWhile (· ≠ '.'))
        (last.dropWhile (· ≠ '.')) .continuous
    else
      ofLabel (second :: marker :: outer).reverse (Label.parse last) [] [] .constant
  | last :: outer => ofLabel outer.reverse (Label.parse last) [] [] .constant
  | [] => ofLabel [] (Label.parse []) [] [] .constant

/-- The name of a record with its tags. -/
def label (record : Record) : Label := ⟨record.name.toList, record.format, record.resolution⟩

/-- The part of a path after the group. -/
def localPath (record : Record) : List Char :=
  match record.behavior with
  | .constant => record.label.render
  | .discrete => framesMarker ++ '/' :: record.index.toList ++ '/' :: record.label.render
  | .continuous =>
    varsMarker ++ '/' :: record.label.render ++ '/' :: record.index.toList ++ record.suffix.toList

/-- The path of a record. -/
def path (record : Record) : String :=
  String.ofList
    (if record.group = "" then record.localPath
      else record.group.toList ++ '/' :: record.localPath)

end Record

end Trajectory
