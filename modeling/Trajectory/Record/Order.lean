import Trajectory.Record.Basic
/-!
# Orders of records and indices

Records are ordered by group, name, suffix, behavior, format, resolution and index, texts by
their characters. Indices have an order of their own: a shorter one comes first, and of two
equally long ones the lesser text, so that numerals without leading zeros are in numeric order.
-/
namespace Trajectory

namespace Record

/-- The order of records, decided by the first field that differs. -/
def order (left right : Record) : Ordering :=
  (compare left.group right.group)
    |>.then (compare left.name right.name)
    |>.then (compare left.suffix right.suffix)
    |>.then (compare left.behavior.rank right.behavior.rank)
    |>.then (compare left.format.rank right.format.rank)
    |>.then (compare left.resolution.rank right.resolution.rank)
    |>.then (compare left.index right.index)

/-- Records compare in their order. -/
instance : Ord Record := ⟨order⟩

/-- Records in ascending order. -/
def sort (records : List Record) : List Record :=
  records.mergeSort fun left right => (order left right).isLE

end Record

/-- The order of indices: by stored length, then by text. -/
def indexOrder (left right : String) : Ordering :=
  (compare left.utf8ByteSize right.utf8ByteSize).then (compare left right)

/-- Indices in ascending order. -/
def sortIndices (indices : List String) : List String :=
  indices.mergeSort fun left right => (indexOrder left right).isLE

end Trajectory
