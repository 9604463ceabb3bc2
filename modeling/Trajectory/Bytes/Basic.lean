/-!
# Stored bytes

The contents of a file are a list of bytes. Writing at an offset replaces bytes and lengthens
the file when it reaches past the end; a gap before the offset is filled with zeros. Setting a
length cuts the file or lengthens it with zeros. A run of bytes is cut into chunks of one size,
the last of which may be shorter, and can be copied from a distance back in what was written.
-/
namespace Trajectory.Bytes

/-- A run of zero bytes. -/
def zeros (count : Nat) : List UInt8 := List.replicate count 0

/-- Cut or lengthen with zeros to an exact length. -/
def resize (data : List UInt8) (length : Nat) : List UInt8 :=
  data.take length ++ zeros (length - data.length)

/-- Write bytes at an offset. Writing nothing changes nothing, wherever the offset lies. -/
def overwrite (data : List UInt8) (offset : Nat) (bytes : List UInt8) : List UInt8 :=
  if bytes.isEmpty then data
  else
    data.take offset
      ++ (zeros (offset - data.length) ++ (bytes ++ data.drop (offset + bytes.length)))

/-- The bytes of a range, if the whole range lies inside. -/
def slice? (data : List UInt8) (offset length : Nat) : Option (List UInt8) :=
  let found := (data.drop offset).take length
  if found.length = length then some found else none

/-- Cut into chunks of `size` bytes; only the last may be shorter, and none is empty. A size of
zero counts as one. -/
def chunks (size : Nat) (data : List UInt8) : List (List UInt8) :=
  match data with
  | [] => []
  | first :: rest =>
    (first :: rest).take (max size 1) :: chunks size (rest.drop (max size 1 - 1))
termination_by data.length
decreasing_by simp only [List.length_drop, List.length_cons]; omega

/-- Copy one byte after another from a distance back in an output, which is held last byte first.
What would come from before the output is zero. -/
def copyBack (distance : Nat) : Nat → List UInt8 → List UInt8
  | 0, output => output
  | count + 1, output => copyBack distance count (output.getD (distance - 1) 0 :: output)

/-- A short description of a buffer, which tells its length only. -/
def describe (data : List UInt8) : String := s!"SharedBuffer \x7b len: {data.length} \x7d"

/-- Writing nothing changes nothing. -/
theorem overwrite_nil (data : List UInt8) (offset : Nat) : overwrite data offset [] = data := rfl

/-- A resized file has the length asked for. -/
theorem length_resize (data : List UInt8) (length : Nat) :
    (resize data length).length = length := by
  simp only [resize, zeros, List.length_append, List.length_take, List.length_replicate]
  omega

/-- A run of zeros has its length. -/
theorem length_zeros (count : Nat) : (zeros count).length = count := List.length_replicate

/-- Runs of zeros are one run. -/
theorem zeros_append (count more : Nat) : zeros count ++ zeros more = zeros (count + more) :=
  List.replicate_append_replicate

/-- Written bytes lengthen a file that they reach past. -/
theorem length_overwrite (data : List UInt8) (offset : Nat) {bytes : List UInt8}
    (some_byte : bytes ≠ []) :
    (overwrite data offset bytes).length = max data.length (offset + bytes.length) := by
  have full : bytes.isEmpty = false := by simpa using some_byte
  simp only [overwrite, full, Bool.false_eq_true, ↓reduceIte, List.length_append, List.length_take,
    length_zeros, List.length_drop]
  omega

/-- A file reaches to the end of what was written. -/
theorem le_length_overwrite (data : List UInt8) (offset : Nat) {bytes : List UInt8}
    (some_byte : bytes ≠ []) :
    offset + bytes.length ≤ (overwrite data offset bytes).length := by
  rw [length_overwrite data offset some_byte]
  exact Nat.le_max_right ..

/-- A file that is long enough is cut. -/
theorem resize_of_le {data : List UInt8} {length : Nat} (within : length ≤ data.length) :
    resize data length = data.take length := by
  rw [resize, Nat.sub_eq_zero_of_le within, zeros, List.replicate_zero, List.append_nil]

/-- Up to the end of what was written, a file is what it was before, and that. -/
theorem resize_overwrite (data : List UInt8) (offset : Nat) (bytes : List UInt8) :
    resize (overwrite data offset bytes) (offset + bytes.length) =
      resize data offset ++ bytes := by
  by_cases none : bytes = []
  · simp [none, overwrite_nil]
  · have full : bytes.isEmpty = false := by simpa using none
    rw [resize_of_le (le_length_overwrite data offset none)]
    have before := length_resize data offset
    simp only [overwrite, full, Bool.false_eq_true, ↓reduceIte]
    rw [← List.append_assoc, ← List.append_assoc, ← resize]
    rw [List.take_left' (by rw [List.length_append, before])]

/-- Bytes that are written one after the other are written together. -/
theorem overwrite_overwrite (data : List UInt8) (offset : Nat) (first second : List UInt8) :
    overwrite (overwrite data offset first) (offset + first.length) second =
      overwrite data offset (first ++ second) := by
  by_cases none_first : first = []
  · simp [none_first, overwrite_nil]
  by_cases none_second : second = []
  · simp [none_second, overwrite_nil]
  have reaches := length_overwrite data offset none_first
  have full_first : first.isEmpty = false := by simpa using none_first
  have full_second : second.isEmpty = false := by simpa using none_second
  have full : (first ++ second).isEmpty = false := by simp [none_first]
  have up_to : (overwrite data offset first).take (offset + first.length) =
      resize data offset ++ first := by
    rw [← resize_overwrite, resize_of_le (le_length_overwrite data offset none_first)]
  have after : (overwrite data offset first).drop (offset + first.length + second.length) =
      data.drop (offset + (first ++ second).length) := by
    have length := length_resize data offset
    simp only [overwrite, full_first, Bool.false_eq_true, ↓reduceIte]
    rw [← List.append_assoc, ← List.append_assoc, ← resize, List.drop_append, List.drop_drop]
    rw [List.drop_of_length_le (by rw [List.length_append, length]; omega), List.nil_append]
    congr 1
    rw [List.length_append, List.length_append, length]
    omega
  rw [overwrite, full_second]
  simp only [Bool.false_eq_true, ↓reduceIte]
  rw [up_to, after, reaches, Nat.sub_eq_zero_of_le (Nat.le_max_right ..), overwrite, full]
  simp [resize, zeros]

/-- There are as many bytes in a range as it takes if the whole range lies inside. -/
theorem length_slice {data : List UInt8} {offset length : Nat}
    (inside : offset + length ≤ data.length) :
    ((data.drop offset).take length).length = length := by
  rw [List.length_take, List.length_drop]
  omega

/-- Bytes in the first part of some data do not depend on what follows. -/
theorem slice_append {data : List UInt8} {offset length : Nat} (rest : List UInt8)
    (inside : offset + length ≤ data.length) :
    ((data ++ rest).drop offset).take length = (data.drop offset).take length := by
  rw [List.drop_append_of_le_length (by omega), List.take_append_of_le_length]
  rw [List.length_drop]
  omega

/-- Bytes within a length stay as they are when a file is cut or lengthened to it. -/
theorem slice_resize {data : List UInt8} {offset size length : Nat}
    (inside : offset + size ≤ data.length) (within : offset + size ≤ length) :
    ((resize data length).drop offset).take size = (data.drop offset).take size := by
  rw [resize, slice_append _ (by rw [List.length_take]; omega), List.drop_take, List.take_take]
  congr 1
  omega

/-- What a file begins with stays when the file is cut or lengthened behind it. -/
theorem prefix_resize {front data : List UInt8} (kept : front <+: data) {length : Nat}
    (within : front.length ≤ length) : front <+: resize data length := by
  obtain ⟨rest, rfl⟩ := kept
  refine ⟨rest.take (length - front.length) ++ zeros (length - (front ++ rest).length), ?_⟩
  rw [resize, List.take_append, List.take_of_length_le within, List.append_assoc]

/-- What a file begins with stays when bytes are written behind it. -/
theorem prefix_overwrite {front data : List UInt8} (kept : front <+: data) {offset : Nat}
    (behind : front.length ≤ offset) (bytes : List UInt8) :
    front <+: overwrite data offset bytes := by
  unfold overwrite
  split
  · exact kept
  · rw [← List.append_assoc]
    exact (prefix_resize kept behind).trans (List.prefix_append _ _)

/-- Bytes that a file begins with are where they were. -/
theorem slice_of_prefix {front data : List UInt8} (kept : front <+: data) {offset length : Nat}
    (inside : offset + length ≤ front.length) :
    (data.drop offset).take length = (front.drop offset).take length := by
  obtain ⟨rest, rfl⟩ := kept
  exact slice_append rest inside

/-- Bytes from inside the first part of some data and past its end are the rest of that part, and
some of what follows. -/
theorem slice_past {front : List UInt8} {offset length : Nat}
    (past : front.length ≤ offset + length) (rest : List UInt8) :
    ((front ++ rest).drop offset).take length = front.drop offset ++
      (rest.drop (offset - front.length)).take (length - (front.length - offset)) := by
  have short : (front.drop offset).length ≤ length := by
    rw [List.length_drop]
    omega
  rw [List.drop_append, List.take_append, List.take_of_length_le short, List.length_drop]

/-- Some of a run of zeros is a run of zeros. -/
theorem slice_zeros (count offset length : Nat) :
    ((zeros count).drop offset).take length = zeros (min length (count - offset)) := by
  rw [zeros, List.drop_replicate, List.take_replicate, zeros]

/-- Data that have a run of bytes at an offset. -/
def At (data : List UInt8) (offset : Nat) (run : List UInt8) : Prop :=
  ∃ before after, data = before ++ (run ++ after) ∧ before.length = offset

namespace At

variable {data front back run : List UInt8} {offset : Nat}

/-- The run is read back at its offset. -/
theorem slice (found : At data offset run) : (data.drop offset).take run.length = run := by
  obtain ⟨before, after, rfl, rfl⟩ := found
  simp

/-- The run lies inside the data. -/
theorem le_length (found : At data offset run) : offset + run.length ≤ data.length := by
  obtain ⟨before, after, rfl, rfl⟩ := found
  simp only [List.length_append]
  omega

/-- The first part of a run is at the same offset. -/
theorem left (found : At data offset (front ++ back)) : At data offset front := by
  obtain ⟨before, after, rfl, rfl⟩ := found
  exact ⟨before, back ++ after, by rw [List.append_assoc], rfl⟩

/-- The second part of a run is behind the first. -/
theorem right (found : At data offset (front ++ back)) :
    At data (offset + front.length) back := by
  obtain ⟨before, after, rfl, rfl⟩ := found
  exact ⟨before ++ front, after, by simp only [List.append_assoc], List.length_append⟩

end At

/-- Putting the chunks back together gives the data. -/
theorem flatten_chunks (size : Nat) (data : List UInt8) : (chunks size data).flatten = data := by
  fun_induction chunks size data with
  | case1 => rfl
  | case2 first rest ih =>
    rw [List.flatten_cons, ih]
    obtain ⟨count, counted⟩ : ∃ count, max size 1 = count + 1 := ⟨max size 1 - 1, by omega⟩
    simp [counted]

end Trajectory.Bytes
