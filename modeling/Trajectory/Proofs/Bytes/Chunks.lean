import Mathlib.Algebra.Order.Floor.Div
import Trajectory.Bytes.Basic
/-!
# Data in consecutive pieces

Chunks are consecutive pieces of the data. All have one length but for the last, which may be
shorter and is not empty, so the length of the data tells how many there are. Data whose length is
a multiple of that of the pieces leave no shorter one, and pieces of one length that were put
together are cut apart where they meet.
-/
namespace Trajectory.Bytes

/-- Consecutive pieces of data, each of a length; the last may be shorter, but is not empty. -/
structure Cut (length : Nat) (data : List UInt8) (pieces : List (List UInt8)) : Prop where
  /-- Put together they are the data. -/
  flatten : pieces.flatten = data
  /-- Those before the last have the whole length. -/
  whole : ∀ piece ∈ pieces.dropLast, piece.length = length
  /-- The last has a byte at least, and no more than the others. -/
  last : ∀ piece ∈ pieces.getLast?, 0 < piece.length ∧ piece.length ≤ length

namespace Cut

variable {length : Nat} {data rest piece : List UInt8} {later pieces : List (List UInt8)}

/-- A run of bytes that is short enough is one piece. -/
theorem single (some_bytes : piece ≠ []) (short : piece.length ≤ length) :
    Cut length piece [piece] := by
  refine ⟨by simp, by simp, fun other same => ?_⟩
  obtain rfl : piece = other := by simpa using same
  exact ⟨List.length_pos_iff.mpr some_bytes, short⟩

/-- A whole piece may stand in front of others. -/
theorem cons (cut : Cut length rest later) (full : piece.length = length) (more : later ≠ []) :
    Cut length (piece ++ rest) (piece :: later) := by
  obtain ⟨second, others, rfl⟩ := List.exists_cons_of_ne_nil more
  refine ⟨by rw [List.flatten_cons, cut.flatten], fun other member => ?_, fun other same => ?_⟩
  · rw [List.dropLast_cons_of_ne_nil more] at member
    cases List.mem_cons.mp member with
    | inl first => exact first ▸ full
    | inr behind => exact cut.whole other behind
  · rw [List.getLast?_cons_cons] at same
    exact cut.last other same

/-- Behind the first piece the rest is cut in the same way. -/
theorem tail (cut : Cut length data (piece :: later)) : Cut length later.flatten later := by
  refine ⟨rfl, fun other member => ?_, fun other same => ?_⟩
  · have more : later ≠ [] := by
      rintro rfl
      contradiction
    apply cut.whole
    rw [List.dropLast_cons_of_ne_nil more]
    exact List.mem_cons_of_mem _ member
  · apply cut.last
    rw [List.getLast?_cons, Option.mem_def.mp same]
    rfl

/-- A piece with others behind it has the whole length. -/
theorem length_head (cut : Cut length data (piece :: later)) (more : later ≠ []) :
    piece.length = length := by
  apply cut.whole
  rw [List.dropLast_cons_of_ne_nil more]
  exact List.mem_cons_self

/-- There are as many pieces as the length of the data takes, rounded up. -/
theorem length_pieces (cut : Cut length data pieces) (positive : 0 < length) :
    pieces.length = data.length ⌈/⌉ length := by
  have rounded (total : Nat) : total ⌈/⌉ length = (total + length - 1) / length :=
    Nat.ceilDiv_eq_add_pred_div total length
  induction pieces generalizing data with
  | nil =>
    have none : data = [] := cut.flatten.symm
    rw [none, List.length_nil, List.length_nil, zero_ceilDiv]
  | cons piece later ih =>
    have parts : data.length = piece.length + later.flatten.length := by
      rw [← cut.flatten, List.flatten_cons, List.length_append]
    by_cases only : later = []
    · subst only
      obtain ⟨some_bytes, short⟩ := cut.last piece rfl
      have same : data.length = piece.length := parts
      have one : data.length + length - 1 = (data.length - 1) + length := by omega
      have low : (data.length - 1) / length = 0 := Nat.div_eq_of_lt (by omega)
      rw [rounded, one, Nat.add_div_right _ positive, low, List.length_singleton]
    · have full := cut.length_head only
      have one : data.length + length - 1 = (later.flatten.length + length - 1) + length := by
        omega
      rw [List.length_cons, ih cut.tail, rounded, rounded, one, Nat.add_div_right _ positive]

/-- Data whose length is a multiple of that of the pieces have no shorter piece. -/
theorem length_of_dvd (cut : Cut length data pieces) (multiple : length ∣ data.length) :
    ∀ piece ∈ pieces, piece.length = length := by
  induction pieces generalizing data with
  | nil => simp
  | cons piece later ih =>
    have parts : data.length = piece.length + later.flatten.length := by
      rw [← cut.flatten, List.flatten_cons, List.length_append]
    by_cases only : later = []
    · subst only
      obtain ⟨some_bytes, short⟩ := cut.last piece rfl
      have same : data.length = piece.length := parts
      have long : length ≤ piece.length := Nat.le_of_dvd some_bytes (same ▸ multiple)
      intro other member
      rw [List.mem_singleton.mp member]
      exact Nat.le_antisymm short long
    · have full := cut.length_head only
      have behind : length ∣ later.flatten.length := by
        rw [parts, full] at multiple
        exact (Nat.dvd_add_right (Nat.dvd_refl length)).mp multiple
      intro other member
      cases List.mem_cons.mp member with
      | inl first => exact first ▸ full
      | inr further => exact ih cut.tail behind other further

end Cut

/-- The first chunk of data is the first bytes, as many as a chunk has. -/
theorem chunks_of_ne_nil {data : List UInt8} (some_bytes : data ≠ []) (size : Nat) :
    chunks size data = data.take (max size 1) :: chunks size (data.drop (max size 1)) := by
  obtain ⟨first, rest, rfl⟩ := List.exists_cons_of_ne_nil some_bytes
  obtain ⟨count, counted⟩ : ∃ count, max size 1 = count + 1 := ⟨max size 1 - 1, by omega⟩
  rw [chunks, counted, List.drop_succ_cons, Nat.add_sub_cancel]

/-- Chunks are consecutive pieces. -/
theorem cut_chunks (size : Nat) (data : List UInt8) :
    Cut (max size 1) data (chunks size data) := by
  fun_induction chunks size data with
  | case1 => exact ⟨rfl, by simp, by simp⟩
  | case2 first rest ih =>
    by_cases short : (first :: rest).length ≤ max size 1
    · have nothing : rest.drop (max size 1 - 1) = [] := by
        rw [List.drop_eq_nil_iff]
        rw [List.length_cons] at short
        omega
      rw [nothing, List.take_of_length_le short, chunks]
      exact Cut.single (List.cons_ne_nil _ _) short
    · have full : ((first :: rest).take (max size 1)).length = max size 1 := by
        rw [List.length_take]
        omega
      have behind : rest.drop (max size 1 - 1) ≠ [] := by
        rw [ne_eq, List.drop_eq_nil_iff]
        rw [List.length_cons] at short
        omega
      have more : chunks size (rest.drop (max size 1 - 1)) ≠ [] := by
        rw [chunks_of_ne_nil behind]
        exact List.cons_ne_nil _ _
      have parts := flatten_chunks size (first :: rest)
      rw [chunks, List.flatten_cons, flatten_chunks] at parts
      have cut := ih.cons full more
      rwa [parts] at cut

/-- Pieces of one length that were put together are the chunks of that length. -/
theorem chunks_flatten {size : Nat} (positive : 0 < size) {pieces : List (List UInt8)}
    (alike : ∀ piece ∈ pieces, piece.length = size) : chunks size pieces.flatten = pieces := by
  have counted : max size 1 = size := by omega
  induction pieces with
  | nil => rw [List.flatten_nil, chunks]
  | cons piece later ih =>
    have full := alike piece List.mem_cons_self
    have some_bytes : piece ++ later.flatten ≠ [] := by
      intro none
      have length := congrArg List.length (List.append_eq_nil_iff.mp none).1
      rw [full, List.length_nil] at length
      omega
    rw [List.flatten_cons, chunks_of_ne_nil some_bytes, counted, List.take_left' full,
      List.drop_left' full, ih fun other member => alike other (List.mem_cons_of_mem _ member)]

end Trajectory.Bytes
