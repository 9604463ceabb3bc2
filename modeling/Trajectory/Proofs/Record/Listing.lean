import Trajectory.Proofs.Record.Register
/-!
# Registers as lists

A register that was given records, or the paths of records, lists their types and the frames of each
type, every one once and in order, and the frames also in the order in which they were first given.
It can be kept in two ordered trees, one with the frames in index order and one with the frames as
first seen, of which the second grows when the first does: the answers are the same.
-/
namespace Trajectory

namespace Record

/-- The order of types: that of records, which goes on to the index only for the same type. -/
def typeOrder : Record → Record → Ordering :=
  compareLex (compareLex (compareLex (compareLex (compareLex
    (compareOn group) (compareOn name)) (compareOn suffix))
    (compareOn (·.behavior.rank))) (compareOn (·.format.rank)))
    (compareOn (·.resolution.rank))

/-- Types are records without an index, so their order is decided before it. -/
theorem order_recordType (left right : Record) :
    left.recordType.order right.recordType = typeOrder left.recordType right.recordType := by
  have tie : compare left.recordType.index right.recordType.index = .eq :=
    Std.ReflCmp.compare_self
  rw [order, tie, Ordering.then_eq]
  rfl

end Record

namespace Register

/-! ## Insertions -/

/-- What is put into a register. -/
inductive Insertion where
  /-- A record. -/
  | record (given : Record)
  /-- The record that a path is read as. -/
  | path (text : String)

/-- The record that is put in. -/
def Insertion.entry : Insertion → Record
  | record given => given
  | path text => .parse text

/-- Put something into a register. -/
def insert (register : Register) : Insertion → Register
  | .record given => register.enter given
  | .path text => register.enterPath text

/-- A register into which something was put, in order. -/
def inserted (insertions : List Insertion) : Register := insertions.foldl insert empty

/-- It is the register of the records that were put in. -/
theorem inserted_eq (insertions : List Insertion) :
    inserted insertions = ofRecords (insertions.map (·.entry)) := by
  have single : insert = fun register insertion => register.enter insertion.entry := by
    funext register insertion
    cases insertion <;> rfl
  rw [inserted, ofRecords, List.foldl_map, single]

/-! ## What is listed -/

variable (records : List Record)

/-- The types of a register of records ascend in the order of types. -/
theorem types_ascend :
    (ofRecords records).types.Pairwise fun left right => Record.typeOrder left right = .lt := by
  refine (ordered_ofRecords records).imp_of_mem fun {left right} first second less => ?_
  obtain ⟨one, -, rfl⟩ := mem_types_ofRecords.mp first
  obtain ⟨two, -, rfl⟩ := mem_types_ofRecords.mp second
  exact (Record.order_recordType one two).symm.trans less

/-- The frames of a register of records ascend in the order of indices. -/
theorem frames_ascend (query : Record) :
    ((ofRecords records).frames query).Pairwise
      fun left right => indexOrder left right = .lt := by
  have nodup : ((ofRecords records).frames query).Nodup :=
    (sortIndices_perm _).nodup_iff.mpr (nodup_framesSeen_ofRecords records query)
  have sorted := pairwise_sortIndices ((ofRecords records).framesSeen query)
  refine (sorted.and nodup).imp fun {left right} both => ?_
  cases compared : indexOrder left right with
  | lt => rfl
  | eq => exact absurd (Std.LawfulEqCmp.eq_of_compare compared) both.2
  | gt => simp [compared] at both

end Register

/-! ## Ordered trees -/

/-- A register that is kept in two ordered trees. -/
structure Trees where
  /-- The frames of each type, in index order. -/
  sorted : Std.TreeMap Record (Std.TreeSet String indexOrder) Record.order
  /-- The frames of each type, as first seen. -/
  seen : Std.TreeMap Record (List String) Record.order

namespace Trees

open Std (LawfulEqCmp)

/-- The trees of an archive without entries. -/
def empty : Trees := ⟨∅, ∅⟩

/-- Record an entry. Only a frame that is new in the first tree goes to the end of the second. -/
def enter (trees : Trees) (record : Record) : Trees :=
  let type := record.recordType
  let known := trees.sorted.getD type ∅
  { sorted := trees.sorted.insert type (known.insert record.index)
    seen :=
      if record.index ∈ known then trees.seen
      else trees.seen.insert type (trees.seen.getD type [] ++ [record.index]) }

/-- Put something into the trees. -/
def insert (trees : Trees) (insertion : Register.Insertion) : Trees := trees.enter insertion.entry

/-- Trees into which something was put, in order. -/
def inserted (insertions : List Register.Insertion) : Trees := insertions.foldl insert empty

/-- Every record type, in order. -/
def types (trees : Trees) : List Record := trees.sorted.keys

/-- Number of record types. -/
def size (trees : Trees) : Nat := trees.sorted.size

/-- Frames of the type of a record in index order. -/
def frames (trees : Trees) (record : Record) : List String :=
  (trees.sorted.getD record.recordType ∅).toList

/-- Frames of the type of a record in the order first seen. -/
def framesSeen (trees : Trees) (record : Record) : List String :=
  trees.seen.getD record.recordType []

/-- One frame of the type of a record, by its place in the order first seen. -/
def frameAt? (trees : Trees) (record : Record) (place : Nat) : Option String :=
  (trees.seen[record.recordType]?).bind fun frames => frames[place]?

/-- Trees hold what a register holds. -/
structure Holds (trees : Trees) (register : Register) : Prop where
  /-- The first tree has its types. -/
  types : ∀ type, type ∈ trees.sorted ↔ type ∈ register.types
  /-- The first tree has its frames. -/
  frames : ∀ record index,
    index ∈ trees.sorted.getD record.recordType ∅ ↔ index ∈ register.framesSeen record
  /-- The second tree has them in its order. -/
  framesSeen : ∀ record, trees.framesSeen record = register.framesSeen record

variable {trees : Trees} {register : Register}

/-- Recording an entry in both keeps it so. -/
theorem Holds.enter (holds : trees.Holds register) (ordered : register.Ordered)
    (record : Record) : (trees.enter record).Holds (register.enter record) where
  types type := by
    rw [Register.mem_types_enter, ← holds.types, Trees.enter]
    dsimp only
    rw [Std.TreeMap.mem_insert, LawfulEqCmp.compare_eq_iff_eq, eq_comm]
  frames other index := by
    have before := holds.frames other
    rw [Register.framesSeen_enter ordered, Trees.enter]
    dsimp only
    rw [Std.TreeMap.getD_insert]
    by_cases typed : record.recordType = other.recordType
    · rw [if_pos (LawfulEqCmp.compare_eq_iff_eq.mpr typed), if_pos typed, typed,
        Std.TreeSet.mem_insert, LawfulEqCmp.compare_eq_iff_eq, before]
      split
      · next known => exact or_iff_right_of_imp fun same => same ▸ known
      · rw [List.mem_append, List.mem_singleton, or_comm, eq_comm]
    · rw [if_neg (mt LawfulEqCmp.compare_eq_iff_eq.mp typed), if_neg typed]
      exact before index
  framesSeen other := by
    have before : trees.seen.getD other.recordType [] = register.framesSeen other :=
      holds.framesSeen other
    have known := holds.frames other record.index
    rw [Register.framesSeen_enter ordered, Trees.framesSeen, Trees.enter]
    dsimp only
    by_cases typed : record.recordType = other.recordType
    · rw [if_pos typed, typed, before]
      by_cases listed : record.index ∈ register.framesSeen other
      · rw [if_pos (known.mpr listed), if_pos listed, before]
      · rw [if_neg (mt known.mp listed), if_neg listed, Std.TreeMap.getD_insert_self]
    · rw [if_neg typed]
      split
      · exact before
      · rw [Std.TreeMap.getD_insert, if_neg (mt LawfulEqCmp.compare_eq_iff_eq.mp typed), before]

/-- Trees and a register without entries hold the same. -/
theorem holds_empty : empty.Holds Register.empty where
  types type := iff_of_false Std.TreeMap.not_mem_emptyc List.not_mem_nil
  frames record index := by
    rw [empty, Std.TreeMap.getD_emptyc]
    exact iff_of_false Std.TreeSet.not_mem_emptyc List.not_mem_nil
  framesSeen record := Std.TreeMap.getD_emptyc

/-- Trees and a register hold the same if the same was put into them. -/
theorem holds_inserted (insertions : List Register.Insertion) :
    (inserted insertions).Holds (Register.inserted insertions) := by
  induction insertions using List.reverseRecOn with
  | nil => exact holds_empty
  | append_singleton insertions insertion ih =>
    have ordered := Register.ordered_ofRecords (insertions.map (·.entry))
    rw [← Register.inserted_eq] at ordered
    have tree : inserted (insertions ++ [insertion]) =
        (inserted insertions).enter insertion.entry := by
      rw [inserted, List.foldl_append]
      rfl
    have register : Register.inserted (insertions ++ [insertion]) =
        (Register.inserted insertions).enter insertion.entry := by
      rw [Register.inserted_eq, List.map_append, List.map_singleton,
        Register.ofRecords_append_singleton, ← Register.inserted_eq]
    rw [tree, register]
    exact ih.enter ordered insertion.entry

/-- Trees answer as the register does that holds the same, if its types and frames ascend. -/
theorem Holds.answers (holds : trees.Holds register) (ordered : register.Ordered)
    (ascends : ∀ query,
      (register.frames query).Pairwise fun left right => indexOrder left right = .lt) :
    trees.types = register.types ∧ trees.size = register.size ∧
      ∀ query, trees.frames query = register.frames query ∧
        trees.framesSeen query = register.framesSeen query ∧
        ∀ place, trees.frameAt? query place = register.frameAt? query place := by
  have types : trees.types = register.types :=
    eq_of_ascending Std.TreeMap.ordered_keys ordered fun type =>
      Std.TreeMap.mem_keys.trans (holds.types type)
  refine ⟨types, ?_, fun query => ⟨?_, holds.framesSeen query, fun place => ?_⟩⟩
  · have count : trees.types.length = trees.size := Std.TreeMap.length_keys
    rw [← count, types, Register.types, List.length_map]
    rfl
  · refine eq_of_ascending Std.TreeSet.ordered_toList (ascends query) fun index => ?_
    rw [Trees.frames, Std.TreeSet.mem_toList, holds.frames, Register.frames, mem_sortIndices]
  · have known := holds.framesSeen query
    rw [Trees.framesSeen, Std.TreeMap.getD_eq_getD_getElem?] at known
    rw [Trees.frameAt?, Register.frameAt?, ← known]
    cases trees.seen[query.recordType]? with
    | none => rfl
    | some frames => rfl

end Trees

namespace Register

/-- What a register lists, whatever was put into it, records or paths, in whatever order and however
often. The types ascend and are those of the records put in; and of each type, whichever of its
records is asked with, the frames ascend and are the indices of the records of the type, which are
also had one by one in the order in which they were first put in. Two ordered trees, one for each
listing of the frames, give the same answers. -/
theorem inserted_lists (insertions : List Insertion) :
    let records := insertions.map (·.entry)
    let register := inserted insertions
    let trees := Trees.inserted insertions
    (register.types.Pairwise fun left right => Record.typeOrder left right = .lt) ∧
      (∀ type, type ∈ register.types ↔ ∃ record ∈ records, record.recordType = type) ∧
      register.size = register.types.length ∧
      (∀ query : Record,
        let given := (records.filter (·.recordType = query.recordType)).map (·.index)
        let seen := register.framesSeen query
        ((register.frames query).Pairwise fun left right => indexOrder left right = .lt) ∧
          (∀ index, index ∈ register.frames query ↔ index ∈ given) ∧ seen = given.eraseDups ∧
          (∀ place (inside : place < seen.length),
            register.frameAt? query place = some seen[place]) ∧
          ∀ place, seen.length ≤ place → register.frameAt? query place = none) ∧
      trees.types = register.types ∧ trees.size = register.size ∧
      ∀ query, trees.frames query = register.frames query ∧
        trees.framesSeen query = register.framesSeen query ∧
        ∀ place, trees.frameAt? query place = register.frameAt? query place := by
  intro records register trees
  have same : register = ofRecords records := inserted_eq insertions
  have holds : trees.Holds register := Trees.holds_inserted insertions
  have answers := holds.answers (same ▸ ordered_ofRecords records)
    (same ▸ frames_ascend records)
  rw [same] at answers ⊢
  refine ⟨types_ascend records, fun type => mem_types_ofRecords, (List.length_map _).symm,
    fun query => ?_, answers⟩
  intro given seen
  have listed : seen = given.eraseDups := framesSeen_ofRecords records query
  refine ⟨frames_ascend records query, fun index => ?_, listed, fun place inside => ?_,
    fun place beyond => List.getElem?_eq_none beyond⟩
  · show index ∈ sortIndices seen ↔ index ∈ given
    rw [mem_sortIndices, listed, List.mem_eraseDups]
  · exact List.getElem?_eq_getElem inside

end Register

end Trajectory
