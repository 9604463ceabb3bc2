import Mathlib.Data.List.Nodup
import Mathlib.Order.Compare
import Trajectory.Proofs.Record.RoundTrip
import Trajectory.Record.Order
/-!
# Records and indices in order

The order of records and the order of indices are linear orders: two records or two indices are
equal in them only if they are the same. So what is sorted by them without repetitions depends only
on what there is.
-/
namespace Trajectory

/-- Lists that ascend in an order without ties are the same if they have the same members. -/
theorem eq_of_ascending {α : Type} {order : α → α → Ordering} [Std.TransCmp order]
    {left right : List α} (ascends : left.Pairwise fun first second => order first second = .lt)
    (climbs : right.Pairwise fun first second => order first second = .lt)
    (same : ∀ member, member ∈ left ↔ member ∈ right) : left = right := by
  have irreflexive {first second : α} (less : order first second = .lt) : first ≠ second := by
    rintro rfl
    have tie : order first first = .eq := Std.ReflCmp.compare_self
    rw [tie] at less
    contradiction
  have perm : left.Perm right :=
    (List.perm_ext_iff_of_nodup (ascends.imp irreflexive) (climbs.imp irreflexive)).mpr same
  refine perm.eq_of_pairwise (fun first second _ _ less greater => ?_) ascends climbs
  have swapped : order first second = (order second first).swap := Std.OrientedCmp.eq_swap
  rw [swapped, greater] at less
  contradiction

namespace Behavior

/-- The position of a behavior tells which it is. -/
theorem rank_injective : Function.Injective rank := by
  intro left right
  cases left <;> cases right <;> decide

end Behavior

namespace Format

/-- The position of a format tells which it is. -/
theorem rank_injective : Function.Injective rank := by
  intro left right
  cases left <;> cases right <;> decide

end Format

namespace Resolution

/-- The position of a resolution tells which it is. -/
theorem rank_injective : Function.Injective rank := by
  intro left right
  cases left <;> cases right <;> decide

end Resolution

namespace Record

/-- The order of records compares one field after the other. -/
theorem order_eq_compareLex :
    order =
      compareLex (compareLex (compareLex (compareLex (compareLex (compareLex
        (compareOn group) (compareOn name)) (compareOn suffix))
        (compareOn (·.behavior.rank))) (compareOn (·.format.rank)))
        (compareOn (·.resolution.rank))) (compareOn index) := rfl

/-- The order of records is transitive. -/
instance : Std.TransCmp order := by
  rw [order_eq_compareLex]
  infer_instance

/-- Records that are equal in their order are the same. -/
instance : Std.LawfulEqCmp order where
  eq_of_compare {left right} same := by
    simp only [order, Ordering.then_eq_eq, Std.LawfulEqCmp.compare_eq_iff_eq] at same
    obtain ⟨⟨⟨⟨⟨⟨group, name⟩, suffix⟩, behavior⟩, format⟩, resolution⟩, index⟩ := same
    have behavior := Behavior.rank_injective behavior
    have format := Format.rank_injective format
    have resolution := Resolution.rank_injective resolution
    cases left
    cases right
    simp_all

/-- A record that comes before another is not the other. -/
theorem ne_of_order_lt {left right : Record} (less : left.order right = .lt) : left ≠ right := by
  rintro rfl
  have same : left.order left = .eq := Std.ReflCmp.compare_self
  rw [same] at less
  contradiction

end Record

/-- The order of indices is transitive. -/
instance : Std.TransCmp indexOrder :=
  inferInstanceAs (Std.TransCmp (compareLex (compareOn String.utf8ByteSize) (compareOn id)))

/-- Indices that are equal in their order are the same. -/
instance : Std.LawfulEqCmp indexOrder where
  eq_of_compare same := Std.LawfulEqCmp.eq_of_compare (Ordering.then_eq_eq.mp same).2

/-- Sorting keeps the indices. -/
theorem mem_sortIndices {indices : List String} {index : String} :
    index ∈ sortIndices indices ↔ index ∈ indices := List.mem_mergeSort

/-- Sorting keeps how often each index is there. -/
theorem sortIndices_perm (indices : List String) : (sortIndices indices).Perm indices :=
  List.mergeSort_perm indices _

/-- Sorted indices are in order. -/
theorem pairwise_sortIndices (indices : List String) :
    (sortIndices indices).Pairwise fun left right => (indexOrder left right).isLE := by
  refine List.pairwise_mergeSort (fun first second third => ?_) (fun first second => ?_) indices
  · exact Std.TransCmp.isLE_trans
  · have swapped : indexOrder second first = (indexOrder first second).swap :=
      Std.OrientedCmp.eq_swap
    rw [swapped]
    cases indexOrder first second <;> rfl

/-- Indices without repetitions are sorted alike exactly if they are the same indices. -/
theorem sortIndices_eq_iff {indices others : List String} (nodup : indices.Nodup)
    (distinct : others.Nodup) :
    sortIndices indices = sortIndices others ↔ ∀ index, index ∈ indices ↔ index ∈ others := by
  constructor
  · intro same index
    rw [← mem_sortIndices, same, mem_sortIndices]
  · intro same
    have alike : indices.Perm others := (List.perm_ext_iff_of_nodup nodup distinct).mpr same
    have perm : (sortIndices indices).Perm (sortIndices others) :=
      (sortIndices_perm indices).trans (alike.trans (sortIndices_perm others).symm)
    refine perm.eq_of_pairwise (fun left right _ _ before after => ?_)
      (pairwise_sortIndices indices) (pairwise_sortIndices others)
    exact Std.LawfulEqCmp.eq_of_compare (Std.OrientedCmp.isLE_antisymm before after)

end Trajectory
