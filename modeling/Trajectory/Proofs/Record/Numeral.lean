import Trajectory.Proofs.Record.Order
import Trajectory.Proofs.Text.Decimal
/-!
# Indices that are numerals

Most indices are the numbers of frames, in decimal digits. The shorter of two indices is in front,
and of two that are equally long the lesser text. Where the indices are numerals, that is the order
of the numbers that they write, so frames in index order are in the order of their numbers.
-/
namespace Trajectory

variable {left right : String}

/-- Of two indices the shorter comes first. -/
theorem indexOrder_of_shorter (shorter : left.utf8ByteSize < right.utf8ByteSize) :
    indexOrder left right = .lt := by
  rw [indexOrder, compare_lt_iff_lt.mpr shorter]
  rfl

namespace Decimal

/-- The order of indices with as many digits is that of the numbers that they write. -/
theorem Digits.indexOrder_eq (one : Digits left) (two : Digits right)
    (alike : left.length = right.length) :
    indexOrder left right = compare (value left) (value right) := by
  have sizes : left.utf8ByteSize = right.utf8ByteSize := by
    rw [one.utf8ByteSize_eq, two.utf8ByteSize_eq, alike]
  rw [indexOrder, compare_eq_iff_eq.mpr sizes, Ordering.eq_then, one.compare_eq two alike]

/-- A shorter numeral is in front, and of a lesser number. -/
theorem Numeral.indexOrder_of_length_lt (one : Numeral left) (two : Numeral right)
    (shorter : left.length < right.length) :
    indexOrder left right = .lt ∧ compare (value left) (value right) = .lt := by
  have sizes : left.utf8ByteSize < right.utf8ByteSize := by
    rwa [one.digits.utf8ByteSize_eq, two.digits.utf8ByteSize_eq]
  exact ⟨indexOrder_of_shorter sizes, compare_lt_iff_lt.mpr (one.value_lt_value two shorter)⟩

/-- The order of indices that are numerals is that of the numbers that they write. -/
theorem Numeral.indexOrder_eq (one : Numeral left) (two : Numeral right) :
    indexOrder left right = compare (value left) (value right) := by
  rcases Nat.lt_trichotomy left.length right.length with shorter | alike | longer
  · have both := one.indexOrder_of_length_lt two shorter
    rw [both.1, both.2]
  · exact one.digits.indexOrder_eq two.digits alike
  · have both := two.indexOrder_of_length_lt one longer
    rw [Std.OrientedCmp.gt_of_lt both.1, Std.OrientedCmp.gt_of_lt both.2]

/-- There is one numeral for each number. -/
theorem existsUnique_numeral (number : Nat) :
    ∃! text, Numeral text ∧ value text = number := by
  refine ⟨number.repr, ⟨numeral_repr number, value_repr number⟩, ?_⟩
  rintro text ⟨numeral, written⟩
  have same : indexOrder text number.repr = .eq := by
    rw [numeral.indexOrder_eq (numeral_repr number), compare_eq_iff_eq, written, value_repr]
  exact Std.LawfulEqCmp.eq_of_compare same

/-- Numerals that are sorted as indices are in the order of their numbers. -/
theorem pairwise_value_sortIndices {indices : List String}
    (numerals : ∀ index ∈ indices, Numeral index) :
    ((sortIndices indices).map value).Pairwise (· ≤ ·) := by
  rw [List.pairwise_map]
  refine (pairwise_sortIndices indices).imp_of_mem fun {left right} first second before => ?_
  have one := numerals left (mem_sortIndices.mp first)
  have two := numerals right (mem_sortIndices.mp second)
  rw [one.indexOrder_eq two] at before
  exact Nat.isLE_compare.mp before

end Decimal

open Decimal in
/-- The order of indices is a linear order of texts, in which only a text itself is equal to it; and
it is the order of the numbers where the indices are numerals without superfluous zeros, of which
there is one for each number, or have as many digits each, with zeros in front or without. So
numerals that are sorted as indices are sorted by their numbers. -/
theorem indexOrder_linear_and_numeric :
    (∀ left right, indexOrder right left = (indexOrder left right).swap) ∧
    (∀ first second third, (indexOrder first second).isLE → (indexOrder second third).isLE →
      (indexOrder first third).isLE) ∧
    (∀ left right, indexOrder left right = .eq ↔ left = right) ∧
    (∀ left right, Numeral left → Numeral right →
      indexOrder left right = compare (value left) (value right)) ∧
    (∀ left right, Digits left → Digits right → left.length = right.length →
      indexOrder left right = compare (value left) (value right)) ∧
    (∀ number, ∃! text, Numeral text ∧ value text = number) ∧
    ∀ indices : List String, (∀ index ∈ indices, Numeral index) →
      ((sortIndices indices).map value).Pairwise (· ≤ ·) :=
  ⟨fun _ _ => Std.OrientedCmp.eq_swap, fun _ _ _ => Std.TransCmp.isLE_trans,
    fun _ _ => Std.LawfulEqCmp.compare_eq_iff_eq, fun _ _ one two => one.indexOrder_eq two,
    fun _ _ one two alike => one.indexOrder_eq two alike, existsUnique_numeral,
    fun _ numerals => pairwise_value_sortIndices numerals⟩

open Decimal in
/-- A numeral of one digit more, and as many digits with and without a zero in front. -/
theorem indexOrder_linear_and_numeric_carry :
    Numeral "999" ∧ Numeral "1000" ∧ indexOrder "999" "1000" = compare 999 1000 ∧
      Digits "0999" ∧ ¬ Numeral "0999" ∧ indexOrder "1000" "0999" = compare 1000 999 ∧
      ((sortIndices ["1000", "2", "999", "0"]).map value).Pairwise (· ≤ ·) := by
  obtain ⟨-, -, -, numerals, digits, -, sorted⟩ := indexOrder_linear_and_numeric
  refine ⟨by decide, by decide, ?_, by decide, by decide, ?_, sorted _ (by decide)⟩
  · exact numerals "999" "1000" (by decide) (by decide)
  · exact digits "1000" "0999" (by decide) (by decide) (by decide)

example : sortIndices ["100", "2", "10", "0010", "1"] = ["1", "2", "10", "100", "0010"] := by
  cbv

end Trajectory
