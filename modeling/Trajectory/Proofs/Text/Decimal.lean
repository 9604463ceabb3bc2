import Mathlib.Data.String.Basic
import Trajectory.Text.Utf8
/-!
# Decimal digits

Digits write a number. Of two texts with as many digits the lesser is that of the lesser number, for
the first digit that differs decides both. Every number is written as a numeral, without superfluous
zeros, and of two numerals the shorter is that of the lesser number.
-/
namespace Trajectory

namespace Decimal

/-- A text of decimal digits, with zeros in front or without. -/
def Digits (text : String) : Prop := ∀ c ∈ text.toList, c.isDigit

/-- The number that decimal digits write. -/
def value (text : String) : Nat := Nat.ofDigitChars 10 text.toList 0

/-- A numeral has digits, and none of them is a superfluous zero. -/
structure Numeral (text : String) : Prop where
  /-- It has nothing but digits. -/
  digits : Digits text
  /-- It has a digit. -/
  nonempty : text ≠ ""
  /-- The only numeral that starts with a zero is that of zero. -/
  shortest : text.toList.head? = some '0' → text = "0"

/-- Whether a text has only digits is decided character by character. -/
instance (text : String) : Decidable (Digits text) := List.decidableBAll _ text.toList

/-- Whether a text is a numeral is decided by its characters. -/
instance (text : String) : Decidable (Numeral text) :=
  decidable_of_iff (Digits text ∧ text ≠ "" ∧ (text.toList.head? = some '0' → text = "0"))
    ⟨fun ⟨digits, nonempty, shortest⟩ => ⟨digits, nonempty, shortest⟩,
      fun ⟨digits, nonempty, shortest⟩ => ⟨digits, nonempty, shortest⟩⟩

section Chars

variable {c : Char} {chars left right : List Char}

/-- A digit in front counts for a power of ten with as many zeros as digits follow. -/
theorem ofDigitChars_cons (c : Char) (rest : List Char) :
    Nat.ofDigitChars 10 (c :: rest) 0 =
      10 ^ rest.length * (c.toNat - '0'.toNat) + Nat.ofDigitChars 10 rest 0 := by
  rw [Nat.ofDigitChars_cons, Nat.ofDigitChars_eq_ofDigitChars_zero, Nat.mul_zero, Nat.zero_add]

/-- Digits write a number below the power of ten with as many zeros. -/
theorem ofDigitChars_lt (digits : ∀ c ∈ chars, c.isDigit) :
    Nat.ofDigitChars 10 chars 0 < 10 ^ chars.length := by
  induction chars with
  | nil => exact Nat.one_pos
  | cons c rest ih =>
    have first := Char.isDigit_iff_toNat.mp (digits c List.mem_cons_self)
    have later := ih fun other member => digits other (List.mem_cons_of_mem _ member)
    have nine : c.toNat - '0'.toNat ≤ 9 := Nat.sub_le_sub_right first.2 _
    calc Nat.ofDigitChars 10 (c :: rest) 0
        = 10 ^ rest.length * (c.toNat - '0'.toNat) + Nat.ofDigitChars 10 rest 0 :=
          ofDigitChars_cons c rest
      _ < 10 ^ rest.length * 9 + 10 ^ rest.length :=
          Nat.add_lt_add_of_le_of_lt (Nat.mul_le_mul_left _ nine) later
      _ = 10 ^ (c :: rest).length := by rw [List.length_cons, Nat.pow_succ]; omega

/-- Digits of which the first is not zero write no less than the power of ten with a zero less. -/
theorem le_ofDigitChars (digit : c.isDigit) (other : c ≠ '0') (rest : List Char) :
    10 ^ rest.length ≤ Nat.ofDigitChars 10 (c :: rest) 0 := by
  have least := (Char.isDigit_iff_toNat.mp digit).1
  have differs : c.toNat ≠ '0'.toNat := mt Char.toNat_inj.mp other
  have positive : 0 < c.toNat - '0'.toNat := by omega
  rw [ofDigitChars_cons]
  exact Nat.le_add_right_of_le (Nat.le_mul_of_pos_right _ positive)

/-- What follows the first digit cannot outweigh a greater first digit. -/
theorem lead_lt {power high low other less : Nat} (below : low < power) (lead : high < other) :
    power * high + low < power * other + less :=
  calc power * high + low
      < power * high + power := Nat.add_lt_add_left below _
    _ = power * (high + 1) := (Nat.mul_succ ..).symm
    _ ≤ power * other := Nat.mul_le_mul_left _ lead
    _ ≤ power * other + less := Nat.le_add_right ..

/-- The first digits decide, and only where they are the same the others do. -/
theorem lead_lt_iff {power high low other less : Nat} (below : low < power)
    (under : less < power) :
    power * high + low < power * other + less ↔ high < other ∨ high = other ∧ low < less := by
  rcases Nat.lt_trichotomy high other with lead | rfl | lead
  · exact iff_of_true (lead_lt below lead) (.inl lead)
  · rw [Nat.add_lt_add_iff_left]
    simp
  · refine iff_of_false (Nat.lt_asymm (lead_lt under lead)) ?_
    omega

/-- As many digits are in the order of the numbers that they write. -/
theorem lt_iff_ofDigitChars_lt (digits : ∀ c ∈ left, c.isDigit) (others : ∀ c ∈ right, c.isDigit)
    (alike : left.length = right.length) :
    left < right ↔ Nat.ofDigitChars 10 left 0 < Nat.ofDigitChars 10 right 0 := by
  induction left generalizing right with
  | nil =>
    obtain rfl : right = [] := List.length_eq_zero_iff.mp alike.symm
    simp
  | cons c rest ih =>
    cases right with
    | nil => exact absurd alike (Nat.succ_ne_zero _)
    | cons d more =>
      have length : rest.length = more.length := Nat.succ.inj alike
      rw [List.forall_mem_cons] at digits others
      have one := (Char.isDigit_iff_toNat.mp digits.1).1
      have two := (Char.isDigit_iff_toNat.mp others.1).1
      have less : c < d ↔ c.toNat - '0'.toNat < d.toNat - '0'.toNat := by
        rw [Nat.sub_lt_sub_iff_right one]
        exact Iff.rfl
      have same : c = d ↔ c.toNat - '0'.toNat = d.toNat - '0'.toNat := by
        rw [← Char.toNat_inj]
        omega
      have below := ofDigitChars_lt digits.2
      have under := ofDigitChars_lt others.2
      rw [length] at below
      rw [List.cons_lt_cons_iff, ofDigitChars_cons, ofDigitChars_cons, length,
        lead_lt_iff below under, ih digits.2 others.2 length, less, same]

end Chars

variable {left right text : String}

/-- A text of digits has one byte for each. -/
theorem Digits.utf8ByteSize_eq (digits : Digits text) : text.utf8ByteSize = text.length := by
  have ascii : ∀ c ∈ text.toList, c.toNat < 128 := by
    intro c member
    have most := (Char.isDigit_iff_toNat.mp (digits c member)).2
    exact Nat.lt_of_le_of_lt most (by decide)
  rw [← String.size_toByteArray, ← String.utf8Encode_toList, List.utf8Encode,
    List.size_toByteArray, Utf8.flatMap_encodeChar_of_lt ascii, List.length_map,
    String.length_toList]

/-- Digits write a number below the power of ten with as many zeros. -/
theorem Digits.value_lt (digits : Digits text) : value text < 10 ^ text.length := by
  rw [← String.length_toList]
  exact ofDigitChars_lt digits

/-- A numeral with more than one digit writes no less than the power of ten with as many digits. -/
theorem Numeral.le_value (numeral : Numeral text) (several : 1 < text.length) :
    10 ^ (text.length - 1) ≤ value text := by
  have digits : ∀ c ∈ text.toList, c.isDigit := numeral.digits
  have shortest := numeral.shortest
  rw [← String.length_toList] at several ⊢
  rw [value]
  cases chars : text.toList with
  | nil =>
    rw [chars] at several
    contradiction
  | cons c rest =>
    rw [chars] at digits
    have other : c ≠ '0' := by
      rintro rfl
      have zero : text = "0" := shortest (by rw [chars]; rfl)
      rw [zero] at several
      exact absurd several (by decide)
    exact le_ofDigitChars (digits c List.mem_cons_self) other rest

/-- A shorter numeral writes a lesser number. -/
theorem Numeral.value_lt_value (one : Numeral left) (two : Numeral right)
    (shorter : left.length < right.length) : value left < value right := by
  have positive : left.length ≠ 0 := mt String.length_eq_zero_iff.mp one.nonempty
  have exponent : left.length ≤ right.length - 1 := by omega
  calc value left
      < 10 ^ left.length := one.digits.value_lt
    _ ≤ 10 ^ (right.length - 1) := Nat.pow_le_pow_right (by decide) exponent
    _ ≤ value right := two.le_value (by omega)

/-- A number is written in digits. -/
theorem digits_repr (number : Nat) : Digits number.repr := by
  intro c member
  rw [Nat.toList_repr] at member
  exact Nat.isDigit_of_mem_toDigits (by decide) (by decide) member

/-- The digits of a number write it. -/
theorem value_repr (number : Nat) : value number.repr = number := by
  rw [value, Nat.toList_repr, Nat.ofDigitChars_ten_toDigits]

/-- A number is written as a numeral. -/
theorem numeral_repr (number : Nat) : Numeral number.repr where
  digits := digits_repr number
  nonempty none := by
    have positive := @Nat.length_repr_pos number
    rw [none] at positive
    contradiction
  shortest start := by
    have digits : ∀ c ∈ number.repr.toList, c.isDigit := digits_repr number
    have written : Nat.ofDigitChars 10 number.repr.toList 0 = number := value_repr number
    cases chars : number.repr.toList with
    | nil =>
      rw [chars] at start
      contradiction
    | cons c rest =>
      rw [chars] at start digits written
      obtain rfl : c = '0' := Option.some.inj start
      rw [ofDigitChars_cons, Nat.sub_self, Nat.mul_zero, Nat.zero_add] at written
      have below := ofDigitChars_lt (List.forall_mem_cons.mp digits).2
      rw [written] at below
      -- Digits behind the zero would be enough for the number, and it has no more than it takes.
      have none : rest = [] := by
        by_contra more
        have enough := (Nat.length_repr_le_iff (List.length_pos_iff.mpr more)).mpr below
        rw [← String.length_toList, chars, List.length_cons] at enough
        omega
      rw [none] at chars
      exact String.toList_inj.mp chars

/-- As many digits compare as the numbers that they write. -/
theorem Digits.compare_eq (one : Digits left) (two : Digits right)
    (alike : left.length = right.length) :
    compare left right = compare (value left) (value right) := by
  have length : left.toList.length = right.toList.length := by
    rw [String.length_toList, String.length_toList, alike]
  have less : left < right ↔ value left < value right :=
    String.lt_iff_toList_lt.trans (lt_iff_ofDigitChars_lt one two length)
  have more : right < left ↔ value right < value left :=
    String.lt_iff_toList_lt.trans (lt_iff_ofDigitChars_lt two one length.symm)
  rcases Nat.lt_trichotomy (value left) (value right) with lesser | same | greater
  · rw [compare_lt_iff_lt.mpr lesser, compare_lt_iff_lt.mpr (less.mpr lesser)]
  · have equal : left = right := by
      refine le_antisymm (not_lt.mp fun above => ?_) (not_lt.mp fun below => ?_)
      · exact absurd same (more.mp above).ne'
      · exact absurd same (less.mp below).ne
    rw [compare_eq_iff_eq.mpr same, compare_eq_iff_eq.mpr equal]
  · rw [compare_gt_iff_gt.mpr greater, compare_gt_iff_gt.mpr (more.mpr greater)]

end Decimal

end Trajectory
