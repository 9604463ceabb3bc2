/-!
# Digits

The digits of a number in a base up to sixteen, where the letters count from ten in either case.
-/
namespace Trajectory.Text

/-- The value of a digit below a base. -/
def digit? (base : Nat) (c : Char) : Option Nat :=
  let value :=
    if '0' ≤ c ∧ c ≤ '9' then some (c.toNat - '0'.toNat)
    else if 'a' ≤ c ∧ c ≤ 'f' then some (c.toNat - 'a'.toNat + 10)
    else if 'A' ≤ c ∧ c ≤ 'F' then some (c.toNat - 'A'.toNat + 10)
    else none
  value.filter (· < base)

/-- The number that digits make. -/
def ofDigits (base : Nat) (digits : List Nat) : Nat :=
  digits.foldl (fun value digit => base * value + digit) 0

/-- The number that characters write in a base. -/
def number? (base : Nat) (text : List Char) : Option Nat :=
  (text.mapM (digit? base)).map (ofDigits base)

end Trajectory.Text
