import Trajectory.Text.Digits
import Trajectory.Text.Reader
import Trajectory.Toml.Table
/-!
# Numbers

A whole number is written in decimal, with a sign if need be and no zero in front, or in base 16,
8 or 2 after a mark, without a sign; it fits into 64 bits with the sign. Single underscores may
stand between digits. A number with a fraction or an exponent is refused if it rounds up to
infinity as a binary floating-point number of 64 bits.
-/
namespace Trajectory.Toml

open Trajectory.Text

/-- A digit after another, with an underscore between them or not. -/
def laterDigit (base : Nat) : Reader Nat
  | '_' :: c :: rest => (digit? base c).map (·, rest)
  | c :: rest => (digit? base c).map (·, rest)
  | [] => none

/-- Digits; zeros may stand in front. -/
def digits (base : Nat) : Reader (List Nat)
  | [] => none
  | c :: rest => do
    let first ← digit? base c
    let (later, rest) := many (laterDigit base) rest
    some (first :: later, rest)

/-- Decimal digits, with no zero in front of others. -/
def decimalDigits : Reader (List Nat)
  | '0' :: rest => some ([0], rest)
  | text => digits 10 text

/-- A sign, if there is one; whether it is a minus. -/
def sign : List Char → Bool × List Char
  | '+' :: rest => (false, rest)
  | '-' :: rest => (true, rest)
  | text => (false, text)

/-- A number of 64 bits with the sign, where it is one. -/
def bounded (value : Int) : Option Int :=
  if Int64.minValue.toInt ≤ value ∧ value ≤ Int64.maxValue.toInt then some value else none

/-- A whole number in a base, after the mark of the base. -/
def inBase (base : Nat) : Reader Int := fun text => do
  let (found, rest) ← digits base text
  some (← bounded (ofDigits base found), rest)

/-- A whole number. -/
def integer : Reader Int
  | '0' :: 'x' :: rest => inBase 16 rest
  | '0' :: 'o' :: rest => inBase 8 rest
  | '0' :: 'b' :: rest => inBase 2 rest
  | text => do
    let (negative, rest) := sign text
    let (found, rest) ← decimalDigits rest
    let value : Int := ofDigits 10 found
    some (← bounded (if negative then -value else value), rest)

/-- A power of ten in a number. -/
def exponent : Reader Int
  | [] => none
  | c :: rest =>
    if c = 'e' ∨ c = 'E' then do
      let (negative, rest) := sign rest
      let (found, rest) ← digits 10 rest
      let value : Int := ofDigits 10 found
      some (if negative then -value else value, rest)
    else none

/-- The digits of a fraction. -/
def fraction : Reader (List Nat)
  | '.' :: rest => digits 10 rest
  | _ => none

/-- Whether a number times a power of ten rounds up to infinity. The bound lies halfway between
the largest binary number of 64 bits and the next power of two, and has 309 digits. -/
def isInfinite (digits : Nat) (power : Int) : Bool :=
  let top : Int := (Nat.toDigits 10 digits).length + power
  let bound := Nat.pow 2 1024 - Nat.pow 2 970
  if digits = 0 ∨ top ≤ 308 then false
  else if 310 < top then true
  else bound * Nat.pow 10 (-power).toNat ≤ digits * Nat.pow 10 power.toNat

/-- The power that belongs to a number, zero where none is written. -/
def exponentOrZero (text : List Char) : Int × List Char := (exponent text).getD (0, text)

/-- A number with a fraction or an exponent. -/
def decimal : Reader Unit := fun text => do
  let (negative, rest) := sign text
  let (whole, rest) ← decimalDigits rest
  let (parts, power, rest) ←
    match exponent rest with
    | some (power, rest) => some ([], power, rest)
    | none => do
      let (parts, rest) ← fraction rest
      let (power, rest) := exponentOrZero rest
      some (parts, power, rest)
  if ¬ negative ∧ isInfinite (ofDigits 10 (whole ++ parts)) (power - parts.length) then none
  else some ((), rest)

/-- An infinity, or the mark of no number. -/
def special : Reader Unit := fun text =>
  let (_, rest) := sign text
  ((takeAll? "inf".toList rest).orElse fun _ => takeAll? "nan".toList rest).map ((), ·)

/-- A number. -/
def number : Reader Value := fun text =>
  match (decimal text).orElse fun _ => special text with
  | some (_, rest) => some (.float, rest)
  | none => (integer text).map fun (value, rest) => (.integer value, rest)

end Trajectory.Toml
