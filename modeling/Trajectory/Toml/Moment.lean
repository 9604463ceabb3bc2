import Trajectory.Toml.Number
/-!
# Dates and times

A date is a year, a month and a day of that month, and a time is an hour, a minute and a second,
with a fraction if need be. They stand alone or together, and a date with a time may say how far
it is from the time at Greenwich.
-/
namespace Trajectory.Toml

open Trajectory.Text

/-- A number of exactly so many digits, in a range. -/
def fixed (width low high : Nat) : Reader Nat := fun text => do
  let written := text.take width
  if written.length < width then none
  else
    let value ← number? 10 written
    if low ≤ value ∧ value ≤ high then some (value, text.drop width) else none

/-- Days of a month. -/
def daysOf (year month : Nat) : Nat :=
  if month = 2 then
    if 4 ∣ year ∧ (¬ 100 ∣ year ∨ 400 ∣ year) then 29 else 28
  else if month ∈ [4, 6, 9, 11] then 30
  else 31

/-- A date. -/
def date : Reader Unit := fun text => do
  let (year, rest) ← fixed 4 0 9999 text
  let (month, rest) ← fixed 2 1 12 (← take? '-' rest)
  let (_, rest) ← fixed 2 1 (daysOf year month) (← take? '-' rest)
  some ((), rest)

/-- A fraction of a second, if there is one. -/
def skipFraction (text : List Char) : List Char :=
  match text with
  | '.' :: c :: rest => if c.isDigit then rest.dropWhile Char.isDigit else text
  | _ => text

/-- A time. -/
def time : Reader Unit := fun text => do
  let (_, rest) ← fixed 2 0 23 text
  let (_, rest) ← fixed 2 0 59 (← take? ':' rest)
  let (_, rest) ← fixed 2 0 60 (← take? ':' rest)
  some ((), skipFraction rest)

/-- How far a time is from the time at Greenwich, which it may say. -/
def offset : Reader Unit
  | [] => some ((), [])
  | c :: rest =>
    if c = 'Z' ∨ c = 'z' then some ((), rest)
    else if c = '+' ∨ c = '-' then do
      let (_, rest) ← fixed 2 0 23 rest
      let (_, rest) ← fixed 2 0 59 (← take? ':' rest)
      some ((), rest)
    else some ((), c :: rest)

/-- A time after a date, and what separates them. -/
def timeOfDate : Reader Unit
  | [] => none
  | c :: rest =>
    if c = 'T' ∨ c = 't' ∨ c = ' ' then do
      let (_, rest) ← time rest
      offset rest
    else none

/-- A date, a time, or both. -/
def moment : Reader Unit := fun text =>
  match date text with
  | some (_, rest) => (timeOfDate rest).orElse fun _ => some ((), rest)
  | none => time text

end Trajectory.Toml
