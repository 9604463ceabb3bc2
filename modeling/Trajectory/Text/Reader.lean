/-!
# Readers

A reader takes a value off the front of a text, and gives the rest of the text back. A reader that
takes something each time can be repeated until it refuses, which happens at the latest at the end
of the text.
-/
namespace Trajectory.Text

/-- Takes a value off the front of a text, or refuses. -/
abbrev Reader (α : Type) := List Char → Option (α × List Char)

/-- Take one expected character. -/
def take? (expected : Char) : List Char → Option (List Char)
  | [] => none
  | c :: rest => if c = expected then some rest else none

/-- Take expected characters. -/
def takeAll? : (expected text : List Char) → Option (List Char)
  | [], text => some text
  | _ :: _, [] => none
  | e :: expected, c :: rest => if c = e then takeAll? expected rest else none

/-- Repeat a reader, at most once for each character of a limit, after the values found so far. -/
def manyAfter {α : Type} (read : Reader α) (found : List α) :
    (limit text : List Char) → List α × List Char
  | _ :: limit, text@(_ :: _) =>
    match read text with
    | some (value, rest) => manyAfter read (value :: found) limit rest
    | none => (found.reverse, text)
  | _, text => (found.reverse, text)

/-- Repeat a reader until it refuses or the text ends. A reader that takes something each time is
done before it was repeated once for each character. -/
def many {α : Type} (read : Reader α) (text : List Char) : List α × List Char :=
  manyAfter read [] text text

/-- Values with one separator between neighbours; there may be none. -/
def separated {α : Type} (separator : Char) (read : Reader α) (text : List Char) :
    List α × List Char :=
  match read text with
  | none => ([], text)
  | some (value, rest) =>
    let next : Reader α := fun text => (take? separator text).bind read
    let (values, last) := many next rest
    (value :: values, last)

end Trajectory.Text
