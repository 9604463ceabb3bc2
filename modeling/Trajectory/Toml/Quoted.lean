import Trajectory.Text.Digits
import Trajectory.Toml.Layout
/-!
# Texts in quotes

A text stands in double quotes, where a backslash begins an escape, or in single quotes, where
every character stands for itself. Three quotes instead of one let the text run over several
lines: a line end right after them is dropped, each later one counts as a line feed, and one or
two quotes may stand anywhere in the text.
-/
namespace Trajectory.Toml

open Trajectory.Text

/-- The character of a code in so many hexadecimal digits; a code of no character is refused. -/
def codedChar (digits : Nat) : Reader Char := fun text => do
  let written := text.take digits
  if written.length < digits then none
  else
    let code ← number? 16 written
    if code.isValidChar then some (Char.ofNat code, text.drop digits) else none

/-- The character of an escape, after the backslash. -/
def escaped : Reader Char
  | 'b' :: rest => some ('\x08', rest)
  | 'f' :: rest => some ('\x0c', rest)
  | 'n' :: rest => some ('\n', rest)
  | 'r' :: rest => some ('\r', rest)
  | 't' :: rest => some ('\t', rest)
  | '"' :: rest => some ('"', rest)
  | '\\' :: rest => some ('\\', rest)
  | 'u' :: rest => codedChar 4 rest
  | 'U' :: rest => codedChar 8 rest
  | _ => none

/-- A character in double or single quotes, the quote excepted. -/
def character (quote : Char) : Reader (List Char)
  | [] => none
  | c :: rest =>
    if c = quote then none
    else if c = '\\' ∧ quote = '"' then (escaped rest).map fun (c, rest) => ([c], rest)
    else if isPlain c then some ([c], rest)
    else none

/-- A backslash at the end of a line: the line end and all blanks and lines after it count for
nothing. -/
def joinedLines? (text : List Char) : Option (List Char) := do
  let rest ← newline? (skipBlanks text)
  some (many (fun text => match newline? text with
    | some rest => some ((), rest)
    | none =>
      match text with
      | c :: rest => if isBlank c then some ((), rest) else none
      | [] => none) rest).2

/-- A character, a line end or a pair of quotes at most, in a text of several lines. -/
def lineCharacter (quote : Char) (text : List Char) : Option (List Char × List Char) :=
  let run := text.takeWhile (· = quote)
  if run.length = 0 then
    match newline? text with
    | some rest => some (['\n'], rest)
    | none =>
      match text with
      | '\\' :: rest =>
        if quote = '"' then
          match joinedLines? rest with
          | some rest => some ([], rest)
          | none => character quote text
        else character quote text
      | _ => character quote text
  else if run.length ≤ 2 then some (run, text.drop run.length)
  else none

/-- The text of one line, after the opening quote. -/
def oneLine (quote : Char) : Reader String := fun text => do
  let (parts, rest) := many (character quote) text
  some (String.ofList parts.flatten, ← take? quote rest)

/-- The text of several lines, after three opening quotes. Of up to five quotes at the end, the
last three close the text. -/
def severalLines (quote : Char) : Reader String := fun text => do
  let text := (newline? text).getD text
  let (parts, rest) := many (lineCharacter quote) text
  let run := rest.takeWhile (· = quote)
  if 3 ≤ run.length ∧ run.length ≤ 5 then
    some (String.ofList (parts.flatten ++ run.drop 3), rest.drop run.length)
  else none

/-- A text in quotes. -/
def quoted : Reader String
  | '"' :: '"' :: '"' :: rest => severalLines '"' rest
  | '\'' :: '\'' :: '\'' :: rest => severalLines '\'' rest
  | '"' :: rest => oneLine '"' rest
  | '\'' :: rest => oneLine '\'' rest
  | _ => none

end Trajectory.Toml
