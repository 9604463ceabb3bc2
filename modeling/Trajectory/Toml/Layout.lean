import Trajectory.Text.Reader
/-!
# Blanks, line ends and comments

Blanks are spaces and tabs. A line ends with a line feed, which a carriage return may precede,
or with the text. A comment runs to the end of its line, and holds no control character but the
tab.
-/
namespace Trajectory.Toml

open Trajectory.Text

/-- A space or a tab. -/
def isBlank (c : Char) : Bool := c = ' ' ∨ c = '\t'

/-- A character that may stand in a comment or a text: no control character but the tab. -/
def isPlain (c : Char) : Bool := c = '\t' ∨ ' ' ≤ c ∧ c ≠ '\x7f'

/-- Skip blanks. -/
def skipBlanks (text : List Char) : List Char := text.dropWhile isBlank

/-- Take a line end. -/
def newline? : List Char → Option (List Char)
  | '\n' :: rest | '\r' :: '\n' :: rest => some rest
  | _ => none

/-- Skip a comment, if there is one. -/
def skipComment : List Char → List Char
  | '#' :: rest => rest.dropWhile isPlain
  | text => text

/-- Skip what may follow on a line, and the end of the line. -/
def endLine? (text : List Char) : Option (List Char) :=
  match skipComment (skipBlanks text) with
  | [] => some []
  | rest => newline? rest

/-- One step over blanks, a line end, or a comment with its line end. -/
def gap : Reader Unit
  | [] => none
  | c :: rest =>
    if isBlank c then some ((), rest)
    else (newline? (skipComment (c :: rest))).map ((), ·)

/-- Skip blanks, line ends and comments. -/
def skipGaps (text : List Char) : List Char := (many gap text).2

end Trajectory.Toml
