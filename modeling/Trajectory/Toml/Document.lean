import Trajectory.Toml.Moment
import Trajectory.Toml.Quoted
/-!
# Documents

A document is read line by line: a key with a value, the header of a table, or nothing, with a
comment behind. Values nest in brackets and braces up to a depth, and a key has no more parts
than that.
-/
namespace Trajectory.Toml

open Trajectory.Text

/-- How deep brackets and braces nest, and how many parts a key has, at most. -/
def depthLimit : Nat := 79

/-- A character of a key without quotes. -/
def isKeyCharacter (c : Char) : Bool := c.isAlphanum ∨ c = '-' ∨ c = '_'

/-- One part of a key. -/
def keyPart : Reader String := fun text =>
  match skipBlanks text with
  | '"' :: rest => (oneLine '"' rest).map fun (part, rest) => (part, skipBlanks rest)
  | '\'' :: rest => (oneLine '\'' rest).map fun (part, rest) => (part, skipBlanks rest)
  | text =>
    let part := text.takeWhile isKeyCharacter
    if part = [] then none
    else some (String.ofList part, skipBlanks (text.drop part.length))

/-- A key: the parts before the last one, and the last one. -/
def key : Reader (List String × String) := fun text => do
  let (parts, rest) := separated '.' keyPart text
  let last ← parts.getLast?
  if depthLimit < parts.length then none else some ((parts.dropLast, last), rest)

/-- A key and its value. -/
def pair (value : Reader Value) : Reader Table.Pair := fun text => do
  let ((path, key), rest) ← key text
  let (value, rest) ← value (skipBlanks (← take? '=' rest))
  some (⟨path, key, value⟩, rest)

/-- Values in brackets, after the opening one. A comma may follow the last value. -/
def array (value : Reader Value) : Reader Value := fun text => do
  let item : Reader Value := fun text => do
    let (value, rest) ← value (skipGaps text)
    some (value, skipGaps rest)
  let (items, rest) := separated ',' item text
  let rest := if items.isEmpty then rest else (take? ',' rest).getD rest
  some (.array items, ← take? ']' (skipGaps rest))

/-- A table in braces, after the opening one. -/
def braces (value : Reader Value) : Reader Value := fun text => do
  let item : Reader Table.Pair := fun text => do
    let (found, rest) ← pair value text
    some (found, skipBlanks rest)
  let (pairs, rest) := separated ',' item text
  let table ← Table.fill [] pairs
  some (.table .braces table, ← take? '\x7d' (skipBlanks rest))

/-- A value without brackets or braces. -/
def simple : Reader Value := fun text =>
  match text with
  | [] => none
  | c :: _ =>
    if c = '"' ∨ c = '\'' then (quoted text).map fun (found, rest) => (.text found, rest)
    else if c = 't' then (takeAll? "true".toList text).map (.boolean true, ·)
    else if c = 'f' then (takeAll? "false".toList text).map (.boolean false, ·)
    else
      match moment text with
      | some (_, rest) => some (.moment, rest)
      | none => number text

/-- A value, nested up to a depth. -/
def value : Nat → Reader Value
  | 0 => simple
  | depth + 1 => fun text =>
    match text with
    | '[' :: rest => array (value depth) rest
    | '\x7b' :: rest => braces (value depth) rest
    | _ => simple text

/-- A line. -/
inductive Line where
  /-- Nothing but a comment. -/
  | empty
  /-- A key with its value. -/
  | pair (pair : Table.Pair)
  /-- A header. -/
  | header (path : List String) (name : String) (isRow : Bool)

/-- A line and its end. -/
def line : Reader Line := fun text => do
  match skipBlanks text with
  | '[' :: '[' :: rest =>
    let ((path, name), rest) ← key rest
    some (.header path name true, ← endLine? (← takeAll? "]]".toList rest))
  | '[' :: rest =>
    let ((path, name), rest) ← key rest
    some (.header path name false, ← endLine? (← take? ']' rest))
  | text =>
    match endLine? text with
    | some rest => some (.empty, rest)
    | none =>
      let (found, rest) ← pair (value depthLimit) text
      some (.pair found, ← endLine? rest)

/-- Put a line before those that were sorted into the values before the first header and the
sections. -/
def sortLine (line : Line) :
    List Table.Pair × List Table.Section → List Table.Pair × List Table.Section
  | (pairs, parts) =>
    match line with
    | .empty => (pairs, parts)
    | .pair found => (found :: pairs, parts)
    | .header path name isRow => ([], ⟨path, name, isRow, pairs⟩ :: parts)

/-- Sort the lines into the values before the first header and the sections. -/
def sections (lines : List Line) : List Table.Pair × List Table.Section :=
  lines.foldr sortLine ([], [])

/-- The text without a byte order mark at its front. -/
def skipMark : List Char → List Char
  | c :: rest => if c = Char.ofNat 0xFEFF then rest else c :: rest
  | [] => []

/-- Read a document. -/
def parse (text : String) : Option Table :=
  match many line (skipMark text.toList) with
  | (lines, []) =>
    let (pairs, parts) := sections lines
    Table.ofSections pairs parts
  | (_, _ :: _) => none

end Trajectory.Toml
