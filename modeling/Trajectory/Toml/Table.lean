/-!
# Values and tables

A TOML document is a table: values by key. A table remembers how it came about, because that
decides what may be added to it later. A table of a header can be named by no second header. One
that is implied by the path of a header can still get its own header, and one made by a dotted
key can be extended by dotted keys only. A table in braces is complete.
-/
namespace Trajectory.Toml

/-- How a table came about. -/
inductive Origin where
  /-- It has a header, or is the document itself. -/
  | header
  /-- A header names a table below it. -/
  | implied
  /-- A dotted key names a value below it. -/
  | dotted
  /-- It stands in braces. -/
  | braces
  deriving DecidableEq, Repr

/-- A value. -/
inductive Value where
  /-- A text. -/
  | text (text : String)
  /-- A whole number. -/
  | integer (value : Int)
  /-- A number with a fraction or an exponent, an infinity, or no number; which one is not kept. -/
  | float
  /-- A truth value. -/
  | boolean (value : Bool)
  /-- A date, a time, or both; which one is not kept. -/
  | moment
  /-- Values in brackets. -/
  | array (items : List Value)
  /-- Values by key. -/
  | table (origin : Origin) (entries : List (String × Value))
  /-- Tables that share one header. -/
  | rows (tables : List (List (String × Value)))
  deriving Repr

/-- Values by key, each key once. -/
abbrev Table := List (String × Value)

namespace Table

/-- Put a value at a key, in place of the one there. -/
def put (table : Table) (key : String) (value : Value) : Table :=
  match table with
  | [] => [(key, value)]
  | (head, old) :: rest =>
    if head = key then (head, value) :: rest else (head, old) :: put rest key value

/-- Put a table at the end of rows, in place of the last one. -/
def putLast (rows : List Table) (table : Table) : List Table := rows.dropLast ++ [table]

/-- Change the table that a path leads to, making those that are missing. A dotted path leads
through no table with a header. -/
def change (isDotted : Bool) (step : Origin → Table → Option Table) (origin : Origin)
    (table : Table) : List String → Option Table
  | [] => step origin table
  | key :: path =>
    match table.lookup key with
    | none => do
      let origin := if isDotted then .dotted else .implied
      let below ← change isDotted step origin [] path
      some (put table key (.table origin below))
    | some (.table .braces _) => none
    | some (.table origin below) => do
      if isDotted ∧ origin = .header then none
      else
        let below ← change isDotted step origin below path
        some (put table key (.table origin below))
    | some (.rows tables) => do
      let below ← change isDotted step .header (← tables.getLast?) path
      some (put table key (.rows (putLast tables below)))
    | some _ => none

/-- A value and the path of its key. -/
structure Pair where
  /-- The tables that lead to it. -/
  path : List String
  /-- The last part of the key. -/
  key : String
  /-- The value. -/
  value : Value

/-- Add a value at a key that is new. Only a table that dotted keys made is reached by one. -/
def add (pair : Pair) (origin : Origin) (table : Table) : Option Table :=
  if origin = .dotted ↔ pair.path = [] then none
  else if (table.lookup pair.key).isSome then none
  else some (put table pair.key pair.value)

/-- Add values one after the other. -/
def fill (table : Table) (pairs : List Pair) : Option Table :=
  pairs.foldlM (fun table pair => change true (add pair) .header table pair.path) table

/-- A header and the values under it. -/
structure Section where
  /-- The tables that lead to it. -/
  path : List String
  /-- The last part of the name. -/
  name : String
  /-- Whether it adds a row, rather than being the one table of its name. -/
  isRow : Bool
  /-- The values under it. -/
  pairs : List Pair

/-- Add the table of a section to the table above it. -/
def addSection (part : Section) (table : Table) : Option Table := do
  match part.isRow, table.lookup part.name with
  | false, none => some (put table part.name (.table .header (← fill [] part.pairs)))
  | false, some (.table .implied below) =>
    some (put table part.name (.table .header (← fill below part.pairs)))
  | true, none => some (put table part.name (.rows [← fill [] part.pairs]))
  | true, some (.rows tables) =>
    some (put table part.name (.rows (tables ++ [← fill [] part.pairs])))
  | _, some _ => none

/-- The table of a document: values without a header, and sections. -/
def ofSections (pairs : List Pair) (parts : List Section) : Option Table := do
  parts.foldlM (fun table part => change false (fun _ => addSection part) .header table part.path)
    (← fill [] pairs)

end Table

end Trajectory.Toml
