import Trajectory.Sqlite.Database
import Trajectory.Sqlite.Pieces
/-!
# Statements that change the tables

An entry is stored by several statements: its old pieces are dropped, its row is added, and its
pieces are added one by one. A statement can be refused, such as for a piece that is longer than
the database takes. It then does nothing itself, and those before it are undone by going back to
the savepoint that was set before the first.

What statements are refused, and how pieces are compressed, is left to an engine.
-/
namespace Trajectory.Sqlite

/-- A statement that changes the tables. -/
inductive Statement where
  /-- Drop the pieces of a path. -/
  | dropPieces (path : String)
  /-- Add the row of an entry, in place of the row of its path. -/
  | replaceFile (row : FileRow)
  /-- Add the row of a piece. -/
  | addPiece (row : PieceRow)
  deriving DecidableEq, Repr

namespace Statement

/-- The statements that store an entry: its row and its pieces, numbered from zero, in place of
what the path had. -/
def storing (row : FileRow) (pieces : List (List UInt8)) : List Statement :=
  dropPieces row.path :: replaceFile row ::
    pieces.mapIdx fun index piece => addPiece ⟨row.path, piece, index⟩

end Statement

namespace Database

/-- Carry out a statement. -/
def execute (rows : Database) : Statement → Database
  | .dropPieces path => { rows with pieceRows := rows.pieceRows.filter (·.path ≠ path) }
  | .replaceFile row => rows.replaceFile row
  | .addPiece row => { rows with pieceRows := rows.pieceRows ++ [row] }

/-- Store an entry: its row and its pieces, in place of what the path had. -/
def replace (rows : Database) (row : FileRow) (pieces : List (List UInt8)) : Database :=
  (Statement.storing row pieces).foldl execute rows

end Database

/-- What carries out statements. -/
structure Engine where
  /-- How pieces are compressed. -/
  compressors : Compressors
  /-- Why a statement is refused on some rows, if it is. -/
  refuses : Database → Statement → Option SqliteError

namespace Engine

/-- The engine that stores literal runs and refuses no statement. -/
def literal : Engine := ⟨.literal, fun _ _ => none⟩

variable (engine : Engine)

/-- Carry out statements in order, up to the first that is refused. -/
def carryOut (rows : Database) : List Statement → Except SqliteError Unit × Database
  | [] => (.ok (), rows)
  | statement :: later =>
    match engine.refuses rows statement with
    | some error => (.error error, rows)
    | none => carryOut (rows.execute statement) later

/-- Carry out statements after setting a savepoint. Where one is refused the rows go back to what
they were then. -/
def savepoint (rows : Database) (statements : List Statement) :
    Except SqliteError Unit × Database :=
  match engine.carryOut rows statements with
  | (.ok (), changed) => (.ok (), changed)
  | (.error error, _) => (.error error, rows)

end Engine

end Trajectory.Sqlite
