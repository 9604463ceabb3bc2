import Trajectory.Sqlite.Statement
/-!
# All statements or none

Statements are carried out up to the first that is refused, so rows can be left that have an entry
in part. Going back to the savepoint leaves nothing of it: either no statement is refused and all
are carried out, or the rows are what they were.
-/
namespace Trajectory.Sqlite

namespace Engine

variable {engine : Engine} {rows : Database} {statements : List Statement}

/-- No statement is refused on the rows that it finds. -/
def Accepts (engine : Engine) (rows : Database) : List Statement → Prop
  | [] => True
  | statement :: later =>
    engine.refuses rows statement = none ∧ engine.Accepts (rows.execute statement) later

/-- Statements of which none is refused are all carried out. -/
theorem carryOut_of_accepts (accepts : engine.Accepts rows statements) :
    engine.carryOut rows statements = (.ok (), statements.foldl Database.execute rows) := by
  induction statements generalizing rows with
  | nil => rfl
  | cons statement later ih =>
    rw [carryOut, accepts.1]
    exact ih accepts.2

/-- Otherwise those before the first that is refused are. -/
theorem carryOut_of_refused (refused : ¬ engine.Accepts rows statements) :
    ∃ before statement after error, statements = before ++ statement :: after ∧
      engine.Accepts rows before ∧
      engine.refuses (before.foldl Database.execute rows) statement = some error ∧
      engine.carryOut rows statements = (.error error, before.foldl Database.execute rows) := by
  induction statements generalizing rows with
  | nil => exact absurd trivial refused
  | cons statement later ih =>
    cases found : engine.refuses rows statement with
    | some error =>
      refine ⟨[], statement, later, error, rfl, trivial, found, ?_⟩
      rw [carryOut, found]
      rfl
    | none =>
      obtain ⟨before, other, after, error, parts, accepts, stopped, left⟩ :=
        ih fun accepts => refused ⟨found, accepts⟩
      refine ⟨statement :: before, other, after, error, ?_, ⟨found, accepts⟩, stopped, ?_⟩
      · rw [parts, List.cons_append]
      · rw [carryOut, found]
        exact left

/-- After a savepoint, statements of which none is refused are all carried out. -/
theorem savepoint_of_accepts (accepts : engine.Accepts rows statements) :
    engine.savepoint rows statements = (.ok (), statements.foldl Database.execute rows) := by
  rw [savepoint, carryOut_of_accepts accepts]

/-- After a savepoint nothing is left of statements of which one is refused. -/
theorem savepoint_of_refused (refused : ¬ engine.Accepts rows statements) :
    ∃ error, engine.savepoint rows statements = (.error error, rows) := by
  obtain ⟨_, _, _, error, -, -, -, left⟩ := carryOut_of_refused refused
  exact ⟨error, by rw [savepoint, left]⟩

end Engine

namespace Database

variable (rows : Database) (row : FileRow) (pieces : List (List UInt8))

/-- The rows of the pieces of an entry, numbered from zero. -/
def numbered (path : String) (pieces : List (List UInt8)) : List PieceRow :=
  pieces.mapIdx fun index piece => ⟨path, piece, index⟩

/-- Rows of pieces are added one after the other. -/
theorem foldl_addPiece (added : List PieceRow) :
    (added.map Statement.addPiece).foldl execute rows =
      { rows with pieceRows := rows.pieceRows ++ added } := by
  induction added generalizing rows with
  | nil => rw [List.append_nil]; rfl
  | cons piece later ih =>
    rw [List.map_cons, List.foldl_cons, ih, execute, List.append_assoc, List.singleton_append]

/-- The rows once an entry is stored. -/
theorem replace_eq : rows.replace row pieces =
    { rows.replaceFile row with
      pieceRows := rows.pieceRows.filter (·.path ≠ row.path) ++ numbered row.path pieces } := by
  have added : (pieces.mapIdx fun index piece => Statement.addPiece ⟨row.path, piece, index⟩) =
      (numbered row.path pieces).map Statement.addPiece := by
    apply List.ext_getElem?
    intro index
    rw [numbered, List.getElem?_mapIdx, List.getElem?_map, List.getElem?_mapIdx, Option.map_map]
    rfl
  rw [replace, Statement.storing, added, List.foldl_cons, List.foldl_cons, foldl_addPiece]
  rfl

/-- The rows of entries once one is stored. -/
theorem fileRows_replace : (rows.replace row pieces).fileRows =
    rows.fileRows.filter (·.path ≠ row.path) ++ [row] := by
  rw [replace_eq]
  rfl

/-- The rows of pieces once an entry is stored. -/
theorem pieceRows_replace : (rows.replace row pieces).pieceRows =
    rows.pieceRows.filter (·.path ≠ row.path) ++ numbered row.path pieces := by
  rw [replace_eq]

/-- The paths once an entry is stored: its own is the last. -/
theorem paths_replace : (rows.replace row pieces).paths =
    rows.paths.filter (· ≠ row.path) ++ [row.path] := by
  rw [paths, fileRows_replace, List.map_append, List.map_singleton, paths, List.filter_map]
  rfl

end Database

end Trajectory.Sqlite
