/-!
# Tables of a database archive

A database archive has two tables: one row for each entry, and one row for each piece of its
contents. The path is the primary key of the entries: a row for an entry replaces the row of the
same path and goes to the end. The pieces of an entry are read in the order of their numbers.
-/
namespace Trajectory.Sqlite

/-- The row of an entry. -/
structure FileRow where
  /-- Path of the entry. -/
  path : String
  /-- Bytes of the contents. -/
  size : Int
  /-- Bytes of the stored pieces. -/
  storedSize : Int
  /-- How the pieces are stored: 0 as they are, 1 as LZ4 blocks. -/
  level : Int
  deriving DecidableEq, Repr

/-- The row of a piece. -/
structure PieceRow where
  /-- Path of the entry. -/
  path : String
  /-- The stored piece. -/
  contents : List UInt8
  /-- Number of the piece. -/
  index : Int
  deriving DecidableEq, Repr

/-- The rows of both tables, in the order in which they were added. -/
structure Database where
  /-- Rows of entries. -/
  fileRows : List FileRow
  /-- Rows of pieces. -/
  pieceRows : List PieceRow
  /-- The path is the primary key of the entries. -/
  distinct : (fileRows.map (·.path)).Nodup
  deriving DecidableEq, Repr

namespace FileRow

/-- The rows of entries with one added in place of the row of its path. -/
def replaceIn (row : FileRow) (rows : List FileRow) : List FileRow :=
  rows.filter (·.path ≠ row.path) ++ [row]

/-- Rows of distinct paths stay so. -/
theorem nodup_replaceIn {rows : List FileRow} (distinct : (rows.map (·.path)).Nodup)
    (row : FileRow) : ((row.replaceIn rows).map (·.path)).Nodup := by
  have others : ((rows.filter (·.path ≠ row.path)).map (·.path)).Nodup :=
    distinct.sublist (List.filter_sublist.map _)
  rw [replaceIn, List.map_append, List.nodup_append]
  refine ⟨others, List.pairwise_singleton .., fun path kept last added same => ?_⟩
  obtain ⟨other, member, rfl⟩ := List.mem_map.mp kept
  rw [List.map_singleton, List.mem_singleton] at added
  simp [same, added] at member

end FileRow

namespace Database

/-- Tables without rows. -/
def empty : Database := ⟨[], [], .nil⟩

/-- Add the row of an entry, in place of the row of its path. -/
def replaceFile (database : Database) (row : FileRow) : Database :=
  { database with
    fileRows := row.replaceIn database.fileRows
    distinct := row.nodup_replaceIn database.distinct }

/-- The row of a path. -/
def file? (database : Database) (path : String) : Option FileRow :=
  database.fileRows.find? (·.path = path)

/-- The pieces of a path, by number. -/
def pieces (database : Database) (path : String) : List PieceRow :=
  (database.pieceRows.filter (·.path = path)).mergeSort fun left right => left.index ≤ right.index

/-- The paths of all entries, in order. -/
def paths (database : Database) : List String := database.fileRows.map (·.path)

end Database

end Trajectory.Sqlite
