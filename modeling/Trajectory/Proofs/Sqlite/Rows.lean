import Trajectory.Proofs.Ledger
import Trajectory.Proofs.Sqlite.Statement
import Trajectory.Sqlite.Archive
/-!
# What the rows of a database hold

Rows represent a ledger of writes when their paths are those written, in the order of their last
writes, and the pieces of each make up what was written there last. Storing an entry keeps rows
that represent a ledger so, at whatever sizes the contents are cut, and in whatever way the pieces
are compressed.
-/
namespace Trajectory.Sqlite

/-- Pieces that decode wherever there is room are put together. -/
theorem assemble_map {level : Int} {size : Nat} {encode : List UInt8 → List UInt8}
    (decodes : ∀ {space piece}, piece.length ≤ space →
      decodePiece level space (encode piece) = .ok piece)
    (pieces : List (List UInt8)) {found : List UInt8}
    (whole : found.length + pieces.flatten.length = size) :
    assemble level size found (pieces.map encode) = .ok (found ++ pieces.flatten) := by
  induction pieces generalizing found with
  | nil =>
    have complete : found.length = size := whole
    rw [List.map_nil, assemble, if_pos complete, List.flatten_nil, List.append_nil]
  | cons piece later ih =>
    rw [List.flatten_cons, List.length_append] at whole
    have room : piece.length ≤ size - found.length := by omega
    have filled : (found ++ piece).length + later.flatten.length = size := by
      rw [List.length_append]
      omega
    rw [List.map_cons, assemble, decodes room]
    dsimp only
    rw [ih filled, List.flatten_cons, List.append_assoc]

/-- Stored contents are put together again, whatever the level of compression and the sizes of the
pieces. -/
theorem contents_store (compressors : Compressors) (data : List UInt8) (compression : Compression)
    (size : Nat) :
    contents data.length (store compressors data compression size).level
      (store compressors data compression size).pieces = .ok data := by
  have positive : ¬ ((data.length : Int) < 0) := by omega
  have whole : ([] : List UInt8).length + (Bytes.chunks size data).flatten.length =
      data.length := by
    rw [Bytes.flatten_chunks, List.length_nil, Nat.zero_add]
  rw [contents, if_neg positive, Int.toNat_natCast]
  unfold store
  dsimp only
  cases compressors.forLevel compression with
  | none =>
    have raw {space : Nat} {piece : List UInt8} (room : piece.length ≤ space) :
        decodePiece rawLevel space (id piece) = .ok piece := by
      rw [decodePiece, if_pos rfl, id, if_neg (Nat.not_lt.mpr room)]
    have assembled := assemble_map raw (Bytes.chunks size data) whole
    rw [List.map_id, Bytes.flatten_chunks] at assembled
    exact assembled
  | some compressor =>
    have block {space : Nat} {piece : List UInt8} (room : piece.length ≤ space) :
        decodePiece lz4Level space (compressor.compress piece) = .ok piece := by
      have other : ¬ lz4Level = rawLevel := by decide
      rw [decodePiece, if_neg other, if_pos rfl, compressor.decode_compress room]
    have assembled := assemble_map block (Bytes.chunks size data) whole
    rw [Bytes.flatten_chunks] at assembled
    exact assembled

namespace Database

/-- The contents of an entry; a path without a row has none. -/
def entry (rows : Database) (path : String) : Except ContentsFault (List UInt8) :=
  match rows.file? path with
  | none => .ok []
  | some row => contents row.size row.level ((rows.pieces path).map (·.contents))

/-- Rows that hold what was written last under every path, in the order of the last writes. -/
structure Represents (rows : Database) (ledger : Ledger) : Prop where
  /-- The paths are those written. -/
  paths : rows.paths = ledger.byLast
  /-- The contents of a path are those written last. -/
  entry : ∀ path, rows.entry path = .ok (ledger.latest path)

/-- Tables without rows hold what was written when nothing was. -/
theorem represents_empty : empty.Represents [] := ⟨rfl, fun _ => rfl⟩

/-- The rows of a path that are left when those of a path are dropped. -/
theorem filter_filter_ne {α : Type} (key : α → String) (rows : List α) (path dropped : String) :
    (rows.filter (key · ≠ dropped)).filter (key · = path) =
      if path = dropped then [] else rows.filter (key · = path) := by
  rw [List.filter_filter]
  by_cases same : path = dropped
  · rw [if_pos same, List.filter_eq_nil_iff]
    intro row _
    simp [same]
  · rw [if_neg same]
    apply List.filter_congr
    intro row _
    by_cases found : key row = path
    · simp [found, same]
    · simp [found]

/-- The row of a path, once the row of an entry was replaced. -/
theorem file?_replace (rows : Database) (row : FileRow) (stored : List (List UInt8))
    (path : String) :
    (rows.replace row stored).file? path =
      if path = row.path then some row else rows.file? path := by
  rw [file?, file?, fileRows_replace, ← List.head?_filter, ← List.head?_filter, List.filter_append,
    filter_filter_ne]
  by_cases same : path = row.path
  · simp [same]
  · simp [same, Ne.symm same]

/-- The pieces of a path, once an entry was replaced. -/
theorem pieces_replace (rows : Database) (row : FileRow) (stored : List (List UInt8))
    (path : String) :
    (rows.replace row stored).pieces path =
      if path = row.path then numbered row.path stored else rows.pieces path := by
  have added : ∀ piece ∈ numbered row.path stored, piece.path = row.path := by
    intro piece member
    obtain ⟨index, inside, rfl⟩ := List.mem_mapIdx.mp member
    rfl
  rw [pieces, pieceRows_replace, List.filter_append, filter_filter_ne]
  by_cases same : path = row.path
  · have all : (numbered row.path stored).filter (fun other => decide (other.path = path)) =
        numbered row.path stored := by
      rw [List.filter_eq_self]
      intro piece member
      simp [added piece member, same]
    rw [if_pos same, if_pos same, List.nil_append, all]
    apply List.mergeSort_of_pairwise
    rw [List.pairwise_iff_getElem]
    intro first second _ _ ordered
    simp only [numbered, List.getElem_mapIdx, decide_eq_true_eq]
    omega
  · have none : (numbered row.path stored).filter
        (fun other => decide (other.path = path)) = [] := by
      rw [List.filter_eq_nil_iff]
      intro piece member
      simp [added piece member, Ne.symm same]
    rw [if_neg same, if_neg same, none, List.append_nil, pieces]

/-- The contents of a path, once an entry was replaced. -/
theorem entry_replace (rows : Database) (row : FileRow) (stored : List (List UInt8))
    (path : String) :
    (rows.replace row stored).entry path =
      if path = row.path then contents row.size row.level stored else rows.entry path := by
  rw [entry, file?_replace, pieces_replace]
  by_cases same : path = row.path
  · rw [if_pos same, if_pos same, if_pos same]
    have held : (numbered row.path stored).map (·.contents) = stored := by
      rw [List.map_eq_iff]
      intro index
      rw [numbered, List.getElem?_mapIdx, Option.map_map]
      exact Option.map_id.symm ▸ rfl
    dsimp only
    rw [held]
  · rw [if_neg same, if_neg same, if_neg same, entry]

/-- Storing an entry keeps rows true to a ledger in which it is written. -/
theorem Represents.replace {rows : Database} {ledger : Ledger} (represents : rows.Represents ledger)
    {row : FileRow} {stored : List (List UInt8)} {data : List UInt8}
    (whole : contents row.size row.level stored = .ok data) :
    (rows.replace row stored).Represents (ledger ++ [(row.path, data)]) := by
  constructor
  · rw [paths_replace, Ledger.byLast_append_singleton, represents.paths]
  · intro path
    rw [entry_replace, Ledger.latest_append_singleton, whole, represents.entry path]
    split
    · rfl
    · rfl

/-- The rows once an entry is stored. -/
def stored (rows : Database) (compressors : Compressors) (sizes : PieceSizes) (path : String)
    (data : List UInt8) (compression : Compression) : Database :=
  let found := store compressors data compression (sizes.forLevel compression)
  rows.replace ⟨path, data.length, found.storedSize, found.level⟩ found.pieces

/-- An entry that is stored has its contents, and the others have those that they had. -/
theorem entry_stored (rows : Database) (compressors : Compressors) (sizes : PieceSizes)
    (path other : String) (data : List UInt8) (compression : Compression) :
    (rows.stored compressors sizes path data compression).entry other =
      if other = path then .ok data else rows.entry other := by
  rw [stored, entry_replace, contents_store]

/-- Storing an entry keeps rows true to a ledger in which it is written. -/
theorem Represents.stored {rows : Database} {ledger : Ledger} (represents : rows.Represents ledger)
    (compressors : Compressors) (sizes : PieceSizes) (path : String) (data : List UInt8)
    (compression : Compression) :
    (rows.stored compressors sizes path data compression).Represents (ledger ++ [(path, data)]) :=
  represents.replace (contents_store compressors data compression _)

/-- What reading a path in some rows gives. -/
def reading (rows : Database) (path : String) : Except ArchiveError (List UInt8) :=
  (rows.entry path).mapError fun fault => .corrupt (.contents path fault)

/-- Rows that represent a ledger are read as it says. -/
theorem Represents.reading {rows : Database} {ledger : Ledger} (represents : rows.Represents ledger)
    (path : String) : rows.reading path = .ok (ledger.latest path) := by
  rw [Database.reading, represents.entry path]
  rfl

end Database

namespace Archive

variable {ledger : Ledger}

/-- An archive lists the paths of its rows, in the order of the last writes. -/
theorem names_ofDatabase {rows : Database} (represents : rows.Represents ledger) (mode : Access)
    (sizes : PieceSizes) : (ofDatabase mode sizes rows).catalog.names = ledger.byLast :=
  represents.paths

/-- The statements that store an entry leave the rows once it is stored. -/
theorem foldl_storing (archive : Archive) (compressors : Compressors) (rows : Database)
    (path : String) (data : List UInt8) (compression : Compression) :
    (archive.storing compressors path data compression).foldl Database.execute rows =
      rows.stored compressors archive.sizes path data compression := rfl

/-- The paths of the rows are in step with the set of them, since they are the primary key. -/
theorem inStep_ofDatabase (rows : Database) (mode : Access) (sizes : PieceSizes) :
    (ofDatabase mode sizes rows).catalog.InStep := .ofNames rows.distinct

/-- An archive that is open reads in the rows that it sees. -/
theorem read_of_open {archive : Archive} (isOpen : archive.closed = false) (committed : Database)
    (path : String) : archive.read committed path = (archive.view committed).reading path := by
  rw [read, isOpen, if_neg Bool.false_ne_true, Database.reading, Database.entry]
  cases (archive.view committed).file? path with
  | none => rfl
  | some row =>
    dsimp only
    cases contents row.size row.level
      (((archive.view committed).pieces path).map (·.contents)) <;> rfl

end Archive

end Trajectory.Sqlite
