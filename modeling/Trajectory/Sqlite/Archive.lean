import Trajectory.Catalog
import Trajectory.Sqlite.Statement
/-!
# Archives in databases

Every write is a transaction of its own, or part of the transaction of a batch. From the first
write of a batch on the archive reads its own view, and the committed rows stay as they were. A
write of which a statement is refused leaves the rows as they were, and lists nothing. The
enumeration is read once, when the archive is opened, and extended by writes of new paths.

Every operation takes the committed rows, and a write gives them back.
-/
namespace Trajectory.Sqlite

/-- A transaction that spans several writes. -/
inductive Batch where
  /-- None is under way. -/
  | idle
  /-- One is under way and has changed nothing. -/
  | begun
  /-- One is under way and sees these rows. -/
  | changed (rows : Database)
  /-- One could not be completed. -/
  | lost
  deriving DecidableEq, Repr

namespace Batch

/-- The rows that the archive sees, given those committed. -/
def view (committed : Database) : Batch → Database
  | idle | begun | lost => committed
  | changed rows => rows

/-- Whether the archive sees rows of its own. -/
def hasChanges : Batch → Bool
  | idle | begun | lost => false
  | changed _ => true

end Batch

/-- An archive in a database. -/
structure Archive where
  /-- How it was opened. -/
  mode : Access
  /-- Sizes of stored pieces. -/
  sizes : PieceSizes
  /-- The entries. -/
  catalog : Catalog Unit
  /-- The batch under way. -/
  batch : Batch
  /-- Whether the archive is closed. -/
  closed : Bool
  deriving DecidableEq, Repr

namespace Archive

/-- Open a database for its committed rows. -/
def ofDatabase (mode : Access) (sizes : PieceSizes) (committed : Database) : Archive where
  mode := mode
  sizes := sizes
  catalog := .ofNames committed.paths
  batch := .idle
  closed := false

/-- The rows that the archive itself sees. -/
def view (archive : Archive) (committed : Database) : Database := archive.batch.view committed

/-- The statements that store an entry. -/
def storing (archive : Archive) (compressors : Compressors) (path : String)
    (contents : List UInt8) (compression : Compression) : List Statement :=
  let stored := store compressors contents compression (archive.sizes.forLevel compression)
  Statement.storing ⟨path, contents.length, stored.storedSize, stored.level⟩ stored.pieces

/-- Whether the archive may be written. -/
def requireWritable (archive : Archive) : Except ArchiveError Unit :=
  if archive.closed then .error .closed
  else if archive.mode = .read then .error (.invalidMode .readOnly)
  else .ok ()

/-- The archive and the committed rows once the rows that it sees have become others: those of a
batch are its own, and any others are committed. -/
def settle (archive : Archive) (committed rows : Database) : Archive × Database :=
  match archive.batch with
  | .idle | .lost => (archive, rows)
  | .begun | .changed _ => ({ archive with batch := .changed rows }, committed)

/-- Write an entry. -/
def write (archive : Archive) (engine : Engine) (committed : Database) (path : String)
    (contents : List UInt8) (compression : Compression) :
    Except ArchiveError Unit × Archive × Database :=
  match archive.requireWritable with
  | .error error => (.error error, archive, committed)
  | .ok () =>
    let statements := archive.storing engine.compressors path contents compression
    match engine.savepoint (archive.view committed) statements with
    | (.error error, rows) => (.error (.sqlite error), archive.settle committed rows)
    | (.ok (), rows) =>
      let listed := { archive with catalog := archive.catalog.insert path () }
      (.ok (), listed.settle committed rows)

/-- Read an entry; a path without entry reads as empty. -/
def read (archive : Archive) (committed : Database) (path : String) :
    Except ArchiveError (List UInt8) :=
  if archive.closed then .error .closed
  else
    match (archive.view committed).file? path with
    | none => .ok []
    | some row =>
      let pieces := ((archive.view committed).pieces path).map (·.contents)
      match contents row.size row.level pieces with
      | .ok bytes => .ok bytes
      | .error fault => .error (.corrupt (.contents path fault))

/-- Whether the archive is open. -/
def requireOpen (archive : Archive) : Except ArchiveError Unit :=
  if archive.closed then .error .closed else .ok ()

/-- Begin a batch of writes; one that is under way goes on. -/
def beginBatch (archive : Archive) : Except ArchiveError Unit × Archive :=
  if archive.closed then (.error .closed, archive)
  else if archive.mode.canWrite ∧ archive.batch = .idle then
    (.ok (), { archive with batch := .begun })
  else (.ok (), archive)

end Archive

end Trajectory.Sqlite
