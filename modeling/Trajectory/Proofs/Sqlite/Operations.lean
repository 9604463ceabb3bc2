import Trajectory.Archive.Basic
import Trajectory.Proofs.Sqlite.Rows
import Trajectory.Proofs.Sqlite.Steady
/-!
# Operations of sessions

What an operation of a session does, by what its batch is. A session without changes of its own
reads in the rows that all see, and changes those: at once, or from the first write of a batch on in
rows of its own, which it then reads in.
-/
namespace Trajectory.Sqlite

namespace Archive

variable {archive : Archive} {committed rows : Database}

/-- Outside of a batch rows are committed. -/
theorem settle_of_idle (idle : archive.batch = .idle) :
    archive.settle committed rows = (archive, rows) := by
  rw [settle, idle]

/-- The first write of a batch gives it rows of its own. -/
theorem settle_of_begun (begun : archive.batch = .begun) :
    archive.settle committed rows = ({ archive with batch := .changed rows }, committed) := by
  rw [settle, begun]

/-- A batch that has rows of its own keeps those that it has. -/
theorem settle_of_changed (changed : archive.batch = .changed rows) :
    archive.settle committed rows = (archive, committed) := by
  obtain ⟨_, _, _, _, _⟩ := archive
  obtain rfl := changed
  rfl

/-- Where no batch has changes afterwards, it is the rows settled that are committed. -/
theorem snd_settle (unchanged : ¬ (archive.settle committed rows).1.batch.hasChanges = true) :
    (archive.settle committed rows).2 = rows := by
  unfold settle at unchanged ⊢
  cases batch : archive.batch with
  | idle | lost => rfl
  | begun | changed =>
    rw [batch] at unchanged
    exact absurd rfl unchanged

section Write

variable (engine : Engine) (path : String) (data : List UInt8) (compression : Compression)

/-- No statement that stores an entry is refused on some rows. -/
def Takes (archive : Archive) (engine : Engine) (rows : Database) (path : String)
    (data : List UInt8) (compression : Compression) : Prop :=
  engine.Accepts rows (archive.storing engine.compressors path data compression)

variable (writable : archive.requireWritable = .ok ()) (viewed : archive.view committed = rows)

include writable viewed

/-- A write of which no statement is refused lists its path and changes the rows that are seen. -/
theorem write_of_takes (takes : archive.Takes engine rows path data compression) :
    archive.write engine committed path data compression =
      (.ok (), { archive with catalog := archive.catalog.insert path () }.settle committed
        (rows.stored engine.compressors archive.sizes path data compression)) := by
  rw [write, writable]
  dsimp only
  rw [viewed, Engine.savepoint_of_accepts takes, foldl_storing]

/-- A write of which a statement is refused lists nothing and leaves the rows that are seen. -/
theorem write_of_refused (refused : ¬ archive.Takes engine rows path data compression) :
    ∃ error, archive.write engine committed path data compression =
      (.error (.sqlite error), archive.settle committed rows) := by
  obtain ⟨error, undone⟩ := Engine.savepoint_of_refused refused
  refine ⟨error, ?_⟩
  rw [write, writable]
  dsimp only
  rw [viewed, undone]

/-- A write does the one or the other. -/
theorem write_cases :
    (archive.write engine committed path data compression =
      (.ok (), { archive with catalog := archive.catalog.insert path () }.settle committed
        (rows.stored engine.compressors archive.sizes path data compression))) ∨
    ∃ error, archive.write engine committed path data compression =
      (.error (.sqlite error), archive.settle committed rows) :=
  (Classical.em (archive.Takes engine rows path data compression)).imp
    (write_of_takes engine path data compression writable viewed)
    (write_of_refused engine path data compression writable viewed)

end Write

end Archive

namespace Session

variable {session : Session} {volume : Volume} {rows : Database}

/-- An archive without changes of its own sees the committed rows. -/
theorem view_of_unchanged {archive : Archive} (unchanged : archive.batch = .idle ∨
    archive.batch = .begun) (rows : Database) :
    archive.batch.hasChanges = false ∧ archive.view rows = rows := by
  rcases unchanged with batch | batch
  · rw [Archive.view, batch]
    exact ⟨rfl, rfl⟩
  · rw [Archive.view, batch]
    exact ⟨rfl, rfl⟩

/-- An archive with changes of its own sees the rows it changed. -/
theorem view_of_changed {archive : Archive} {rows : Database}
    (changed : archive.batch = .changed rows) (committed : Database) :
    archive.batch.hasChanges = true ∧ archive.view committed = rows := by
  rw [Archive.view, changed]
  exact ⟨rfl, rfl⟩

/-- The rows that a session sees of a file that holds a database. -/
def seen (session : Session) (volume : Volume) : Database :=
  session.archive.view (volume.content session.connection.number).rows

/-- A session without changes of its own sees the rows that all see. -/
theorem seen_of_steady (unchanged : session.archive.batch = .idle ∨ session.archive.batch = .begun)
    (steady : session.connection.Steady volume rows) : session.seen volume = rows := by
  rw [seen, (view_of_unchanged unchanged _).2, steady.content]
  rfl

/-- A session with changes of its own sees them. -/
theorem seen_of_changed (changed : session.archive.batch = .changed rows) (volume : Volume) :
    session.seen volume = rows := (view_of_changed changed _).2

/-- An archive that is not found to be closed is open. -/
theorem isOpen_of_requireOpen (requires : session.archive.requireOpen = .ok ()) :
    session.archive.closed = false := by
  cases closed : session.archive.closed with
  | true =>
    rw [Archive.requireOpen, closed, if_pos rfl] at requires
    contradiction
  | false => rfl

/-- A session without changes of its own reads in the rows that all see. -/
theorem read_of_steady (isOpen : session.archive.closed = false)
    (unchanged : session.archive.batch = .idle ∨ session.archive.batch = .begun)
    (steady : session.connection.Steady volume rows) (path : String) :
    session.read volume path = (rows.reading path, volume) := by
  obtain ⟨none, viewed⟩ := view_of_unchanged unchanged rows
  rw [read, isOpen, if_neg Bool.false_ne_true, committed, none, if_neg Bool.false_ne_true,
    steady.look rfl rfl]
  dsimp only
  rw [Archive.read_of_open isOpen, viewed]

/-- A session with changes of its own reads in them. -/
theorem read_of_changed (isOpen : session.archive.closed = false)
    (changed : session.archive.batch = .changed rows) (path : String) :
    session.read volume path = (rows.reading path, volume) := by
  obtain ⟨some_changes, viewed⟩ := view_of_changed changed .empty
  rw [read, isOpen, if_neg Bool.false_ne_true, committed, some_changes, if_pos rfl]
  dsimp only
  rw [Archive.read_of_open isOpen, viewed]

/-- Without changes of its own, a session changes the rows that all see. -/
theorem changeable_of_unchanged (none : session.archive.batch.hasChanges = false)
    (volume : Volume) : session.changeable volume = session.connection.changeable volume := by
  rw [changeable, none, if_neg Bool.false_ne_true]

/-- With changes of its own, a session looks at no file to change them. -/
theorem changeable_of_changed (some_changes : session.archive.batch.hasChanges = true)
    (volume : Volume) : session.changeable volume = (.ok .empty, volume) := by
  rw [changeable, some_changes, if_pos rfl]

/-- The archive of a session once a path was written. -/
def listing (session : Session) (path : String) (batch : Batch) : Session :=
  { session with
    archive := { session.archive with
      catalog := session.archive.catalog.insert path ()
      batch := batch } }

section Write

variable (engine : Engine) (path : String) (data : List UInt8)
  (compression : Compression) (writable : session.archive.requireWritable = .ok ())

include writable

/-- A write goes to the rows that may be changed, and the file is what the batch makes of it. -/
theorem write_of_changeable {settled : Volume}
    (found : session.changeable volume = (.ok rows, settled))
    {result : Except ArchiveError Unit} {archive : Archive} {changed : Database}
    (written : session.archive.write engine rows path data compression =
      (result, archive, changed)) :
    session.write volume engine path data compression =
      (result, { session with archive := archive },
        if session.archive.batch.hasChanges then settled
        else if archive.batch.hasChanges then session.connection.hold settled
        else if result.toBool then session.connection.change settled changed
        else settled) := by
  rw [write, writable]
  dsimp only
  rw [found]
  dsimp only
  rw [written]

/-- A write outside of a batch changes the rows at once. -/
theorem write_of_idle (takes : session.archive.Takes engine rows path data compression)
    (idle : session.archive.batch = .idle)
    (found : session.connection.changeable volume = (.ok rows, volume)) :
    session.write volume engine path data compression =
      (.ok (), session.listing path .idle,
        session.connection.change volume
          (rows.stored engine.compressors session.archive.sizes path data compression)) := by
  obtain ⟨none, viewed⟩ := view_of_unchanged (.inl idle) rows
  rw [write_of_changeable engine path data compression writable
    ((changeable_of_unchanged none volume).trans found)
    (Archive.write_of_takes engine path data compression writable viewed takes), idle]
  rfl

/-- The first write of a batch begins a change that lasts. -/
theorem write_of_begun (takes : session.archive.Takes engine rows path data compression)
    (begun : session.archive.batch = .begun)
    (found : session.connection.changeable volume = (.ok rows, volume)) :
    session.write volume engine path data compression =
      (.ok (), session.listing path
        (.changed (rows.stored engine.compressors session.archive.sizes path data compression)),
        session.connection.hold volume) := by
  obtain ⟨none, viewed⟩ := view_of_unchanged (.inr begun) rows
  rw [write_of_changeable engine path data compression writable
    ((changeable_of_unchanged none volume).trans found)
    (Archive.write_of_takes engine path data compression writable viewed takes), begun]
  rfl

/-- Every other write of a batch goes to the rows that it changes. -/
theorem write_of_changed (takes : session.archive.Takes engine rows path data compression)
    (changed : session.archive.batch = .changed rows) :
    session.write volume engine path data compression =
      (.ok (), session.listing path
        (.changed (rows.stored engine.compressors session.archive.sizes path data compression)),
        volume) := by
  obtain ⟨some_changes, viewed⟩ := view_of_changed changed .empty
  rw [write_of_changeable engine path data compression writable
    (changeable_of_changed some_changes volume)
    (Archive.write_of_takes engine path data compression writable viewed takes), changed]
  rfl

/-- A write fails where the rows may not be changed. -/
theorem write_of_error {error : SqliteError}
    (unchanged : session.archive.batch = .idle ∨ session.archive.batch = .begun)
    (refused : session.connection.changeable volume = (.error error, volume)) :
    session.write volume engine path data compression =
      (.error (.sqlite error), session, volume) := by
  rw [write, writable]
  dsimp only
  rw [changeable_of_unchanged (view_of_unchanged unchanged .empty).1, refused]

/-- A write outside of a batch leaves everything as it was where a statement is refused. -/
theorem write_of_refused_idle (refused : ¬ session.archive.Takes engine rows path data compression)
    (idle : session.archive.batch = .idle)
    (found : session.connection.changeable volume = (.ok rows, volume)) :
    ∃ error, session.write volume engine path data compression =
      (.error (.sqlite error), session, volume) := by
  obtain ⟨none, viewed⟩ := view_of_unchanged (.inl idle) rows
  obtain ⟨error, undone⟩ :=
    Archive.write_of_refused engine path data compression writable viewed refused
  rw [Archive.settle_of_idle idle] at undone
  refine ⟨error, ?_⟩
  rw [write_of_changeable engine path data compression writable
    ((changeable_of_unchanged none volume).trans found) undone, idle]
  rfl

/-- The first write of a batch begins a change that lasts, though of the rows as they were where a
statement is refused. -/
theorem write_of_refused_begun (refused : ¬ session.archive.Takes engine rows path data compression)
    (begun : session.archive.batch = .begun)
    (found : session.connection.changeable volume = (.ok rows, volume)) :
    ∃ error, session.write volume engine path data compression =
      (.error (.sqlite error), { session with archive.batch := .changed rows },
        session.connection.hold volume) := by
  obtain ⟨none, viewed⟩ := view_of_unchanged (.inr begun) rows
  obtain ⟨error, undone⟩ :=
    Archive.write_of_refused engine path data compression writable viewed refused
  rw [Archive.settle_of_begun begun] at undone
  refine ⟨error, ?_⟩
  rw [write_of_changeable engine path data compression writable
    ((changeable_of_unchanged none volume).trans found) undone, begun]
  rfl

/-- Every other write of a batch leaves the rows as they were where a statement is refused. -/
theorem write_of_refused_changed
    (refused : ¬ session.archive.Takes engine rows path data compression)
    (changed : session.archive.batch = .changed rows) :
    ∃ error, session.write volume engine path data compression =
      (.error (.sqlite error), session, volume) := by
  obtain ⟨some_changes, viewed⟩ := view_of_changed changed .empty
  obtain ⟨error, undone⟩ :=
    Archive.write_of_refused engine path data compression writable viewed refused
  rw [Archive.settle_of_changed changed] at undone
  refine ⟨error, ?_⟩
  rw [write_of_changeable engine path data compression writable
    (changeable_of_changed some_changes volume) undone, changed]
  rfl

end Write

/-- A session that was opened for reading refuses to be written. -/
theorem write_of_read (reads : session.archive.mode = .read) (volume : Volume)
    (engine : Engine) (path : String) (data : List UInt8) (compression : Compression) :
    ∃ error, session.write volume engine path data compression =
        (.error error, session, volume) ∧
      (session.archive.closed = false → error = .invalidMode .readOnly) := by
  rw [write, Archive.requireWritable, reads]
  cases closed : session.archive.closed with
  | true => exact ⟨_, rfl, fun isOpen => by contradiction⟩
  | false => exact ⟨_, rfl, fun _ => rfl⟩

/-- A session that was opened for reading begins no batch. -/
theorem beginBatch_of_read (reads : session.archive.mode = .read) :
    session.beginBatch.2 = session := by
  have begins_none : ¬ (session.archive.mode.canWrite = true ∧ session.archive.batch = .idle) := by
    rw [reads]
    exact fun begins => Bool.false_ne_true begins.1
  have same : session.archive.beginBatch.2 = session.archive := by
    rw [Archive.beginBatch, if_neg begins_none]
    split <;> rfl
  rw [beginBatch]
  dsimp only
  rw [same]

/-- Where no batch is under way, the end of one changes nothing. -/
theorem endBatch_of_idle (idle : session.archive.batch = .idle) (volume : Volume) :
    ∃ result, session.endBatch volume = (result, session, volume) := by
  rw [endBatch, commit, idle]
  split
  · exact ⟨_, rfl⟩
  · exact ⟨_, rfl⟩

/-- A batch begins where none is under way. -/
theorem beginBatch_of_idle (isOpen : session.archive.closed = false)
    (canWrite : session.archive.mode.canWrite = true) (idle : session.archive.batch = .idle) :
    session.beginBatch = (.ok (), { session with archive.batch := .begun }) := by
  rw [beginBatch, Archive.beginBatch, if_neg (Bool.not_eq_true _ ▸ isOpen),
    if_pos ⟨canWrite, idle⟩]

/-- A batch that is under way goes on. -/
theorem beginBatch_of_busy (isOpen : session.archive.closed = false)
    (busy : session.archive.batch ≠ .idle) : session.beginBatch = (.ok (), session) := by
  rw [beginBatch, Archive.beginBatch, isOpen, if_neg Bool.false_ne_true,
    if_neg fun begins => busy begins.2]

end Session

end Trajectory.Sqlite
