import Trajectory.Proofs.Sqlite.Operations
/-!
# Sessions with databases

A session sees rows that represent what was written to its database: those that are committed, or
those of a batch that has changes. Every call keeps it so, in whatever order batches are begun and
ended, and closing commits what a batch has changed. The next session with the same file then sees
the same rows.
-/
namespace Trajectory.Sqlite

namespace Session

/-- The rows that a session sees represent a ledger. -/
inductive Sees (session : Session) (volume : Volume) (ledger : Ledger) : Prop where
  /-- They are those of its file, which nobody holds. -/
  | committed {rows : Database}
    (unchanged : session.archive.batch = .idle ∨ session.archive.batch = .begun)
    (idle : session.connection.Idle volume rows) (represents : rows.Represents ledger)
  /-- They are those of a batch, for which it holds its file itself. -/
  | changed {rows : Database} (batch : session.archive.batch = .changed rows)
    (mode : session.archive.mode ≠ .read) (writable : session.connection.writable = true)
    (held : session.connection.Held volume) (represents : rows.Represents ledger)

/-- A session keeps to what was written before it and what it has written. -/
structure Keeps (session : Session) (volume : Volume) (earlier taken : Ledger) : Prop where
  /-- The archive is open. -/
  isOpen : session.archive.closed = false
  /-- The paths are in step with the set of them. -/
  inStep : session.archive.catalog.InStep
  /-- The paths are those there were and those written. -/
  names : session.archive.catalog.names = (earlier.byLast ++ taken.map (·.1)).eraseDups
  /-- The rows are those there were and those written. -/
  sees : session.Sees volume (earlier ++ taken)
  /-- The connection was made by the name of the session. -/
  named : ∃ before mode after,
    Connection.start before session.file mode = (.ok session.connection, after)

variable {session : Session} {volume : Volume} {earlier taken : Ledger}

namespace Keeps

/-- Every read gives the contents written last, and changes nothing. -/
theorem read (keeps : session.Keeps volume earlier taken) (path : String) :
    session.read volume path = (.ok ((earlier ++ taken).latest path), volume) := by
  cases keeps.sees with
  | @committed rows unchanged idle represents =>
    rw [read_of_steady keeps.isOpen unchanged idle.steady, represents.reading]
  | @changed rows batch mode writable held represents =>
    rw [read_of_changed keeps.isOpen batch, represents.reading]

/-- A session that may write refuses nothing else either. -/
theorem requireWritable (keeps : session.Keeps volume earlier taken)
    (mode : session.archive.mode ≠ .read) : session.archive.requireWritable = .ok () := by
  rw [Archive.requireWritable, keeps.isOpen, if_neg Bool.false_ne_true, if_neg mode]

/-- A write that may be made succeeds, and is kept. -/
theorem write (keeps : session.Keeps volume earlier taken) (mode : session.archive.mode ≠ .read)
    (writable : session.connection.writable = true) (engine : Engine) (path : String)
    (data : List UInt8) (compression : Compression)
    (takes : session.archive.Takes engine (session.seen volume) path data compression) :
    ∃ after left, session.write volume engine path data compression = (.ok (), after, left) ∧
      after.Keeps left earlier (taken ++ [(path, data)]) := by
  have allowed := keeps.requireWritable mode
  have inStep := keeps.inStep.insert path ()
  have names : (session.archive.catalog.insert path ()).names =
      (earlier.byLast ++ (taken ++ [(path, data)]).map (·.1)).eraseDups := by
    rw [keeps.inStep.names_insert, keeps.names, List.map_append, ← List.append_assoc,
      List.map_singleton, eraseDups_append_singleton]
  cases keeps.sees with
  | @committed rows unchanged idle represents =>
    have written :=
      represents.stored engine.compressors session.archive.sizes path data compression
    rw [List.append_assoc] at written
    have found := idle.changeable writable
    rw [seen_of_steady unchanged idle.steady] at takes
    rcases unchanged with batch | batch
    · refine ⟨_, _, write_of_idle engine path data compression allowed takes batch found,
        keeps.isOpen, inStep, names, ?_, keeps.named⟩
      exact .committed (.inl rfl) (idle.change _) written
    · refine ⟨_, _, write_of_begun engine path data compression allowed takes batch found,
        keeps.isOpen, inStep, names, ?_, keeps.named⟩
      exact .changed rfl mode writable idle.hold written
  | @changed rows batch _ _ held represents =>
    have written :=
      represents.stored engine.compressors session.archive.sizes path data compression
    rw [List.append_assoc] at written
    rw [seen_of_changed batch] at takes
    refine ⟨_, _, write_of_changed engine path data compression allowed takes batch,
      keeps.isOpen, inStep, names, ?_, keeps.named⟩
    exact .changed rfl mode writable held written

/-- A write of which a statement is refused fails, and what is kept is what was kept before. -/
theorem write_undone (keeps : session.Keeps volume earlier taken)
    (mode : session.archive.mode ≠ .read) (writable : session.connection.writable = true)
    (engine : Engine) (path : String) (data : List UInt8) (compression : Compression)
    (refused : ¬ session.archive.Takes engine (session.seen volume) path data compression) :
    ∃ error after left, session.write volume engine path data compression =
      (.error error, after, left) ∧ after.Keeps left earlier taken := by
  have allowed := keeps.requireWritable mode
  cases keeps.sees with
  | @committed rows unchanged idle represents =>
    have found := idle.changeable writable
    rw [seen_of_steady unchanged idle.steady] at refused
    rcases unchanged with batch | batch
    · obtain ⟨error, undone⟩ :=
        write_of_refused_idle engine path data compression allowed refused batch found
      exact ⟨_, _, _, undone, keeps⟩
    · obtain ⟨error, undone⟩ :=
        write_of_refused_begun engine path data compression allowed refused batch found
      refine ⟨_, _, _, undone, keeps.isOpen, keeps.inStep, keeps.names, ?_, keeps.named⟩
      exact .changed rfl mode writable idle.hold represents
  | @changed rows batch _ _ held represents =>
    rw [seen_of_changed batch] at refused
    obtain ⟨error, undone⟩ :=
      write_of_refused_changed engine path data compression allowed refused batch
    exact ⟨_, _, _, undone, keeps⟩

/-- A write that may not be made is refused, and what is kept is what was kept before. -/
theorem write_refused (keeps : session.Keeps volume earlier taken) (engine : Engine)
    (path : String) (data : List UInt8) (compression : Compression)
    (refused : ¬ (session.archive.mode ≠ .read ∧ session.connection.writable = true ∧
      session.archive.Takes engine (session.seen volume) path data compression)) :
    ∃ error after left, session.write volume engine path data compression =
      (.error error, after, left) ∧ after.Keeps left earlier taken := by
  by_cases mode : session.archive.mode = .read
  · obtain ⟨error, refused, -⟩ := write_of_read mode volume engine path data compression
    exact ⟨error, _, _, refused, keeps⟩
  by_cases writable : session.connection.writable = true
  · exact keeps.write_undone mode writable engine path data compression
      fun takes => refused ⟨mode, writable, takes⟩
  · have allowed := keeps.requireWritable mode
    cases keeps.sees with
    | committed unchanged idle represents =>
      have refused : session.connection.changeable volume = (.error _, volume) := if_pos writable
      exact ⟨_, _, _, write_of_error engine path data compression allowed unchanged refused, keeps⟩
    | changed batch _ may held represents => exact absurd may writable

/-- Beginning a batch changes nothing that is kept. -/
theorem beginBatch (keeps : session.Keeps volume earlier taken) :
    session.beginBatch.1 = .ok () ∧ session.beginBatch.2.Keeps volume earlier taken := by
  rw [Session.beginBatch, Archive.beginBatch, keeps.isOpen, if_neg Bool.false_ne_true]
  by_cases begins : session.archive.mode.canWrite = true ∧ session.archive.batch = .idle
  · rw [if_pos begins]
    refine ⟨rfl, rfl, keeps.inStep, keeps.names, ?_, keeps.named⟩
    cases keeps.sees with
    | committed unchanged idle represents => exact .committed (.inr rfl) idle represents
    | changed batch mode writable held represents => simp [begins.2] at batch
  · rw [if_neg begins]
    exact ⟨rfl, keeps⟩

/-- Whatever batch is under way can be completed, and leaves none. -/
theorem commit (keeps : session.Keeps volume earlier taken) :
    ∃ after left rows, session.commit volume = (.ok (), after, left) ∧
      after.Keeps left earlier taken ∧ after.connection = session.connection ∧
      session.connection.Idle left rows ∧ rows.Represents (earlier ++ taken) := by
  unfold Session.commit
  cases keeps.sees with
  | @committed rows unchanged idle represents =>
    rcases unchanged with batch | batch
    · rw [batch]
      exact ⟨session, volume, rows, rfl, keeps, rfl, idle, represents⟩
    · rw [batch]
      refine ⟨_, volume, rows, rfl, ⟨keeps.isOpen, keeps.inStep, keeps.names, ?_, keeps.named⟩,
        rfl, idle, represents⟩
      exact .committed (.inl rfl) idle represents
  | @changed rows batch mode writable held represents =>
    obtain ⟨left, committed, idle⟩ := held.commit rows
    rw [batch]
    dsimp only
    rw [committed]
    refine ⟨_, left, rows, rfl, ⟨keeps.isOpen, keeps.inStep, keeps.names, ?_, keeps.named⟩, rfl,
      idle, represents⟩
    exact .committed (.inl rfl) idle represents

/-- So can a batch that is ended. -/
theorem endBatch (keeps : session.Keeps volume earlier taken) :
    ∃ after left, session.endBatch volume = (.ok (), after, left) ∧
      after.Keeps left earlier taken := by
  obtain ⟨after, left, rows, ended, kept, -⟩ := keeps.commit
  rw [Session.endBatch, keeps.isOpen, if_neg Bool.false_ne_true, ended]
  exact ⟨after, left, rfl, kept⟩

/-- Closing leaves the rows in the file, which nobody holds. -/
theorem close (keeps : session.Keeps volume earlier taken) :
    ∃ after left rows, session.close volume = (.ok (), after, left) ∧
      session.connection.Idle left rows ∧ rows.Represents (earlier ++ taken) := by
  obtain ⟨after, left, rows, ended, -, -, idle, represents⟩ := keeps.commit
  rw [Session.close, keeps.isOpen, if_neg Bool.false_ne_true, ended]
  exact ⟨_, left, rows, rfl, idle, represents⟩

end Keeps

/-- A session that was started has a connection that found or made the tables. -/
theorem start_cases {file : String} {mode : Access} {sizes : PieceSizes} {after : Volume}
    (started : start volume file mode sizes = (.ok session, after)) :
    ∃ connection between rows, Connection.start volume file mode = (.ok connection, between) ∧
      (if mode.canWrite then connection.prepare between else connection.look between fileTable) =
        (.ok rows, after) ∧ session = ⟨file, connection, .ofDatabase mode sizes rows⟩ := by
  unfold start at started
  split at started
  · simp at started
  · next connection between connected =>
    rcases found : (if mode.canWrite then connection.prepare between
      else connection.look between fileTable) with ⟨rows, settled⟩
    rw [found] at started
    cases rows with
    | error error => simp [Except.map] at started
    | ok rows =>
      obtain ⟨same, rfl⟩ := Prod.mk.inj started
      exact ⟨connection, between, rows, connected, found, (Except.ok.inj same).symm⟩

/-- A session with rows that represent what was written keeps to it. -/
theorem keeps_of_idle {file : String} {mode before : Access} {sizes : PieceSizes} {rows : Database}
    {connection : Connection} {first between : Volume}
    (started : Connection.start first file before = (.ok connection, between))
    (idle : connection.Idle volume rows) (represents : rows.Represents earlier) :
    Keeps ⟨file, connection, .ofDatabase mode sizes rows⟩ volume earlier [] := by
  refine ⟨rfl, Archive.inStep_ofDatabase .., ?_, ?_, ⟨_, _, _, started⟩⟩
  · rw [Archive.names_ofDatabase represents, List.map_nil, List.append_nil,
      eraseDups_of_nodup earlier.nodup_byLast]
  · rw [List.append_nil]
    exact .committed (.inl rfl) idle represents

/-- A session with a file that held no database starts with nothing written. -/
theorem keeps_of_fresh {file : String} {mode : Access} {sizes : PieceSizes} {after : Volume}
    (sound : volume.Sound) (started : start volume file mode sizes = (.ok session, after))
    (fresh : ∀ rows, volume.content session.connection.number ≠ .database rows) :
    session.Keeps after [] [] := by
  obtain ⟨connection, between, rows, connected, found, rfl⟩ := start_cases started
  have inside := Connection.inside_of_start sound connected
  have still_fresh := Connection.fresh_of_start connected fresh
  split at found
  · obtain ⟨rfl, -, idle⟩ := Connection.idle_of_prepare inside still_fresh found
    exact keeps_of_idle connected idle Database.represents_empty
  · exact absurd (Connection.content_of_look found) (still_fresh rows)

/-- A session that connects again to the file of a connection that sees rows sees them too. -/
theorem keeps_of_again {connection : Connection} {rows : Database} {other after : Volume}
    {file : String} {mode : Access} {sizes : PieceSizes}
    (idle : connection.Idle volume rows) (represents : rows.Represents earlier)
    (pruned : volume.Pruned other) (started : start other file mode sizes = (.ok session, after))
    (same_number : session.connection.number = connection.number)
    (same_home : session.connection.home = connection.home) :
    session.Keeps after earlier [] := by
  obtain ⟨second, between, found_rows, connected, found, rfl⟩ := start_cases started
  obtain ⟨rfl, again⟩ := idle.again pruned connected same_number same_home
  rw [again.prepare, again.look, ite_self] at found
  obtain ⟨same, rfl⟩ := Prod.mk.inj found
  obtain rfl := Except.ok.inj same
  exact keeps_of_idle connected again represents

/-- A connection that sees rows can be used for a session. -/
theorem start_of_idle {connection : Connection} {rows : Database} {between : Volume}
    {file : String} {mode : Access} (sizes : PieceSizes)
    (connected : Connection.start volume file mode = (.ok connection, between))
    (idle : connection.Idle between rows) :
    start volume file mode sizes =
      (.ok ⟨file, connection, .ofDatabase mode sizes rows⟩, between) := by
  rw [start, connected]
  dsimp only
  rw [idle.prepare, idle.look, ite_self]
  rfl

end Session

/-- A call of an operation of a session. -/
inductive Call where
  /-- Write an entry. -/
  | write (path : String) (contents : List UInt8) (compression : Compression)
  /-- Read an entry. -/
  | read (path : String)
  /-- Begin a batch of writes. -/
  | beginBatch
  /-- End a batch of writes. -/
  | endBatch
  deriving DecidableEq, Repr

/-- A session under way, with what was written before it and what it has written. -/
structure Course where
  /-- The session. -/
  session : Session
  /-- The volume. -/
  volume : Volume
  /-- The writes that succeeded in earlier sessions with the database, in order. -/
  earlier : Ledger
  /-- The writes of the session that succeeded, in order. -/
  taken : Ledger
  deriving DecidableEq, Repr

namespace Course

/-- The session after a call, whose statements an engine carries out. -/
def call (engine : Engine) (course : Course) : Call → Course
  | .write path contents compression =>
    match course.session.write course.volume engine path contents compression with
    | (.ok (), session, volume) =>
      ⟨session, volume, course.earlier, course.taken ++ [(path, contents)]⟩
    | (.error _, session, volume) => ⟨session, volume, course.earlier, course.taken⟩
  | .read path =>
    ⟨course.session, (course.session.read course.volume path).2, course.earlier, course.taken⟩
  | .beginBatch => ⟨course.session.beginBatch.2, course.volume, course.earlier, course.taken⟩
  | .endBatch =>
    let (_, session, volume) := course.session.endBatch course.volume
    ⟨session, volume, course.earlier, course.taken⟩

/-- The session after several calls in order. -/
def run (engine : Engine) (course : Course) (calls : List Call) : Course :=
  calls.foldl (call engine) course

/-- The courses that sessions with one database can take. -/
inductive Possible : Course → Prop where
  /-- A session is opened with a file that holds no database, which it creates. -/
  | created {volume after : Volume} {file : String} {mode : Access} {sizes : PieceSizes}
    {session : Session} {warning : Option Tar.Warning} (sound : volume.Sound)
    (opened : Trajectory.Archive.openSqlite volume file mode sizes =
      ⟨.ok (.sqlite session), after, warning⟩)
    (fresh : ∀ rows, volume.content session.connection.number ≠ .database rows) :
    Possible ⟨session, after, [], []⟩
  /-- An operation is called. Its statements can be refused, whatever was before. -/
  | called {course : Course} (possible : Possible course) (engine : Engine) (call : Call) :
    Possible (course.call engine call)
  /-- The session is closed, and another is opened with the same file. -/
  | reopened {course : Course} {ended session : Session} {left after : Volume} {file : String}
    {mode : Access} {sizes : PieceSizes} {warning : Option Tar.Warning}
    (possible : Possible course)
    (closed : course.session.close course.volume = (.ok (), ended, left))
    (opened : Trajectory.Archive.openSqlite left file mode sizes =
      ⟨.ok (.sqlite session), after, warning⟩)
    (same_number : session.connection.number = course.session.connection.number)
    (same_home : session.connection.home = course.session.connection.home) :
    Possible ⟨session, after, course.earlier ++ course.taken, []⟩

/-- Operations can be called in any order. -/
theorem Possible.run {course : Course} (possible : course.Possible) (engine : Engine)
    (calls : List Call) : (course.run engine calls).Possible := by
  induction calls generalizing course with
  | nil => exact possible
  | cons call later ih => exact ih (possible.called engine call)

/-- Every call keeps to what was written. -/
theorem keeps_call {course : Course}
    (keeps : course.session.Keeps course.volume course.earlier course.taken) (engine : Engine)
    (call : Call) :
    (course.call engine call).session.Keeps (course.call engine call).volume
      (course.call engine call).earlier (course.call engine call).taken := by
  cases call with
  | write path contents compression =>
    by_cases allowed : course.session.archive.mode ≠ .read ∧
        course.session.connection.writable = true ∧
        course.session.archive.Takes engine (course.session.seen course.volume) path contents
          compression
    · obtain ⟨mode, writable, takes⟩ := allowed
      obtain ⟨after, left, written, kept⟩ :=
        keeps.write mode writable engine path contents compression takes
      rw [call, written]
      exact kept
    · obtain ⟨error, after, left, refused, kept⟩ :=
        keeps.write_refused engine path contents compression allowed
      rw [call, refused]
      exact kept
  | read path =>
    rw [call, keeps.read]
    exact keeps
  | beginBatch => exact keeps.beginBatch.2
  | endBatch =>
    obtain ⟨after, left, ended, kept⟩ := keeps.endBatch
    rw [call, ended]
    exact kept

/-- A database is opened by starting a session, after its file was removed where it is to be
written anew. -/
theorem start_of_openSqlite {volume after : Volume} {file : String} {mode : Access}
    {sizes : PieceSizes} {session : Session} {warning : Option Tar.Warning}
    (opened : Trajectory.Archive.openSqlite volume file mode sizes =
      ⟨.ok (.sqlite session), after, warning⟩) :
    ∃ before, volume.Pruned before ∧
      Session.start before file mode sizes = (.ok session, after) := by
  have of_start {before : Volume}
      (opened : Trajectory.Archive.startSqlite before file mode sizes =
        ⟨.ok (.sqlite session), after, warning⟩) :
      Session.start before file mode sizes = (.ok session, after) := by
    unfold Trajectory.Archive.startSqlite at opened
    rcases started : Session.start before file mode sizes with ⟨result, settled⟩
    rw [started] at opened
    obtain ⟨same, rfl, -⟩ := Opening.mk.inj opened
    cases result with
    | error error => simp [Except.map, Except.mapError] at same
    | ok other =>
      obtain rfl : other = session := by simpa [Except.map, Except.mapError] using same
      rfl
  unfold Trajectory.Archive.openSqlite at opened
  split at opened
  · exact ⟨volume, .same, of_start opened⟩
  · exact ⟨volume, .same, of_start opened⟩
  · have pruned : volume.Pruned (volume.remove file).2 := .removed file
    split at opened
    · next left removed =>
      rw [removed] at pruned
      exact ⟨left, pruned, of_start opened⟩
    · next left removed =>
      rw [removed] at pruned
      exact ⟨left, pruned, of_start opened⟩
    · simp at opened

/-- A session that is started opens the database, where it is not to be written anew. -/
theorem openSqlite_of_start {volume after : Volume} {file : String} {mode : Access}
    {sizes : PieceSizes} {session : Session} (kept : mode ≠ .write)
    (started : Session.start volume file mode sizes = (.ok session, after)) :
    Trajectory.Archive.openSqlite volume file mode sizes =
      ⟨.ok (.sqlite session), after, none⟩ := by
  unfold Trajectory.Archive.openSqlite Trajectory.Archive.startSqlite
  cases mode with
  | read =>
    rw [started]
    rfl
  | append =>
    rw [started]
    rfl
  | write => contradiction

/-- Every possible course keeps to what was written. -/
theorem keeps_of_possible {course : Course} (possible : course.Possible) :
    course.session.Keeps course.volume course.earlier course.taken := by
  induction possible with
  | @created volume after file mode sizes session warning sound opened fresh =>
    obtain ⟨before, pruned, started⟩ := start_of_openSqlite opened
    refine Session.keeps_of_fresh (pruned.sound sound) started fun rows => ?_
    rw [Volume.content, pruned.frame.1]
    exact fresh rows
  | called possible engine call ih => exact keeps_call ih engine call
  | reopened possible closed opened same_number same_home ih =>
    obtain ⟨before, pruned, started⟩ := start_of_openSqlite opened
    obtain ⟨ended, left, rows, done, idle, represents⟩ := ih.close
    obtain ⟨-, same⟩ := Prod.mk.inj (closed.symm.trans done)
    obtain ⟨-, rfl⟩ := Prod.mk.inj same
    exact Session.keeps_of_again idle represents pruned started same_number same_home

/-- Sessions with a database are sessions with a ledger of writes. At any time, a read gives the
contents written last, the paths are those there were when the session began, by their last writes,
and then the new ones by their first, and a write succeeds exactly if the session may write and no
statement of it is refused on the rows that the session sees; one that fails leaves nothing. Batches
can always be begun and ended, and the session can be closed; then its name opens the database
again, in every mode that does not replace it, with the paths by their last writes. -/
theorem possible_refines_ledger {course : Course} (possible : course.Possible) :
    let session := course.session
    let ledger := course.earlier ++ course.taken
    (∀ path, (session.read course.volume path).1 = .ok (ledger.latest path)) ∧
      session.archive.catalog.names =
        course.earlier.byLast ++ course.taken.byFirst.filter (· ∉ course.earlier.byLast) ∧
      (∀ engine path contents compression,
        (session.write course.volume engine path contents compression).1 = .ok () ↔
          session.archive.mode ≠ .read ∧ session.connection.writable = true ∧
            session.archive.Takes engine (session.seen course.volume) path contents compression) ∧
      session.beginBatch.1 = .ok () ∧ (session.endBatch course.volume).1 = .ok () ∧
      ∃ ended left, session.close course.volume = (.ok (), ended, left) ∧
        ∀ mode sizes name, mode ≠ .write → Name.ofText mode session.file = .ok name →
          session.connection.home ≠ none →
          ∃ again, Trajectory.Archive.openSqlite left session.file mode sizes =
              ⟨.ok (.sqlite again), left, none⟩ ∧
            again.connection.number = session.connection.number ∧
            again.connection.home = session.connection.home ∧
            again.archive.catalog.names = ledger.byLast := by
  intro session ledger
  have keeps := keeps_of_possible possible
  refine ⟨fun path => ?_, ?_, fun engine path contents compression => ?_, keeps.beginBatch.1, ?_,
    ?_⟩
  · rw [keeps.read]
  · rw [← Ledger.eraseDups_byLast_append]
    exact keeps.names
  · by_cases allowed : session.archive.mode ≠ .read ∧ session.connection.writable = true ∧
        session.archive.Takes engine (session.seen course.volume) path contents compression
    · obtain ⟨mode, writable, takes⟩ := id allowed
      obtain ⟨after, left, written, -⟩ :=
        keeps.write mode writable engine path contents compression takes
      rw [written]
      exact iff_of_true rfl allowed
    · obtain ⟨error, after, left, refused, -⟩ :=
        keeps.write_refused engine path contents compression allowed
      rw [refused]
      exact iff_of_false (by simp) allowed
  · obtain ⟨after, left, ended, -⟩ := keeps.endBatch
    rw [ended]
  · obtain ⟨ended, left, rows, closed, idle, represents⟩ := keeps.close
    refine ⟨ended, left, closed, fun mode sizes name kept named at_path => ?_⟩
    obtain ⟨before, first, between, connected⟩ := keeps.named
    obtain ⟨second, again, same_number, same_home⟩ := idle.start connected at_path named
    have sees := (idle.again .same again same_number same_home).2
    have opened := openSqlite_of_start kept (Session.start_of_idle sizes again sees)
    exact ⟨_, opened, same_number, same_home, Archive.names_ofDatabase represents mode sizes⟩

/-- What one session writes, at once and in a batch, is read back by the next. Of the writes whose
fourth piece is refused, at once and in the batch, nothing is left. -/
theorem possible_refines_ledger_reopened :
    ∃ course : Course, course.Possible ∧
      course.earlier = [("a", [1, 2, 3]), ("b", []), ("a", [4])] ∧
      course.session.archive.catalog.names = ["b", "a"] ∧
      (course.session.read course.volume "a").1 = .ok [4] ∧
      (course.session.read course.volume "c").1 = .ok [] := by
  let engine : Engine := ⟨.literal, fun _ statement =>
    match statement with
    | .addPiece ⟨_, _, 3⟩ => some .tooBig
    | _ => none⟩
  let calls : List Call :=
    [.write "a" [1, 2, 3] .slow, .write "a" [5, 5, 5, 5] .none, .beginBatch,
      .write "c" [6, 6, 6, 6] .fast, .write "b" [] .none, .write "a" [4] .fast, .endBatch]
  have created : Trajectory.Archive.openSqlite (.empty 0) "a.db" .write ⟨0, 0⟩ =
      ⟨.ok (.sqlite ⟨"a.db", ⟨0, some "a.db", true⟩, ⟨.write, ⟨0, 0⟩, .empty, .idle, false⟩⟩),
        ⟨[(["a.db"], .file 0)], [.database .empty], [], 0⟩, none⟩ := rfl
  have fresh : ∀ rows, (Volume.empty 0).content 0 ≠ .database rows := by
    intro rows
    simp [Volume.content, Volume.empty]
  obtain ⟨course, first, file, home, written⟩ : ∃ course : Course, course.Possible ∧
      course.session.file = "a.db" ∧ course.session.connection.home ≠ none ∧
      course.earlier ++ course.taken = [("a", [1, 2, 3]), ("b", []), ("a", [4])] :=
    ⟨_, (Possible.created (Volume.sound_empty 0) created fresh).run engine calls,
      by decide +kernel, by decide +kernel, by decide +kernel⟩
  obtain ⟨-, -, -, -, -, ended, left, closed, opens⟩ := possible_refines_ledger first
  obtain ⟨again, opened, same_number, same_home, names⟩ :=
    opens .append ⟨7, 2⟩ ⟨"a.db", .create, false⟩ (by simp) (by rw [file]; decide +kernel) home
  have second := first.reopened closed opened same_number same_home
  obtain ⟨reads, -⟩ := possible_refines_ledger second
  dsimp only at reads
  rw [written, List.append_nil] at reads
  rw [written] at names
  exact ⟨_, second, written, names.trans (by decide), reads "a", reads "c"⟩

end Course

end Trajectory.Sqlite
