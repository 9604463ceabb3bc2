import Trajectory.Proofs.Sqlite.Scope
import Trajectory.Proofs.Sqlite.Session
/-!
# Sessions with an account of their writes

The calls of a session that may write, in any order, with an account of the writes that succeeded.
Every call keeps the account balanced: the rows that the settled writes leave are those that other
connections see, and a scope is open exactly if the archive has a batch under way.
-/
namespace Trajectory.Sqlite

/-- The answer of a session to a call, with the session and the volume after it. -/
def Session.perform (engine : Engine) (session : Session) (volume : Volume) :
    Trajectory.Archive.Call → Trajectory.Archive.Answer × Session × Volume
  | .write request =>
    (session.write volume engine request.path request.contents request.compression).map .done id
  | .read path =>
    (.contents (session.read volume path).1, session, (session.read volume path).2)
  | .beginBatch => (.done session.beginBatch.1, session.beginBatch.2, volume)
  | .endBatch => (session.endBatch volume).map .done id
  | .size => (.count (Trajectory.Archive.sqlite session).size, session, volume)
  | .pathAt index => (.path ((Trajectory.Archive.sqlite session).pathAt index), session, volume)
  | .close => (session.close volume).map .done id

/-- A session under way, with an account of its writes. -/
structure Account where
  /-- The session. -/
  session : Session
  /-- The volume. -/
  volume : Volume
  /-- The writes that succeeded. -/
  scope : Scope
  deriving DecidableEq, Repr

namespace Account

/-- The session after a call, which is entered into the account with its answer. -/
def call (engine : Engine) (account : Account) (call : Trajectory.Archive.Call) : Account :=
  let (answer, session, volume) := account.session.perform engine account.volume call
  ⟨session, volume, account.scope.record call answer⟩

/-- The session after several calls in order. -/
def run (engine : Engine) (account : Account) (calls : List Trajectory.Archive.Call) : Account :=
  calls.foldl (call engine) account

variable (compressors : Compressors)

/-- The rows in use are those that the account tells, over those there were at first. -/
inductive Agrees (base : Database) (account : Account) : Prop where
  /-- All writes are settled. -/
  | settled (pending : account.scope.pending = none) (batch : account.session.archive.batch = .idle)
    (steady : account.session.connection.Steady account.volume
      (base.storeAll compressors account.session.archive.sizes account.scope.settled))
  /-- A scope is open in which nothing was written. -/
  | entered (pending : account.scope.pending = some [])
    (batch : account.session.archive.batch = .begun)
    (isOpen : account.session.archive.closed = false)
    (steady : account.session.connection.Steady account.volume
      (base.storeAll compressors account.session.archive.sizes account.scope.settled))
  /-- A scope is open in which a write was tried, and the archive sees those that succeeded. -/
  | changed {held : List Trajectory.Archive.Request} (pending : account.scope.pending = some held)
    (batch : account.session.archive.batch =
      .changed (base.storeAll compressors account.session.archive.sizes account.scope.all))
    (isOpen : account.session.archive.closed = false)
    (lasting : account.session.connection.Lasting account.volume
      (base.storeAll compressors account.session.archive.sizes account.scope.settled))

/-- An account of a session that may write, over the rows there were at first. -/
structure Balances (first : Session) (base : Database) (account : Account) : Prop where
  /-- It is over the same connection. -/
  connection : account.session.connection = first.connection
  /-- It cuts contents into pieces of the same sizes. -/
  sizes : account.session.archive.sizes = first.archive.sizes
  /-- It may write. -/
  canWrite : account.session.archive.mode.canWrite = true
  /-- The rows are those that the account tells. -/
  agrees : account.Agrees compressors base

variable {compressors} {engine : Engine} {base : Database} {account : Account} {first : Session}

namespace Agrees

/-- Other connections see the rows that the settled writes leave. -/
theorem steady (agrees : account.Agrees compressors base) :
    account.session.connection.Steady account.volume
      (base.storeAll compressors account.session.archive.sizes account.scope.settled) := by
  cases agrees with
  | settled pending batch steady => exact steady
  | entered pending batch isOpen steady => exact steady
  | changed pending batch isOpen lasting => exact lasting.steady

/-- The archive reads in the rows that all its writes leave, and changes nothing by it. -/
theorem read (agrees : account.Agrees compressors base)
    (isOpen : account.session.archive.closed = false) (path : String) :
    account.session.read account.volume path =
      ((base.storeAll compressors account.session.archive.sizes account.scope.all).reading path,
        account.volume) := by
  cases agrees with
  | settled pending batch steady =>
    rw [Session.read_of_steady isOpen (.inl batch) steady, Scope.all_of_none pending]
  | entered pending batch _ steady =>
    rw [Session.read_of_steady isOpen (.inr batch) steady, Scope.all_of_nil pending]
  | changed pending batch _ lasting => exact Session.read_of_changed isOpen batch path

/-- An archive that is closed has no scope open. -/
theorem pending_of_closed (agrees : account.Agrees compressors base)
    (closed : account.session.archive.closed = true) : account.scope.pending = none := by
  cases agrees with
  | settled pending batch steady => exact pending
  | entered pending batch isOpen steady => simp [closed] at isOpen
  | changed pending batch isOpen lasting => simp [closed] at isOpen

/-- A batch can be completed at any time, and then everything is settled. -/
theorem commit (agrees : account.Agrees compressors base) :
    ∃ left, account.session.commit account.volume =
        (.ok (), { account.session with archive.batch := .idle }, left) ∧
      account.session.connection.Steady left
        (base.storeAll compressors account.session.archive.sizes account.scope.all) := by
  obtain ⟨session, volume, scope⟩ := account
  cases agrees with
  | settled pending batch steady =>
    refine ⟨volume, ?_, Scope.all_of_none pending ▸ steady⟩
    have same : { session with archive.batch := .idle } = session := by
      rw [← batch]
    rw [Session.commit, batch, same]
  | entered pending batch _ steady =>
    refine ⟨volume, ?_, Scope.all_of_nil pending ▸ steady⟩
    rw [Session.commit, batch]
  | changed pending batch _ lasting =>
    obtain ⟨left, committed, steady⟩ := lasting.commit _
    refine ⟨left, ?_, steady⟩
    rw [Session.commit, batch]
    dsimp only
    rw [committed]

end Agrees

namespace Balances

/-- An archive that is closed has no scope open, and refuses every call but to close it. -/
theorem refused (balances : account.Balances engine.compressors first base)
    (closed : account.session.archive.closed = true) (call : Trajectory.Archive.Call) :
    account.call engine call = account := by
  obtain ⟨session, volume, scope⟩ := account
  have unwritable : session.archive.requireWritable = .error .closed := by
    rw [Archive.requireWritable, closed, if_pos rfl]
  cases call with
  | write request =>
    rw [Account.call, Session.perform, Session.write, unwritable]
    rfl
  | read path =>
    rw [Account.call, Session.perform, Session.read, closed, if_pos rfl]
    rfl
  | beginBatch =>
    rw [Account.call, Session.perform, Session.beginBatch, Archive.beginBatch, closed, if_pos rfl]
    rfl
  | endBatch =>
    rw [Account.call, Session.perform, Session.endBatch, closed, if_pos rfl]
    rfl
  | size => rfl
  | pathAt index => rfl
  | close =>
    rw [Account.call, Session.perform, Session.close, closed, if_pos rfl]
    dsimp only [Prod.map, Scope.record]
    rw [Scope.left_of_none (balances.agrees.pending_of_closed closed)]
    rfl

/-- A write goes where the account tells, at once or in the open scope, and one of which a statement
is refused leaves nothing. -/
theorem write (balances : account.Balances engine.compressors first base)
    (isOpen : account.session.archive.closed = false) (request : Trajectory.Archive.Request) :
    (account.call engine (.write request)).Balances engine.compressors first base := by
  obtain ⟨session, volume, scope⟩ := account
  obtain ⟨connection, sizes, canWrite, agrees⟩ := balances
  have writes : session.archive.mode ≠ .read := by
    intro reads
    rw [reads] at canWrite
    contradiction
  have writable : session.archive.requireWritable = .ok () := by
    rw [Archive.requireWritable, isOpen, if_neg Bool.false_ne_true, if_neg writes]
  rw [call, Session.perform]
  dsimp only
  let takes (rows : Database) :=
    session.archive.Takes engine rows request.path request.contents request.compression
  cases agrees with
  | settled pending batch steady =>
    rcases steady.changeable with ⟨error, refused⟩ | ⟨found, allowed⟩
    · rw [Session.write_of_error engine _ _ _ writable (.inl batch) refused]
      exact ⟨connection, sizes, canWrite, .settled pending batch steady⟩
    by_cases accepted : takes (base.storeAll engine.compressors session.archive.sizes scope.settled)
    · rw [Session.write_of_idle engine _ _ _ writable accepted batch found]
      refine ⟨connection, sizes, canWrite, ?_⟩
      dsimp only [Prod.map, Scope.record]
      rw [Scope.write_of_none pending]
      refine .settled rfl rfl ?_
      show session.connection.Steady _
        (base.storeAll engine.compressors session.archive.sizes (scope.settled ++ [request]))
      rw [Database.storeAll_append_singleton]
      exact steady.change allowed _
    · obtain ⟨error, undone⟩ :=
        Session.write_of_refused_idle engine _ _ _ writable accepted batch found
      rw [undone]
      exact ⟨connection, sizes, canWrite, .settled pending batch steady⟩
  | entered pending batch _ steady =>
    rcases steady.changeable with ⟨error, refused⟩ | ⟨found, allowed⟩
    · rw [Session.write_of_error engine _ _ _ writable (.inr batch) refused]
      exact ⟨connection, sizes, canWrite, .entered pending batch isOpen steady⟩
    by_cases accepted : takes (base.storeAll engine.compressors session.archive.sizes scope.settled)
    · rw [Session.write_of_begun engine _ _ _ writable accepted batch found]
      refine ⟨connection, sizes, canWrite, ?_⟩
      dsimp only [Prod.map, Scope.record]
      refine .changed (Scope.pending_write pending request) ?_ isOpen ?_
      · rw [Scope.all_write, Database.storeAll_append_singleton, Scope.all_of_nil pending]
        rfl
      · rw [Scope.settled_write pending]
        exact steady.hold allowed
    · obtain ⟨error, undone⟩ :=
        Session.write_of_refused_begun engine _ _ _ writable accepted batch found
      rw [undone]
      refine ⟨connection, sizes, canWrite, .changed pending ?_ isOpen (steady.hold allowed)⟩
      dsimp only [Prod.map, Scope.record]
      rw [Scope.all_of_nil pending]
      rfl
  | changed pending batch _ lasting =>
    by_cases accepted : takes (base.storeAll engine.compressors session.archive.sizes scope.all)
    · rw [Session.write_of_changed engine _ _ _ writable accepted batch]
      refine ⟨connection, sizes, canWrite, ?_⟩
      dsimp only [Prod.map, Scope.record]
      refine .changed (Scope.pending_write pending request) ?_ isOpen ?_
      · rw [Scope.all_write, Database.storeAll_append_singleton]
        rfl
      · rw [Scope.settled_write pending]
        exact lasting
    · obtain ⟨error, undone⟩ :=
        Session.write_of_refused_changed engine _ _ _ writable accepted batch
      rw [undone]
      exact ⟨connection, sizes, canWrite, .changed pending batch isOpen lasting⟩

/-- A batch begins a scope, unless one is open. -/
theorem beginBatch (balances : account.Balances engine.compressors first base)
    (isOpen : account.session.archive.closed = false) :
    (account.call engine .beginBatch).Balances engine.compressors first base := by
  obtain ⟨session, volume, scope⟩ := account
  obtain ⟨connection, sizes, canWrite, agrees⟩ := balances
  rw [call, Session.perform]
  cases agrees with
  | settled pending batch steady =>
    rw [Session.beginBatch_of_idle isOpen canWrite batch]
    refine ⟨connection, sizes, canWrite, .entered ?_ rfl isOpen steady⟩
    show some (scope.pending.getD []) = some []
    rw [pending, Option.getD_none]
  | entered pending batch _ steady =>
    rw [Session.beginBatch_of_busy isOpen (batch.trans_ne (by simp))]
    refine ⟨connection, sizes, canWrite, .entered ?_ batch isOpen steady⟩
    show some (scope.pending.getD []) = some []
    rw [pending, Option.getD_some]
  | changed pending batch _ lasting =>
    rw [Session.beginBatch_of_busy isOpen (batch.trans_ne (by simp))]
    refine ⟨connection, sizes, canWrite, ?_⟩
    dsimp only [Scope.record]
    rw [Scope.entered_of_some pending]
    exact .changed pending batch isOpen lasting

/-- A batch can be ended, which settles the open scope, if there is one. -/
theorem endBatch (balances : account.Balances engine.compressors first base)
    (isOpen : account.session.archive.closed = false) :
    (account.session.endBatch account.volume).1 = .ok () ∧
      (account.call engine .endBatch).Balances engine.compressors first base := by
  obtain ⟨session, volume, scope⟩ := account
  obtain ⟨left, committed, steady⟩ := balances.agrees.commit
  rw [call, Session.perform, Session.endBatch, isOpen, if_neg Bool.false_ne_true, committed]
  exact ⟨rfl, balances.connection, balances.sizes, balances.canWrite, .settled rfl rfl steady⟩

/-- The archive can be closed, which settles the open scope, if there is one. -/
theorem close (balances : account.Balances engine.compressors first base)
    (isOpen : account.session.archive.closed = false) :
    (account.session.close account.volume).1 = .ok () ∧
      (account.call engine .close).session.archive.closed = true ∧
      (account.call engine .close).Balances engine.compressors first base := by
  obtain ⟨session, volume, scope⟩ := account
  obtain ⟨left, committed, steady⟩ := balances.agrees.commit
  rw [call, Session.perform, Session.close, isOpen, if_neg Bool.false_ne_true, committed]
  exact ⟨rfl, rfl, balances.connection, balances.sizes, balances.canWrite,
    .settled rfl rfl steady⟩

/-- An account tells the rows that others see and those that the archive reads. -/
theorem tells (balances : account.Balances engine.compressors first base) :
    account.scope.Tells engine.compressors first.archive.sizes base first.connection account.volume
        (account.session.archive.closed = false)
        (fun path => (account.session.read account.volume path).1) ∧
      (account.session.close account.volume).1 = .ok () := by
  obtain ⟨connection, sizes, canWrite, agrees⟩ := balances
  rw [← connection, ← sizes]
  refine ⟨⟨fun other same_number same_home table => ?_, fun isOpen path => ?_, fun closed => ?_⟩,
    ?_⟩
  · exact agrees.steady.look same_number same_home table
  · rw [agrees.read isOpen, Database.reading_storeAll]
  · exact agrees.pending_of_closed (by simpa using closed)
  · cases closed : account.session.archive.closed with
    | true => rw [Session.close, closed, if_pos rfl]
    | false => exact (close ⟨connection, sizes, canWrite, agrees⟩ closed).1

/-- Once it was closed the archive is closed. -/
theorem closed_close (balances : account.Balances engine.compressors first base) :
    (account.call engine .close).session.archive.closed = true := by
  cases closed : account.session.archive.closed with
  | true =>
    rw [balances.refused closed]
    exact closed
  | false => exact (balances.close closed).2.1

/-- Every call keeps the account balanced. -/
theorem call (balances : account.Balances engine.compressors first base)
    (call : Trajectory.Archive.Call) :
    (account.call engine call).Balances engine.compressors first base := by
  cases closed : account.session.archive.closed with
  | true =>
    rw [balances.refused closed]
    exact balances
  | false =>
    cases call with
    | write request => exact balances.write closed request
    | read path =>
      rw [Account.call, Session.perform, balances.agrees.read closed]
      exact balances
    | beginBatch => exact balances.beginBatch closed
    | endBatch => exact (balances.endBatch closed).2
    | size => exact balances
    | pathAt index => exact balances
    | close => exact (balances.close closed).2.2

/-- Every run of calls keeps the account balanced. -/
theorem run (balances : account.Balances engine.compressors first base)
    (calls : List Trajectory.Archive.Call) :
    (account.run engine calls).Balances engine.compressors first base := by
  induction calls generalizing account with
  | nil => exact balances
  | cons call later ih => exact ih (balances.call call)

end Balances

/-- An archive that was opened to be written starts with nothing written, over the rows that it
found. -/
theorem balances_of_openSqlite {before after : Volume} {file : String} {mode : Access}
    {sizes : PieceSizes} {session : Session} {warning : Option Tar.Warning}
    (sound : before.Sound) (writes : mode.canWrite = true)
    (opened : Trajectory.Archive.openSqlite before file mode sizes =
      ⟨.ok (.sqlite session), after, warning⟩) :
    session.archive.sizes = sizes ∧
      ∃ base, after.content session.connection.number = .database base ∧
        ∀ compressors, (⟨session, after, .start⟩ : Account).Balances compressors session base := by
  obtain ⟨pruned, removed, started⟩ := Course.start_of_openSqlite opened
  obtain ⟨connection, between, base, connected, found, rfl⟩ := Session.start_cases started
  rw [writes, if_pos rfl] at found
  have inside := Connection.inside_of_start (removed.sound sound) connected
  have steady := Connection.steady_of_prepare inside found
  exact ⟨rfl, base, steady.content, fun compressors =>
    ⟨rfl, rfl, writes, .settled rfl rfl steady⟩⟩

end Account

end Trajectory.Sqlite
