import Trajectory.Proofs.Accessor.Replay
import Trajectory.Proofs.Sqlite.Account
/-!
# Scopes of an accessor

Every call of an accessor is one of its archive. A batch of writes is a scope of the archive: it
begins one and, finished or abandoned, ends it. An accessor that is closed has closed its archive.
-/
namespace Trajectory

namespace Accessor

/-- What can be asked of an accessor, or of a batch of writes that it is in. -/
inductive Call where
  /-- Write an entry. -/
  | write (draft : Draft)
  /-- Write an entry of a batch. -/
  | writeInBatch (draft : Draft)
  /-- Read an entry. -/
  | read (path : String)
  /-- Begin a batch of writes. -/
  | startBatch
  /-- Finish a batch of writes, or abandon it. -/
  | finishBatch
  /-- Close the accessor. -/
  | close
  deriving DecidableEq

/-- What is written to the archive for a draft. -/
def request (accessor : Accessor) (draft : Draft) (immediate : Bool) : Archive.Request :=
  ⟨draft.path, draft.contents, draft.compression.getD accessor.compression, immediate⟩

/-- What an accessor asks of its archive. -/
def asks (accessor : Accessor) : Call → Archive.Call
  | .write draft => .write (accessor.request draft true)
  | .writeInBatch draft => .write (accessor.request draft false)
  | .read path => .read path
  | .startBatch => .beginBatch
  | .finishBatch => .endBatch
  | .close => .close

/-- Begin a batch of writes and keep the accessor. -/
def startBatch (accessor : Accessor) : Except ArchiveError Unit × Accessor :=
  match Batch.start accessor with
  | .ok batch => (.ok (), batch.accessor)
  | .error (error, accessor) => (.error error, accessor)

/-- Write an entry of a batch and keep the accessor. -/
def writeInBatch (libraries : Libraries) (accessor : Accessor) (volume : Volume) (draft : Draft) :
    Except ArchiveError Unit × Accessor × Volume :=
  let (result, batch, volume) := Batch.write ⟨accessor⟩ volume draft libraries
  (result, batch.accessor, volume)

/-- The answer to a call, with the accessor and the volume after it. -/
def perform (libraries : Libraries) (accessor : Accessor) (volume : Volume) :
    Call → Archive.Answer × Accessor × Volume
  | .write draft => (accessor.write volume draft libraries).map .done id
  | .writeInBatch draft => (accessor.writeInBatch libraries volume draft).map .done id
  | .read path => (accessor.read volume path).map .contents id
  | .startBatch => (.done accessor.startBatch.1, accessor.startBatch.2, volume)
  | .finishBatch => (Batch.finish ⟨accessor⟩ volume).map .done id
  | .close => (accessor.close volume).map .done id

/-- To begin a batch and to keep the accessor is to begin a batch of the accessor. -/
theorem startBatch_eq (accessor : Accessor) : accessor.startBatch = accessor.beginBatch := by
  rw [startBatch, Batch.start]
  rcases accessor.beginBatch with ⟨error | done, after⟩
  · rfl
  · rfl

/-- An accessor under way, with an account of its writes. -/
structure Account where
  /-- The accessor. -/
  accessor : Accessor
  /-- The volume. -/
  volume : Volume
  /-- The writes that succeeded. -/
  scope : Scope
  deriving DecidableEq

namespace Account

/-- The accessor after a call, which is entered into the account with its answer. -/
def call (libraries : Libraries) (account : Account) (call : Call) : Account :=
  let (answer, accessor, volume) := account.accessor.perform libraries account.volume call
  ⟨accessor, volume, account.scope.record (account.accessor.asks call) answer⟩

/-- The accessor after several calls in order. -/
def run (libraries : Libraries) (account : Account) (calls : List Call) : Account :=
  calls.foldl (call libraries) account

/-- An accessor of a database does what the session with it does. -/
structure Follows (account : Account) (inner : Sqlite.Account) : Prop where
  /-- The volume is the same. -/
  volume : account.volume = inner.volume
  /-- The same writes succeeded. -/
  scope : account.scope = inner.scope
  /-- The accessor has the session while that is open. -/
  archive : account.accessor.archive = some (.sqlite inner.session) ∧
      inner.session.archive.requireOpen = .ok () ∨
    account.accessor.archive = none ∧ inner.session.archive.closed = true

namespace Follows

variable {libraries : Libraries} {account : Account} {inner : Sqlite.Account}
  {first : Sqlite.Session} {base : Sqlite.Database}

/-- A call of an accessor that is open is a call of its session. -/
theorem call_of_open (follows : account.Follows inner)
    (balances : inner.Balances libraries.engine.compressors first base)
    (current : account.accessor.archive = some (.sqlite inner.session))
    (isOpen : inner.session.archive.requireOpen = .ok ()) (call : Call) :
    (account.call libraries call).Follows
      (inner.call libraries.engine (account.accessor.asks call)) := by
  obtain ⟨accessor, volume, scope⟩ := account
  obtain ⟨session, _, _⟩ := inner
  obtain ⟨rfl, rfl, -⟩ := follows
  have written (request : Archive.Request) :
      ((Archive.sqlite session).write volume request libraries).2.1.requireOpen = .ok () :=
    (Archive.requireOpen_write _ _ _ _).trans isOpen
  cases call with
  | write draft =>
    rw [Account.call, perform, Accessor.write, put_of_some current]
    exact ⟨rfl, rfl, .inl ⟨rfl, written (accessor.request draft true)⟩⟩
  | writeInBatch draft =>
    rw [Account.call, perform, writeInBatch, Batch.write, put_of_some current]
    exact ⟨rfl, rfl, .inl ⟨rfl, written (accessor.request draft false)⟩⟩
  | read path =>
    rw [Account.call, perform, read_of_some current]
    exact ⟨rfl, rfl, .inl ⟨rfl, isOpen⟩⟩
  | startBatch =>
    rw [Account.call, perform, startBatch_eq, beginBatch_of_some current]
    exact ⟨rfl, rfl, .inl ⟨rfl, ((Archive.sqlite session).goesOn_beginBatch).requireOpen.trans
      isOpen⟩⟩
  | finishBatch =>
    rw [Account.call, perform, Batch.finish, endBatch_of_some current]
    exact ⟨rfl, rfl, .inl ⟨rfl, ((Archive.sqlite session).goesOn_endBatch volume).requireOpen.trans
      isOpen⟩⟩
  | close =>
    rw [Account.call, perform, Accessor.close, current]
    exact ⟨rfl, rfl, .inr ⟨rfl, balances.closed_close⟩⟩

/-- An accessor that is closed refuses every call but to close it. -/
theorem call_of_closed (follows : account.Follows inner)
    (balances : inner.Balances libraries.engine.compressors first base)
    (none : account.accessor.archive = none)
    (closed : inner.session.archive.closed = true) (call : Call) :
    account.call libraries call = account := by
  obtain ⟨accessor, volume, scope⟩ := account
  cases call with
  | write draft =>
    rw [Account.call, perform, Accessor.write, put, none]
    rfl
  | writeInBatch draft =>
    rw [Account.call, perform, writeInBatch, Batch.write, put, none]
    rfl
  | read path =>
    rw [Account.call, perform, Accessor.read, none]
    rfl
  | startBatch =>
    rw [Account.call, perform, startBatch_eq, beginBatch, none]
    rfl
  | finishBatch =>
    rw [Account.call, perform, Batch.finish, endBatch, none]
    rfl
  | close =>
    have same : scope = inner.scope := follows.scope
    have settled : scope.left = scope := by
      rw [same]
      exact Scope.left_of_none (balances.agrees.pending_of_closed closed)
    rw [Account.call, perform, Accessor.close, none]
    dsimp only [Prod.map, Accessor.asks, Scope.record]
    rw [settled]
    rfl

/-- A call of an accessor is a call of its session. -/
theorem call (follows : account.Follows inner)
    (balances : inner.Balances libraries.engine.compressors first base) (call : Call) :
    (account.call libraries call).Follows
      (inner.call libraries.engine (account.accessor.asks call)) := by
  rcases follows.archive with ⟨current, isOpen⟩ | ⟨none, closed⟩
  · exact follows.call_of_open balances current isOpen call
  · rw [follows.call_of_closed balances none closed, balances.refused closed]
    exact follows

/-- A run of calls of an accessor is a run of calls of its session. -/
theorem run (follows : account.Follows inner)
    (balances : inner.Balances libraries.engine.compressors first base) (calls : List Call) :
    ∃ asked, (account.run libraries calls).Follows (inner.run libraries.engine asked) := by
  induction calls generalizing account inner with
  | nil => exact ⟨[], follows⟩
  | cons call later ih =>
    obtain ⟨asked, goes⟩ := ih (follows.call balances call) (balances.call _)
    exact ⟨account.accessor.asks call :: asked, goes⟩

/-- The accessor tells of the database what its session tells. -/
theorem tells (follows : account.Follows inner)
    (balances : inner.Balances libraries.engine.compressors first base) :
    account.scope.Tells libraries.engine.compressors first.archive.sizes base first.connection
        account.volume (account.accessor.archive ≠ none)
        (fun path => (account.accessor.read account.volume path).1) ∧
      (account.accessor.close account.volume).1 = .ok () := by
  obtain ⟨accessor, volume, scope⟩ := account
  obtain ⟨session, _, _⟩ := inner
  obtain ⟨tells, closes⟩ := balances.tells
  obtain ⟨rfl, rfl, ⟨current, requires⟩ | ⟨none, closed⟩⟩ := follows
  · have isOpen := Sqlite.Session.isOpen_of_requireOpen requires
    refine ⟨⟨tells.committed, fun _ path => ?_, fun given => ?_⟩, ?_⟩
    · rw [read_of_some current]
      exact tells.reads isOpen path
    · exact absurd (current.trans_ne (Option.some_ne_none _)) given
    · rw [Accessor.close, current]
      exact closes
  · refine ⟨⟨tells.committed, fun has => absurd none has, fun _ => ?_⟩, ?_⟩
    · exact tells.completed (closed.trans_ne (by simp))
    · rw [Accessor.close, none]

end Follows

end Account

/-- Whoever writes to a database through a session or an accessor of it, at once and in scopes,
with calls in any order: at any time all other connections see what the settled writes left of the
rows that were found at first, which are all writes that succeeded if no scope is open, and those
before the scope otherwise; reading gives what was written last of all writes that succeeded; and
the session can be closed, after which everything is settled. -/
theorem scopes_settle_whole {before after : Volume} {file : String} {mode : Access}
    {sizes : PieceSizes} {session : Sqlite.Session} {warning : Option Tar.Warning}
    (sound : before.Sound) (writes : mode.canWrite = true)
    (opened : Archive.openSqlite before file mode sizes =
      ⟨.ok (.sqlite session), after, warning⟩) :
    ∃ base, after.content session.connection.number = .database base ∧
      (∀ engine calls,
        let account := (Sqlite.Account.mk session after .start).run engine calls
        account.scope.Tells engine.compressors sizes base session.connection account.volume
            (account.session.archive.closed = false)
            (fun path => (account.session.read account.volume path).1) ∧
          (account.session.close account.volume).1 = .ok ()) ∧
      ∀ accessor : Accessor, accessor.archive = some (.sqlite session) → ∀ libraries calls,
        let account := (Account.mk accessor after .start).run libraries calls
        account.scope.Tells libraries.engine.compressors sizes base session.connection
            account.volume (account.accessor.archive ≠ none)
            (fun path => (account.accessor.read account.volume path).1) ∧
          (account.accessor.close account.volume).1 = .ok () := by
  obtain ⟨rfl, base, content, balances⟩ :=
    Sqlite.Account.balances_of_openSqlite sound writes opened
  refine ⟨base, content, fun engine calls => ?_, fun accessor current libraries calls => ?_⟩
  · exact ((balances engine.compressors).run calls).tells
  · have isOpen := (Archive.opened_of_openSqlite opened).requireOpen
    have follows : (Account.mk accessor after .start).Follows ⟨session, after, .start⟩ :=
      ⟨rfl, rfl, .inl ⟨current, isOpen⟩⟩
    have balances := balances libraries.engine.compressors
    obtain ⟨asked, goes⟩ := follows.run balances calls
    exact goes.tells (balances.run asked)

/-- A write in a scope that is begun twice is seen by others once the accessor is closed, and by
the accessor itself at once. Of a write in it whose piece is refused nothing is left. -/
theorem scopes_settle_whole_twice :
    let engine : Sqlite.Engine := ⟨.literal, fun _ statement =>
      match statement with
      | .addPiece ⟨"c", _, _⟩ => some .tooBig
      | _ => none⟩
    let libraries : Libraries := ⟨engine, .literal⟩
    let session : Sqlite.Session :=
      ⟨"a.db", ⟨0, some "a.db", true⟩, ⟨.write, ⟨0, 0⟩, .empty, .idle, false⟩⟩
    let volume : Volume := ⟨[(["a.db"], .file 0)], [.database .empty], [], 0⟩
    let accessor : Accessor := .ofArchive "a.db" .write .none (.sqlite session)
    let account : Account := ⟨accessor, volume, .start⟩
    let first : Archive.Request := ⟨"a", [1], .none, true⟩
    let second : Archive.Request := ⟨"b", [2], .none, false⟩
    let calls : List Call := [.write (.bytes "a" [1]), .startBatch, .startBatch,
      .writeInBatch (.bytes "b" [2]), .writeInBatch (.bytes "c" [3])]
    let during := account.run libraries calls
    let last := account.run libraries (calls ++ [.close])
    let seen (volume : Volume) := (session.connection.look volume Sqlite.fileTable).1
    Archive.openSqlite (.empty 0) "a.db" .write ⟨0, 0⟩ =
        ⟨.ok (.sqlite session), volume, none⟩ ∧
      during.scope = ⟨[first], some [second]⟩ ∧ last.scope = ⟨[first, second], none⟩ ∧
      seen during.volume = .ok (Sqlite.Database.empty.storeAll .literal ⟨0, 0⟩ [first]) ∧
      (during.accessor.read during.volume "b").1 = .ok [2] ∧
      (during.accessor.read during.volume "c").1 = .ok [] ∧
      seen last.volume = .ok (Sqlite.Database.empty.storeAll .literal ⟨0, 0⟩ [first, second]) := by
  intro engine libraries session volume accessor account first second calls
  have opened : Archive.openSqlite (.empty 0) "a.db" .write ⟨0, 0⟩ =
      ⟨.ok (.sqlite session), volume, none⟩ := rfl
  obtain ⟨base, content, -, tells⟩ := scopes_settle_whole (Volume.sound_empty 0) rfl opened
  obtain rfl : Sqlite.Database.empty = base := Content.database.inj content
  have pending : (account.run libraries calls).scope = ⟨[first], some [second]⟩ := by
    decide +kernel
  have settled : (account.run libraries (calls ++ [.close])).scope = ⟨[first, second], none⟩ := by
    decide +kernel
  have isOpen : (account.run libraries calls).accessor.archive ≠ none := by decide +kernel
  have told := (tells accessor rfl libraries calls).1
  have told_last := (tells accessor rfl libraries (calls ++ [.close])).1
  -- What is told of the runs is used as it is told of any accounts, so that they are not evaluated.
  generalize account.run libraries calls = during at pending isOpen told ⊢
  generalize account.run libraries (calls ++ [.close]) = last at settled told_last ⊢
  intro _ _ seen
  refine ⟨opened, pending, settled, ?_, ?_, ?_, ?_⟩
  · have seen_now := told.committed session.connection rfl rfl Sqlite.fileTable
    rw [pending] at seen_now
    exact congrArg Prod.fst seen_now
  · rw [told.reads isOpen "b", pending]
    decide +kernel
  · rw [told.reads isOpen "c", pending]
    decide +kernel
  · have seen_then := told_last.committed session.connection rfl rfl Sqlite.fileTable
    rw [settled] at seen_then
    exact congrArg Prod.fst seen_then

end Accessor

end Trajectory
