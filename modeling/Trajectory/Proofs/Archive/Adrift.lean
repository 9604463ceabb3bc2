import Trajectory.Proofs.Archive.Apart
/-!
# Databases that are adrift

A connection that may change a database removes what stands in the place of its journal before it
looks at the rows. That may be anything: the file of another database that is in use, or the journal
of a batch there. The other database is adrift then, and stays so whatever is done with it. It takes
no write outside of a batch, a batch under way can be ended only if its journal is still there, and
where the file was opened it is not found again.
-/
namespace Trajectory

namespace Sqlite

variable {connection : Connection} {session : Session} {volume other : Volume}
  {earlier taken : Ledger}

namespace Connection

/-- A connection is astray: its file is not found where it was opened. -/
structure Astray (connection : Connection) (volume : Volume) : Prop where
  /-- The file exists. -/
  inside : connection.number < volume.files.length
  /-- It is not found at its path. -/
  gone : ∃ home, connection.home = some home ∧
    ∀ place, volume.find home ≠ .ok (place, .file connection.number)

/-- A change that lasted cannot be completed when its journal is not found. -/
theorem commit_of_gone {home : String} (at_path : connection.home = some home)
    (gone : ∀ place number, volume.find (journal home) ≠ .ok (place, .file number))
    (rows : Database) : (connection.commit volume rows).1 = .error .diskError := by
  rw [Connection.commit, at_path]
  dsimp only
  generalize written_eq : (volume.release connection.number).setContent connection.number
    (.database rows) = written
  have nodes : written.nodes = volume.nodes := by rw [← written_eq]; rfl
  rcases removed : written.remove (journal home) with ⟨result, left⟩
  cases result with
  | error fault => rfl
  | ok done =>
    obtain ⟨place, number, found⟩ := Volume.find_of_remove removed
    refine absurd (Volume.find_congr (fun place node there => ?_) found) (gone place number)
    rwa [← Volume.nodeAt_congr nodes]

namespace Astray

/-- A connection stays astray in a tree that is found in it, over as many files. -/
theorem of_find (astray : connection.Astray volume)
    (files : volume.files.length ≤ other.files.length)
    (found : ∀ {path place}, other.find path = .ok (place, .file connection.number) →
      volume.find path = .ok (place, .file connection.number)) : connection.Astray other := by
  obtain ⟨inside, home, at_path, gone⟩ := astray
  exact ⟨Nat.lt_of_lt_of_le inside files, home, at_path, fun place back => gone place (found back)⟩

/-- A connection stays astray when a file is removed. -/
theorem pruned (astray : connection.Astray volume) (pruned : volume.Pruned other) :
    connection.Astray other :=
  astray.of_find pruned.length pruned.find

/-- A connection stays astray when it is left alone. -/
theorem undisturbed (astray : connection.Astray volume)
    (undisturbed : connection.Undisturbed volume other) : connection.Astray other := by
  obtain ⟨inside, home, at_path, gone⟩ := astray
  refine ⟨Nat.lt_of_lt_of_le inside undisturbed.length, home, at_path, fun place back => ?_⟩
  have opened := Volume.openFile_of_find back
  rw [(undisturbed.home home at_path).1] at opened
  obtain ⟨before, found⟩ := Volume.find_of_openFile opened
  exact gone before found

/-- A connection that is astray cannot change its file at once; at most its journal is removed. -/
theorem changeable (astray : connection.Astray volume) :
    ∃ error settled, connection.changeable volume = (.error error, settled) ∧
      volume.Pruned settled := by
  rw [Connection.changeable]
  by_cases writable : connection.writable = true
  · rw [if_neg (not_not_intro writable), look]
    cases settles : connection.settle volume with
    | error error => exact ⟨error, volume, rfl, .same⟩
    | ok settled =>
      have pruned := pruned_of_settle settles
      dsimp only
      cases connection.rows settled pieceTable with
      | error error => exact ⟨error, settled, rfl, pruned⟩
      | ok rows =>
        dsimp only
        cases allowed : connection.allowed settled with
        | error error => exact ⟨error, settled, rfl, pruned⟩
        | ok _ =>
          obtain ⟨-, home, at_path, gone⟩ := astray.pruned pruned
          obtain ⟨here, name, stands, -⟩ := stands_of_allowed allowed at_path
          refine absurd ?_ (gone (here ++ [name]))
          rw [stands.leads.find, stands.file]
  · rw [if_pos writable]
    exact ⟨_, volume, rfl, .same⟩

/-- A change that lasted leaves a connection astray that was so. -/
theorem commit (astray : connection.Astray volume) (rows : Database) :
    connection.Astray (connection.commit volume rows).2 := by
  have written : connection.Astray
      ((volume.release connection.number).setContent connection.number (.database rows)) :=
    astray.of_find (Nat.le_of_eq List.length_set.symm) (Volume.find_congr fun _ _ node => node)
  rw [Connection.commit]
  cases connection.home with
  | none => exact written
  | some home =>
    have removed := written.pruned (.removed (journal home))
    dsimp only
    split
    · next left found =>
      rw [found] at removed
      exact removed
    · exact written

/-- Nobody connects again to the file of a connection that is astray, where that was opened. -/
theorem not_start (astray : connection.Astray volume) {second : Connection} {after : Volume}
    {file : String} {mode : Access} (started : start volume file mode = (.ok second, after))
    (same_number : second.number = connection.number) :
    second.home ≠ connection.home := by
  intro same_home
  obtain ⟨inside, home, at_path, gone⟩ := astray
  have old : ¬ second.New volume after := fun new =>
    absurd (same_number.symm.trans new.1) (Nat.ne_of_lt inside)
  obtain ⟨-, name, -, ⟨-, -, new⟩ | ⟨-, -, placed, new | ⟨place, found, -⟩⟩⟩ := start_cases started
  · exact old new
  · exact old new
  · rw [same_home, at_path] at placed
    obtain rfl := Option.some.inj placed
    rw [same_number] at found
    exact gone place found

end Astray

end Connection

namespace Session

/-- A session is adrift: its connection is astray, or its batch has lost its journal. -/
inductive Adrift (session : Session) (volume : Volume) : Prop where
  /-- The connection is astray. -/
  | astray (astray : session.connection.Astray volume)
  /-- The batch has changes, and its journal is not found. -/
  | bare {home : String} (changes : session.archive.batch.hasChanges = true)
    (at_path : session.connection.home = some home)
    (gone : ∀ place number, volume.find (journal home) ≠ .ok (place, .file number))

/-- A session that keeps to what was written still does when a file is removed, or it is adrift. -/
theorem Keeps.pruned (keeps : session.Keeps volume earlier taken) (pruned : volume.Pruned other) :
    session.Keeps other earlier taken ∨ session.Adrift other := by
  have undisturbed (home : ∀ home, session.connection.home = some home →
      other.openFile home = volume.openFile home ∧
        other.find (journal home) = volume.find (journal home)) :
      session.connection.Undisturbed volume other := by
    refine ⟨pruned.length, pruned.content _, ?_, home⟩
    rw [pruned.frame.2]
  cases at_path : session.connection.home with
  | none =>
    refine .inl (keeps.undisturbed (undisturbed fun home some_home => ?_))
    rw [at_path] at some_home
    contradiction
  | some home =>
    by_cases stays : ∃ place, other.find home = .ok (place, .file session.connection.number)
    · obtain ⟨place, found⟩ := stays
      have opened : other.openFile home = volume.openFile home := by
        rw [Volume.openFile_of_find found, Volume.openFile_of_find (pruned.find found)]
      have same (beside : other.find (journal home) = volume.find (journal home)) :
          session.Keeps other earlier taken := by
        refine keeps.undisturbed (undisturbed fun path some_home => ?_)
        obtain rfl := Option.some.inj (at_path.symm.trans some_home)
        exact ⟨opened, beside⟩
      cases keeps.sees with
      | committed unchanged idle represents =>
        obtain ⟨here, name, stands, absent⟩ := idle.home home at_path
        have beside := stands.beside.congr fun _ directory => pruned.directory directory
        refine .inl (same ?_)
        rw [beside.find, stands.beside.find, absent, pruned.absent absent]
      | changed batch mode writable held represents =>
        obtain ⟨here, name, journaled, stands, standing⟩ := held.home home at_path
        have beside := stands.beside.congr fun _ directory => pruned.directory directory
        rcases pruned.nodeAt (here ++ [name ++ "-journal"]) with gone | kept
        · refine .inr (.bare (view_of_changed batch .empty).1 at_path fun place number there => ?_)
          rw [beside.find, gone] at there
          contradiction
        · refine .inl (same ?_)
          rw [beside.find, stands.beside.find, kept]
    · refine .inr (.astray ⟨?_, home, at_path, fun place found => stays ⟨place, found⟩⟩)
      cases keeps.sees with
      | committed unchanged idle represents =>
        exact Nat.lt_of_lt_of_le idle.inside pruned.length
      | changed batch mode writable held represents =>
        exact Nat.lt_of_lt_of_le held.inside pruned.length

/-- The end of a batch does not change the connection. -/
theorem connection_commit (session : Session) (volume : Volume) :
    (session.commit volume).2.1.connection = session.connection := by
  rw [Session.commit]
  split
  · rfl
  · rfl
  · rfl
  · split <;> rfl

/-- The end of a batch leaves a session astray that was so. -/
theorem astray_commit (astray : session.connection.Astray volume) :
    session.connection.Astray (session.commit volume).2.2 := by
  rw [Session.commit]
  split
  · exact astray
  · exact astray
  · exact astray
  · next rows _ =>
    have committed := astray.commit rows
    split
    · next left done =>
      rw [done] at committed
      exact committed
    · next left failed =>
      rw [failed] at committed
      exact committed

namespace Adrift

/-- A session stays adrift when a file is removed. -/
theorem pruned (adrift : session.Adrift volume) (pruned : volume.Pruned other) :
    session.Adrift other := by
  cases adrift with
  | astray astray => exact .astray (astray.pruned pruned)
  | bare changes at_path gone =>
    exact .bare changes at_path fun place number there => gone place number (pruned.find there)

/-- A batch that has changes has some when the rows that it sees have become others. -/
theorem hasChanges_settle {archive : Archive} (changes : archive.batch.hasChanges = true)
    (committed rows : Database) :
    (archive.settle committed rows).1.batch.hasChanges = true := by
  unfold Archive.settle
  cases batch : archive.batch with
  | changed => rfl
  | idle | begun | lost => simp [batch, Batch.hasChanges] at changes

/-- A batch that has changes has some after a write. -/
theorem hasChanges_write {archive : Archive} (changes : archive.batch.hasChanges = true)
    (engine : Engine) (rows : Database) (path : String) (data : List UInt8)
    (compression : Compression) :
    (archive.write engine rows path data compression).2.1.batch.hasChanges = true := by
  cases writable : archive.requireWritable with
  | error error =>
    rw [Archive.write, writable]
    exact changes
  | ok _ =>
    rcases Archive.write_cases engine path data compression writable rfl with
      stored | ⟨error, undone⟩
    · rw [stored]
      exact @hasChanges_settle { archive with catalog := archive.catalog.insert path () } changes ..
    · rw [undone]
      exact hasChanges_settle changes _ _

/-- A session stays adrift after a write, which changes no file. -/
theorem write (adrift : session.Adrift volume) (engine : Engine) (path : String)
    (data : List UInt8) (compression : Compression) :
    let answer := session.write volume engine path data compression
    answer.2.1.Adrift answer.2.2 ∧ volume.Pruned answer.2.2 := by
  intro answer
  by_cases changes : session.archive.batch.hasChanges = true
  · have same : answer.2.2 = volume ∧ answer.2.1.connection = session.connection ∧
        answer.2.1.archive.batch.hasChanges = true := by
      simp only [answer, Session.write, Session.changeable, if_pos changes]
      split
      · exact ⟨rfl, rfl, changes⟩
      · exact ⟨rfl, rfl, hasChanges_write changes _ _ _ _ _⟩
    obtain ⟨left, connection, changes⟩ := same
    rw [left]
    refine ⟨?_, .same⟩
    cases adrift with
    | astray astray => exact .astray (connection.symm ▸ astray)
    | bare _ at_path gone => exact .bare changes (connection.symm ▸ at_path) gone
  · cases adrift with
    | bare some_changes => exact absurd some_changes changes
    | astray astray =>
      obtain ⟨error, settled, refused, pruned⟩ := astray.changeable
      have same : ∃ result left, answer = (result, session, left) ∧ volume.Pruned left := by
        simp only [answer, Session.write, Session.changeable, if_neg changes, refused]
        split
        · exact ⟨_, _, rfl, .same⟩
        · exact ⟨_, _, rfl, pruned⟩
      obtain ⟨result, left, same, pruned⟩ := same
      rw [same]
      exact ⟨.astray (astray.pruned pruned), pruned⟩

/-- A batch of a session that is adrift can be ended only if that is astray. -/
theorem commit (adrift : session.Adrift volume) (done : (session.commit volume).1 = .ok ()) :
    session.connection.Astray (session.commit volume).2.2 := by
  cases adrift with
  | astray astray => exact astray_commit astray
  | @bare home changes at_path gone =>
    rw [Session.commit] at done
    cases batch : session.archive.batch with
    | idle | begun | lost => simp [batch, Batch.hasChanges] at changes
    | changed rows =>
      rw [batch] at done
      dsimp only at done
      rcases failed : session.connection.commit volume rows with ⟨result, left⟩
      have faulty := Connection.commit_of_gone at_path gone rows
      rw [failed] at faulty done
      obtain rfl : result = .error .diskError := faulty
      contradiction

/-- So it is when that is done while the session is open. -/
theorem endBatch (adrift : session.Adrift volume) (done : (session.endBatch volume).1 = .ok ()) :
    (session.endBatch volume).2.1.connection.Astray (session.endBatch volume).2.2 := by
  rw [Session.endBatch] at done ⊢
  by_cases closed : session.archive.closed = true
  · rw [if_pos closed] at done
    contradiction
  · rw [if_neg closed] at done ⊢
    rw [connection_commit]
    exact adrift.commit done

end Adrift

/-- Closing leaves a session astray that was so. -/
theorem astray_close (astray : session.connection.Astray volume) :
    session.connection.Astray (session.close volume).2.2 := by
  rw [Session.close]
  split
  · exact astray
  · have committed := astray_commit astray
    split
    · next ended left done =>
      rw [done] at committed
      exact committed
    · next error ended left failed =>
      rw [failed] at committed
      exact committed

end Session

end Sqlite

namespace Archive

variable {archive : Archive} {volume other : Volume} {told kept : Ledger}

/-- An archive is adrift if it is a database that is. -/
def Adrift (archive : Archive) (volume : Volume) : Prop :=
  match archive with
  | sqlite session => session.Adrift volume
  | tar _ _ | zip _ _ | directory _ => False

/-- An archive is astray if it is a database whose connection is. -/
def Astray (archive : Archive) (volume : Volume) : Prop :=
  match archive with
  | sqlite session => session.connection.Astray volume
  | tar _ _ | zip _ _ | directory _ => False

/-- An archive that keeps ledgers still does when a file is removed, or it is adrift. -/
theorem Keeps.pruned (keeps : archive.Keeps volume told kept) (pruned : volume.Pruned other) :
    archive.Keeps other told kept ∨ archive.Adrift other := by
  cases archive with
  | tar number inner => exact .inl (keeps.undisturbed ⟨pruned.length, pruned.content number⟩)
  | sqlite session =>
    cases keeps with
    | database keeps => exact (keeps.pruned pruned).imp .database id
  | zip number inner => cases keeps
  | directory inner => cases keeps

namespace Adrift

/-- An archive stays adrift when a file is removed. -/
theorem pruned (adrift : archive.Adrift volume) (pruned : volume.Pruned other) :
    archive.Adrift other := by
  cases archive with
  | sqlite session => exact Sqlite.Session.Adrift.pruned adrift pruned
  | tar | zip | directory => exact adrift.elim

/-- An archive stays adrift after a write, which changes no file. -/
theorem write (adrift : archive.Adrift volume) (request : Request) (libraries : Libraries) :
    let answer := archive.write volume request libraries
    answer.2.1.Adrift answer.2.2 ∧ volume.Pruned answer.2.2 := by
  cases archive with
  | sqlite session => exact Sqlite.Session.Adrift.write adrift _ _ _ _
  | tar | zip | directory => exact adrift.elim

/-- A batch of an archive that is adrift can be ended only if that is astray. -/
theorem endBatch (adrift : archive.Adrift volume) (done : (archive.endBatch volume).1 = .ok ()) :
    (archive.endBatch volume).2.1.Astray (archive.endBatch volume).2.2 := by
  cases archive with
  | sqlite session => exact Sqlite.Session.Adrift.endBatch adrift done
  | tar | zip | directory => exact adrift.elim

end Adrift

/-- An archive that is astray is so after it was closed. -/
theorem Astray.close (astray : archive.Astray volume) :
    archive.Astray (archive.close volume).2.2 := by
  cases archive with
  | sqlite session => exact Sqlite.Session.astray_close astray
  | tar | zip | directory => exact astray.elim

/-- Nobody opens an archive again that is astray, in whatever becomes of the rest of the volume. -/
theorem Astray.not_opened (astray : archive.Astray volume)
    (undisturbed : archive.Undisturbed volume other) {after : Volume} {file : String}
    {mode : Access} {sizes : PieceSizes} {kind : ArchiveKind} {again : Archive}
    (opened : Opened other file mode sizes kind again after) : ¬ again.SameStore archive := by
  intro same
  cases archive with
  | sqlite session =>
    cases opened with
    | database pruned started =>
      obtain ⟨connection, between, rows, connected, -, rfl⟩ := Sqlite.Session.start_cases started
      have lost := (Sqlite.Connection.Astray.undisturbed astray undisturbed).pruned pruned
      exact lost.not_start connected same.1 same.2
    | newTar | oldTar | newZip | oldZip | folder => exact same.elim
  | tar | zip | directory => exact astray.elim

end Archive

end Trajectory
