import Trajectory.Proofs.Accessor.Replay
import Trajectory.Proofs.Sqlite.Listing
import Trajectory.Proofs.Tar.Archive
/-!
# What the records of an accessor read as

A record that was read from a path is written as the path without the slashes at its front. So a
listed path reads the same through its record as by itself, unless it starts with a slash: then
the record reads what is stored without the slash, which is nothing unless that path is listed
too.
-/
namespace Trajectory

namespace Archive

/-- An archive that was opened as a database is a session with it. -/
theorem start_of_openAs {kind : ArchiveKind} {volume after : Volume} {file : String}
    {mode : Access} {sizes : PieceSizes} {session : Sqlite.Session} {warning : Option Tar.Warning}
    (opened : openAs kind volume file mode sizes = ⟨.ok (.sqlite session), after, warning⟩) :
    ∃ before, Sqlite.Session.start before file mode sizes = (.ok session, after) := by
  cases opened_of_openAs opened with
  | @database before _ _ pruned started => exact ⟨before, started⟩

/-- A session with a database lists every row that it can come to see. -/
def Lists (archive : Archive) (volume : Volume) : Prop :=
  ∀ session, archive = .sqlite session → session.Lists volume

namespace Lists

variable {archive : Archive} {volume : Volume}

/-- An archive that has just been opened lists what it finds. -/
theorem of_openAs {kind : ArchiveKind} {after : Volume} {file : String} {mode : Access}
    {sizes : PieceSizes} {warning : Option Tar.Warning}
    (opened : openAs kind volume file mode sizes = ⟨.ok archive, after, warning⟩) :
    archive.Lists after := by
  rintro session rfl
  obtain ⟨before, started⟩ := start_of_openAs opened
  exact Sqlite.Session.lists_of_start started

/-- It still does after a write. -/
theorem write (lists : archive.Lists volume) (request : Request) (libraries : Libraries) :
    let answer := archive.write volume request libraries
    answer.2.1.Lists answer.2.2 := by
  intro answer session same
  cases archive with
  | sqlite before =>
    obtain rfl := Archive.sqlite.inj same
    exact (lists before rfl).write _ _ _ _
  | tar | zip | directory => contradiction

/-- It still does after a read. -/
theorem read (lists : archive.Lists volume) (path : String) :
    (archive.read volume path).2.1.Lists (archive.read volume path).2.2 := by
  intro session same
  cases archive with
  | sqlite before =>
    obtain rfl := Archive.sqlite.inj same
    exact (lists before rfl).settled path
  | tar | zip | directory => contradiction

/-- It still does after a batch begins. -/
theorem beginBatch (lists : archive.Lists volume) : archive.beginBatch.2.Lists volume := by
  intro session same
  cases archive with
  | sqlite before =>
    obtain rfl := Archive.sqlite.inj same
    exact (lists before rfl).beginBatch
  | tar | zip | directory => contradiction

/-- It still does after a batch ends. -/
theorem endBatch (lists : archive.Lists volume) :
    (archive.endBatch volume).2.1.Lists (archive.endBatch volume).2.2 := by
  intro session same
  cases archive with
  | sqlite before =>
    obtain rfl := Archive.sqlite.inj same
    exact (lists before rfl).endBatch
  | tar | zip | directory => contradiction

end Lists

/-- A path that is not listed in a tar file or a database reads as empty, unless no path can be
read. -/
theorem read_of_not_mem {archive : Archive} {volume : Volume} (inStep : archive.catalog.InStep)
    (lists : archive.Lists volume)
    (kind : (∃ number tar, archive = .tar number tar) ∨ ∃ session, archive = .sqlite session)
    {path : String} (unlisted : path ∉ archive.known) :
    (archive.read volume path).1 = .ok [] ∨
      ∃ error, ∀ other, (archive.read volume other).1 = .error error := by
  rcases kind with ⟨number, tar, rfl⟩ | ⟨session, rfl⟩
  · exact tar.read_of_not_mem (.of_index inStep) unlisted (volume.bytes number)
  · exact (lists session rfl).read unlisted

end Archive

namespace Accessor

/-- The states of an accessor, and of the volume, that its operations lead to, whether they succeed
or fail and whatever there was when it was opened. -/
inductive Reachable : Accessor → Volume → Prop where
  /-- It is opened. -/
  | opened {config : Config} {volume after : Volume} {path : String} {mode : Access}
    {accessor : Accessor} {warning : Option Tar.Warning}
    (opened : openUsing config volume path mode = ⟨.ok accessor, after, warning⟩) :
    Reachable accessor after
  /-- Something is written, at once or in a batch. -/
  | put {accessor : Accessor} {volume : Volume} (reachable : Reachable accessor volume)
    (draft : Draft) (immediate : Bool) (libraries : Libraries) :
    Reachable (accessor.put volume draft immediate libraries).2.1
      (accessor.put volume draft immediate libraries).2.2
  /-- Something is read. -/
  | read {accessor : Accessor} {volume : Volume} (reachable : Reachable accessor volume)
    (path : String) :
    Reachable (accessor.read volume path).2.1 (accessor.read volume path).2.2
  /-- A batch is begun. -/
  | beginBatch {accessor : Accessor} {volume : Volume} (reachable : Reachable accessor volume) :
    Reachable accessor.beginBatch.2 volume
  /-- A batch is ended. -/
  | endBatch {accessor : Accessor} {volume : Volume} (reachable : Reachable accessor volume) :
    Reachable (accessor.endBatch volume).2.1 (accessor.endBatch volume).2.2

variable {accessor : Accessor} {volume : Volume}

/-- Such a state of an accessor is one that its operations lead to. -/
theorem Reachable.attained (reachable : accessor.Reachable volume) : accessor.Attained := by
  induction reachable with
  | opened opened => exact .opened opened
  | put reachable draft immediate libraries ih => exact ih.put _ draft immediate libraries
  | read reachable path ih => exact ih.read _ path
  | beginBatch reachable ih => exact ih.beginBatch
  | endBatch reachable ih => exact ih.endBatch _

/-- The archive of an accessor lists every row that it can come to see. -/
theorem Reachable.lists (reachable : accessor.Reachable volume) {archive : Archive}
    (current : accessor.archive = some archive) : archive.Lists volume := by
  induction reachable generalizing archive with
  | @opened config before after path mode accessor warning opened =>
    obtain ⟨first, found, rfl⟩ := exists_archive_of_openUsing opened
    obtain rfl := Option.some.inj current
    exact .of_openAs found
  | @put accessor volume reachable draft immediate libraries ih =>
    cases before : accessor.archive with
    | none => simp [Accessor.put, before] at current
    | some first =>
      rw [put_of_some before] at current ⊢
      exact Option.some.inj current ▸ (ih before).write _ libraries
  | @read accessor volume reachable path ih =>
    cases before : accessor.archive with
    | none => simp [Accessor.read, before] at current
    | some first =>
      rw [read_of_some before] at current ⊢
      exact Option.some.inj current ▸ (ih before).read path
  | @beginBatch accessor volume reachable ih =>
    cases before : accessor.archive with
    | none => simp [Accessor.beginBatch, before] at current
    | some first =>
      rw [beginBatch_of_some before] at current
      exact Option.some.inj current ▸ (ih before).beginBatch
  | @endBatch accessor volume reachable ih =>
    cases before : accessor.archive with
    | none => simp [Accessor.endBatch, before] at current
    | some first =>
      rw [endBatch_of_some before] at current ⊢
      exact Option.some.inj current ▸ (ih before).endBatch

/-- A record read from a path is read at the path without the slashes at its front. So in every
state that an accessor of a tar file or of a database can reach, a path that starts with no slash
reads the same through its record as by itself; any other path reads through its record as empty,
or fails as the path itself does, if nothing is listed without the slashes. -/
theorem readRecord_parse {accessor : Accessor} {volume : Volume}
    (reachable : accessor.Reachable volume) {archive : Archive}
    (current : accessor.archive = some archive)
    (kind : (∃ number tar, archive = .tar number tar) ∨ ∃ session, archive = .sqlite session)
    (path : String) :
    let record := Record.parse path
    let trimmed := String.ofList (trimSlashes path.toList)
    let answer := accessor.readRecord volume record.recordType record.index
    answer = accessor.read volume trimmed ∧
      (path.toList.head? ≠ some '/' → answer = accessor.read volume path) ∧
      (trimmed ∉ archive.known → answer.1 = .ok [] ∨
        ∃ error, answer.1 = .error error ∧ (accessor.read volume path).1 = .error error) := by
  intro record trimmed answer
  have same : answer = accessor.read volume trimmed := by
    have spelled : record.path = trimmed := by
      rw [← String.toList_inj, Record.toList_path_parse, String.toList_ofList]
    rw [← spelled]
    exact congrArg (fun whole : Record => accessor.read volume whole.path)
      record.atFrame_recordType
  refine ⟨same, fun bare => ?_, fun unlisted => ?_⟩
  · rw [same, show trimmed = path by
      rw [show trimmed = String.ofList (trimSlashes path.toList) from rfl,
        trimSlashes_of_head? bare, String.ofList_toList]]
  · have answers (other : String) :
        (accessor.read volume other).1 = (archive.read volume other).1 := by
      rw [Accessor.read, current]
    rw [same, answers, answers]
    have inStep := (reachable.attained.replays_current current).inStep
    rcases Archive.read_of_not_mem inStep (reachable.lists current) kind unlisted with
      nothing | ⟨error, failed⟩
    · exact .inl nothing
    · exact .inr ⟨error, failed _, failed _⟩

/-- What is stored in a database under a path that starts with a slash is not found through its
record. -/
theorem readRecord_parse_slash :
    ∃ accessor volume, Reachable accessor volume ∧ accessor.paths = .ok ["/a"] ∧
      (accessor.read volume "/a").1 = .ok [7] ∧
      let record := Record.parse "/a"
      (accessor.readRecord volume record.recordType record.index).1 = .ok [] := by
  let session (catalog : Catalog Unit) : Sqlite.Session :=
    ⟨"t.sqlite", ⟨0, some "t.sqlite", true⟩, ⟨.write, .standard, catalog, .idle, false⟩⟩
  let volume (rows : Sqlite.Database) : Volume :=
    ⟨[(["t.sqlite"], .file 0)], [.database rows], [], 0⟩
  let rows : Sqlite.Database := ⟨[⟨"/a", 1, 1, 0⟩], [⟨"/a", [7], 0⟩], by decide⟩
  let written : Accessor :=
    ⟨"t.sqlite", .write, some (.sqlite (session (.ofNames ["/a"]))), .ofPaths ["/a"], .fast⟩
  have opened : openUsing .standard (.empty 0) "t.sqlite" .write =
      ⟨.ok (.ofArchive "t.sqlite" .write .fast (.sqlite (session .empty))), volume .empty, none⟩ :=
    rfl
  have put : put (.ofArchive "t.sqlite" .write .fast (.sqlite (session .empty)))
      (volume .empty) ⟨"/a", [7], some .none⟩ true = (.ok (), written, volume rows) := by
    decide +kernel
  have reachable := (Reachable.opened opened).put ⟨"/a", [7], some .none⟩ true .literal
  rw [put] at reachable
  obtain ⟨-, -, through⟩ := readRecord_parse reachable rfl (.inr ⟨_, rfl⟩) "/a"
  have contents : (read written (volume rows) "/a").1 = .ok [7] := by decide +kernel
  refine ⟨_, _, reachable, rfl, contents, ?_⟩
  rcases through (by decide +kernel) with nothing | ⟨error, -, failed⟩
  · exact nothing
  · rw [contents] at failed
    contradiction

end Accessor

end Trajectory
