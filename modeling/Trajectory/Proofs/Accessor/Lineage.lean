import Trajectory.Proofs.Accessor.Replay
import Trajectory.Proofs.Archive.Apart
/-!
# Accessors from session to session

An accessor of a tar file or a database can be closed, and another opened in the same file. The
register is stored nowhere: the next session makes its own, from a scan or from the rows that it
finds. It lists the same types and frames all the same, and for a tar file in the same order.
-/
namespace Trajectory

namespace Accessor

/-- An accessor is closed, and another is opened in the same file. In between, anything may happen
to the rest of the volume. -/
inductive Reopened (accessor : Accessor) (volume : Volume) (mode : Access) (next : Accessor)
    (after : Volume) : Prop where
  /-- It is closed, and another is opened. -/
  | intro {archive again : Archive} {closed : Accessor} {left between : Volume} {config : Config}
    {path : String} {warning : Option Tar.Warning} (current : accessor.archive = some archive)
    (closes : accessor.close volume = (.ok (), closed, left))
    (undisturbed : archive.Undisturbed left between)
    (opened : openUsing config between path mode = ⟨.ok next, after, warning⟩)
    (continues : next.archive = some again) (same : again.SameStore archive) :
    Reopened accessor volume mode next after

/-- The states of an accessor, and of the volume, that sessions with one file lead to, from one that
was opened in a file that held no archive. What is written has paths of a certain kind. -/
inductive Lineage (takes : String → Prop) : Accessor → Volume → Prop where
  /-- A session is opened in a file that held no archive. -/
  | created {config : Config} {volume after : Volume} {path : String} {mode : Access}
    {accessor : Accessor} {archive : Archive} {warning : Option Tar.Warning}
    (sound : volume.Sound)
    (opened : openUsing config volume path mode = ⟨.ok accessor, after, warning⟩)
    (current : accessor.archive = some archive) (new : archive.IsNew volume) :
    Lineage takes accessor after
  /-- Something is written, at once or in a batch. -/
  | put {accessor : Accessor} {volume : Volume} (lineage : Lineage takes accessor volume)
    (draft : Draft) (immediate : Bool) (libraries : Libraries) (taken : takes draft.path) :
    Lineage takes (accessor.put volume draft immediate libraries).2.1
      (accessor.put volume draft immediate libraries).2.2
  /-- Something is read. -/
  | read {accessor : Accessor} {volume : Volume} (lineage : Lineage takes accessor volume)
    (path : String) : Lineage takes (accessor.read volume path).2.1 (accessor.read volume path).2.2
  /-- A batch is begun. -/
  | beginBatch {accessor : Accessor} {volume : Volume} (lineage : Lineage takes accessor volume) :
    Lineage takes accessor.beginBatch.2 volume
  /-- A batch is ended. -/
  | endBatch {accessor : Accessor} {volume : Volume} (lineage : Lineage takes accessor volume) :
    Lineage takes (accessor.endBatch volume).2.1 (accessor.endBatch volume).2.2
  /-- Something happens to the rest of the volume. -/
  | elsewhere {accessor : Accessor} {volume other : Volume} {archive : Archive}
    (lineage : Lineage takes accessor volume) (current : accessor.archive = some archive)
    (undisturbed : archive.Undisturbed volume other) : Lineage takes accessor other
  /-- The session is closed, and another is opened in the same file. -/
  | reopened {accessor next : Accessor} {volume after : Volume} {mode : Access}
    (lineage : Lineage takes accessor volume)
    (reopened : accessor.Reopened volume mode next after) : Lineage takes next after

variable {takes : String → Prop} {accessor next : Accessor} {archive : Archive}
  {volume after : Volume} {told kept : Ledger}

/-- What is opened is in a state that operations lead to. -/
theorem Reopened.attained {mode : Access} (reopened : accessor.Reopened volume mode next after) :
    next.Attained := by
  obtain ⟨-, -, -, opened, -, -⟩ := reopened
  exact .opened opened

/-- Every state of a lineage is one that operations lead to. -/
theorem Lineage.attained (lineage : accessor.Lineage takes volume) : accessor.Attained := by
  induction lineage with
  | created _ opened => exact .opened opened
  | put _ draft immediate libraries _ ih => exact ih.put _ draft immediate libraries
  | read _ path ih => exact ih.read _ path
  | beginBatch _ ih => exact ih.beginBatch
  | endBatch _ ih => exact ih.endBatch _
  | elsewhere _ _ _ ih => exact ih
  | reopened _ reopened => exact reopened.attained

/-- Closing an accessor whose archive keeps ledgers leaves what there was to be of it. -/
theorem close_of_keeps (current : accessor.archive = some archive)
    (keeps : archive.Keeps volume told kept) :
    ∃ left, accessor.close volume = (.ok (), { accessor with archive := none }, left) ∧
      archive.Rests left kept := by
  obtain ⟨closed, left, closes, rests⟩ := keeps.close
  refine ⟨left, ?_, rests⟩
  rw [close, current]
  dsimp only
  rw [closes]

/-- What is opened in the file of an archive that was closed keeps what there was to be of it,
unless it is written anew. -/
theorem Reopened.keeps {mode : Access} (reopened : accessor.Reopened volume mode next after)
    (current : accessor.archive = some archive) (keeps : archive.Keeps volume told kept) :
    ∃ again found, next.archive = some again ∧ again.SameStore archive ∧
      again.Keeps after found found ∧ (mode = .read → found = kept) := by
  obtain ⟨known, closes, undisturbed, opened, continues, same⟩ := reopened
  obtain rfl := Option.some.inj (known.symm.trans current)
  obtain ⟨left, done, rests⟩ := close_of_keeps current keeps
  obtain ⟨-, left_eq⟩ := Prod.mk.inj (Prod.mk.inj (closes.symm.trans done)).2
  rw [left_eq] at undisturbed
  obtain ⟨again, found, rfl⟩ := exists_archive_of_openUsing opened
  obtain rfl := Option.some.inj continues
  rcases (rests.undisturbed undisturbed).again (Archive.opened_of_openAs found) same with
    ⟨writes, anew⟩ | whole
  · refine ⟨again, [], rfl, same, anew, ?_⟩
    rintro rfl
    contradiction
  · exact ⟨again, kept, rfl, same, whole, fun _ => rfl⟩

/-- In every state of a lineage the archive keeps ledgers, which are the same if the header of a tar
file spells every path that is taken as it is. -/
theorem Lineage.keeps (lineage : accessor.Lineage takes volume) :
    ∃ archive told kept, accessor.archive = some archive ∧ archive.Keeps volume told kept ∧
      ((∀ path, takes path → Tar.Header.Faithful path) → told = kept) := by
  induction lineage with
  | created sound opened current new =>
    obtain ⟨archive, found, rfl⟩ := exists_archive_of_openUsing opened
    obtain rfl := Option.some.inj current
    exact ⟨archive, [], [], rfl, (Archive.opened_of_openAs found).keeps_of_new sound new,
      fun _ => rfl⟩
  | @put accessor volume _ draft immediate libraries taken ih =>
    obtain ⟨archive, told, kept, current, keeps, alike⟩ := ih
    rw [put_of_some current]
    obtain ⟨-, added⟩ | ⟨-, stays⟩ := keeps.write libraries
      ⟨draft.path, draft.contents, draft.compression.getD accessor.compression, immediate⟩
    · refine ⟨_, _, _, rfl, added, fun faithful => ?_⟩
      rw [alike faithful, archive.spelled_of_faithful (faithful _ taken)]
    · exact ⟨_, told, kept, rfl, stays, alike⟩
  | read _ path ih =>
    obtain ⟨archive, told, kept, current, keeps, alike⟩ := ih
    rw [read_of_some current]
    exact ⟨_, told, kept, rfl, (keeps.read path).1, alike⟩
  | beginBatch _ ih =>
    obtain ⟨archive, told, kept, current, keeps, alike⟩ := ih
    rw [beginBatch_of_some current]
    exact ⟨_, told, kept, rfl, keeps.beginBatch.2, alike⟩
  | endBatch _ ih =>
    obtain ⟨archive, told, kept, current, keeps, alike⟩ := ih
    rw [endBatch_of_some current]
    exact ⟨_, told, kept, rfl, keeps.endBatch.2, alike⟩
  | elsewhere _ current undisturbed ih =>
    obtain ⟨archive, told, kept, known, keeps, alike⟩ := ih
    obtain rfl := Option.some.inj (known.symm.trans current)
    exact ⟨archive, told, kept, current, keeps.undisturbed undisturbed, alike⟩
  | reopened _ reopened ih =>
    obtain ⟨archive, told, kept, current, keeps, -⟩ := ih
    obtain ⟨again, found, continues, -, keeps, -⟩ := reopened.keeps current keeps
    exact ⟨again, found, found, continues, keeps, fun _ => rfl⟩

/-- So does the archive that the accessor has. -/
theorem Lineage.keeps_current (lineage : accessor.Lineage takes volume)
    (current : accessor.archive = some archive) :
    ∃ told kept, archive.Keeps volume told kept ∧
      ((∀ path, takes path → Tar.Header.Faithful path) → told = kept) := by
  obtain ⟨known, told, kept, known_current, keeps, alike⟩ := lineage.keeps
  obtain rfl := Option.some.inj (known_current.symm.trans current)
  exact ⟨told, kept, keeps, alike⟩

/-- An accessor whose archive can be found after it is closed can be opened again for reading. -/
theorem reopened_of_findable (current : accessor.archive = some archive)
    (keeps : archive.Keeps volume told kept) {closed : Accessor} {left : Volume}
    (closes : accessor.close volume = (.ok (), closed, left)) {path : String}
    (found : archive.Findable left path) :
    ∃ reader, accessor.Reopened volume .read reader left := by
  obtain ⟨other, done, rests⟩ := close_of_keeps current keeps
  obtain ⟨-, rfl⟩ := Prod.mk.inj (Prod.mk.inj (closes.symm.trans done)).2
  obtain ⟨kind, again, warning, opened, same⟩ := rests.opens found Config.standard.sizes
  have reads : Archive.effectiveMode left path .read = .read := rfl
  have opens : openUsing { Config.standard with kind := some kind } left path .read =
      ⟨.ok (.ofArchive path .read .fast again), left, warning⟩ := by
    rw [openUsing, reads, Option.getD_some, opened]
    rfl
  exact ⟨_, .intro current closes rests.undisturbed_refl opens rfl same⟩

/-- The register survives closing and opening again. In every state of a lineage, with paths of
plain characters if it is one of a tar file, the accessor can be closed; where it can be found it
can be opened for reading; and what is opened then in the same file lists the same types, and the
same frames of each. In a tar file the frames are in the same order as first seen, in a database
perhaps in another. -/
theorem register_survives (lineage : accessor.Lineage takes volume)
    (current : accessor.archive = some archive)
    (plain : ∀ number inner, archive = .tar number inner →
      ∀ path, takes path → Tar.Header.Plain path) :
    (∃ closed left, accessor.close volume = (.ok (), closed, left) ∧
      ∀ path, archive.Findable left path → ∃ reader, accessor.Reopened volume .read reader left) ∧
    ∀ reader after, accessor.Reopened volume .read reader after →
      reader.types = accessor.types ∧
      (∀ record, reader.frames record = accessor.frames record) ∧
      (∀ record, ∃ before seen, accessor.framesSeen record = .ok before ∧
        reader.framesSeen record = .ok seen ∧ seen.Perm before) ∧
      (∀ number inner, archive = .tar number inner →
        ∀ record, reader.framesSeen record = accessor.framesSeen record ∧
          ∀ place, reader.frameAt? record place = accessor.frameAt? record place) := by
  obtain ⟨told, kept, keeps, alike⟩ := lineage.keeps_current current
  obtain rfl : told = kept := by
    cases keeps with
    | writing | reading =>
      exact alike fun path taken => Tar.Header.faithful_of_plain (plain _ _ rfl path taken)
    | database => rfl
  constructor
  · obtain ⟨left, closes, -⟩ := close_of_keeps current keeps
    exact ⟨_, left, closes, fun path found => reopened_of_findable current keeps closes found⟩
  · intro reader after reopened
    obtain ⟨again, found, continues, same, keepsAgain, reads⟩ := reopened.keeps current keeps
    obtain rfl := reads rfl
    have before {α : Type} (question : Register → α) :=
      lineage.attained.query_eq current question
    have later {α : Type} (question : Register → α) :=
      reopened.attained.query_eq continues question
    obtain ⟨types, frames, seen⟩ :=
      Register.ofPaths_of_perm (keepsAgain.known_perm.trans keeps.known_perm.symm)
    refine ⟨?_, fun record => ?_, fun record => ⟨_, _, before _, later _, seen record⟩, ?_⟩
    · rw [Accessor.types, Accessor.types, before, later, types]
    · rw [Accessor.frames, Accessor.frames, before, later, frames]
    · rintro number inner rfl record
      cases again with
      | tar another other =>
        have known : (Archive.tar another other).known = (Archive.tar number inner).known :=
          keepsAgain.known_eq.trans keeps.known_eq.symm
        refine ⟨?_, fun place => ?_⟩
        · rw [Accessor.framesSeen, Accessor.framesSeen, before, later, known]
        · rw [Accessor.frameAt?, Accessor.frameAt?, before, later, known]
      | sqlite | zip | directory => exact same.elim

/-- A frame of a database that is written again, in a batch, is still listed once, with the other,
after the database is closed and opened again. -/
theorem register_survives_rewrite :
    ∃ accessor volume reader after seen, Lineage (fun _ => True) accessor volume ∧
      accessor.Reopened volume .read reader after ∧
      accessor.framesSeen (Record.parse "frames/1/x") = .ok ["2", "1"] ∧
      reader.framesSeen (Record.parse "frames/1/x") = .ok seen ∧ seen.Perm ["2", "1"] := by
  let catalog (names : List String) : Catalog Unit := .ofList (names.map fun name => (name, ()))
  let archive (names : List String) (batch : Sqlite.Batch) : Archive :=
    .sqlite ⟨"t.sqlite", ⟨0, some "t.sqlite", true⟩,
      ⟨.write, .standard, catalog names, batch, false⟩⟩
  let accessor (names : List String) (batch : Sqlite.Batch) : Accessor :=
    ⟨"t.sqlite", .write, some (archive names batch), .ofPaths names, .fast⟩
  let rows (entries : List (String × List UInt8)) : Sqlite.Database :=
    entries.foldl (fun rows entry => rows.stored .literal .standard entry.1 entry.2 .none) .empty
  let volume (entries : List (String × List UInt8)) : Volume :=
    ⟨[(["t.sqlite"], .file 0)], [.database (rows entries)], [], 0⟩
  have opened : openUsing .standard (.empty 0) "t.sqlite" .write =
      ⟨.ok (accessor [] .idle), volume [], none⟩ := rfl
  have new : (archive [] .idle).IsNew (.empty 0) := by
    intro rows
    simp [Volume.content, Volume.empty]
  have first : (accessor [] .idle).put (volume []) ⟨"frames/2/x", [1], some .none⟩ true =
      (.ok (), accessor ["frames/2/x"] .idle, volume [("frames/2/x", [1])]) := by
    decide +kernel
  have second : (accessor ["frames/2/x"] .idle).put (volume [("frames/2/x", [1])])
      ⟨"frames/1/x", [2], some .none⟩ true =
      (.ok (), accessor ["frames/2/x", "frames/1/x"] .idle,
        volume [("frames/2/x", [1]), ("frames/1/x", [2])]) := by
    decide +kernel
  have created : (accessor [] .idle).Lineage (fun _ => True) (volume []) :=
    .created (Volume.sound_empty 0) opened rfl new
  have lineage := created.put ⟨"frames/2/x", [1], some .none⟩ true .literal trivial
  rw [first] at lineage
  have lineage := lineage.put ⟨"frames/1/x", [2], some .none⟩ true .literal trivial
  rw [second] at lineage
  have lineage := lineage.beginBatch.put ⟨"frames/2/x", [3], some .none⟩ false .literal trivial
  have current : ((accessor ["frames/2/x", "frames/1/x"] .idle).beginBatch.2.put
      (volume [("frames/2/x", [1]), ("frames/1/x", [2])]) ⟨"frames/2/x", [3], some .none⟩
      false).2.1.archive = some (archive ["frames/2/x", "frames/1/x", "frames/2/x"]
        (.changed (rows [("frames/1/x", [2]), ("frames/2/x", [3])]))) := by
    decide +kernel
  obtain ⟨⟨closed, left, closes, opens⟩, survives⟩ := register_survives lineage current
    fun _ _ same => by contradiction
  obtain ⟨reader, reopened⟩ := opens "t.sqlite" ⟨rfl, Option.some_ne_none _, _, rfl⟩
  obtain ⟨-, -, frames, -⟩ := survives reader left reopened
  obtain ⟨before, seen, listed, found, perm⟩ := frames (Record.parse "frames/1/x")
  have twice := listed.symm.trans (show _ = .ok ["2", "1"] by decide +kernel)
  obtain rfl := Except.ok.inj twice
  exact ⟨_, _, reader, left, seen, lineage, reopened, listed, found, perm⟩

end Accessor

end Trajectory
