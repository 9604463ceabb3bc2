import Trajectory.Proofs.Archive.Known
import Trajectory.Proofs.Sqlite.Session
/-!
# Archives that have just been opened

What opening an archive can give, kind by kind. Whatever it gives is open, and lists each path once
and just the paths that it knows.
-/
namespace Trajectory

namespace Archive

/-- What opening an archive of a kind can give, and the volume afterwards. -/
inductive Opened (volume : Volume) (file : String) (mode : Access) (sizes : PieceSizes) :
    ArchiveKind → Archive → Volume → Prop where
  /-- A new tar file. -/
  | newTar {number : Nat} {after : Volume} (writes : effectiveMode volume file mode = .write)
    (created : volume.create file = (.ok number, after)) :
    Opened volume file mode sizes .tar (tar number .create) after
  /-- A tar file that is there. -/
  | oldTar {number : Nat} {archive : Tar.Archive}
    (keeps : effectiveMode volume file mode ≠ .write) (found : volume.openFile file = .ok number)
    (opened : (Tar.Archive.openExisting (effectiveMode volume file mode)
      (volume.bytes number)).1 = .ok archive) :
    Opened volume file mode sizes .tar (tar number archive) volume
  /-- A database, whose file may have been removed first. -/
  | database {before after : Volume} {session : Sqlite.Session} (pruned : volume.Pruned before)
    (started : Sqlite.Session.start before file mode sizes = (.ok session, after)) :
    Opened volume file mode sizes .sqlite (sqlite session) after
  /-- A new zip file. -/
  | newZip {number : Nat} {after : Volume} (created : volume.create file = (.ok number, after)) :
    Opened volume file mode sizes .zip (zip number .create) after
  /-- A zip file that is there. -/
  | oldZip {number : Nat} {archive : Zip.Archive} (existing : Access)
    (opened : Zip.Archive.openExisting existing (volume.bytes number) = .ok archive) :
    Opened volume file mode sizes .zip (zip number archive) volume
  /-- A directory. -/
  | folder {archive : Directory.Archive} {after : Volume}
    (opened : Directory.openRoot volume file mode = (.ok archive, after)) :
    Opened volume file mode sizes .directory (directory archive) after

variable {volume after : Volume} {file : String} {mode : Access} {sizes : PieceSizes}
  {kind : ArchiveKind} {archive : Archive} {warning : Option Tar.Warning}

/-- What opening a tar file can give. -/
theorem opened_of_openTar (opened : openTar volume file mode = ⟨.ok archive, after, warning⟩) :
    Opened volume file mode sizes .tar archive after := by
  unfold openTar at opened
  split at opened
  · next writes =>
    split at opened
    · simp at opened
    · next number created =>
      obtain ⟨same, rfl, -⟩ := Opening.mk.inj opened
      exact Except.ok.inj same ▸ .newTar writes created
  · next keeps =>
    split at opened
    · simp at opened
    · next number found =>
      dsimp only at opened
      obtain ⟨same, rfl, -⟩ := Opening.mk.inj opened
      cases result : (Tar.Archive.openExisting (effectiveMode volume file mode)
          (volume.bytes number)).1 with
      | error error => simp [result, Except.map] at same
      | ok inner =>
        rw [result] at same
        exact Except.ok.inj same ▸ .oldTar keeps found result

/-- What opening a database can give. -/
theorem opened_of_openSqlite
    (opened : openSqlite volume file mode sizes = ⟨.ok archive, after, warning⟩) :
    Opened volume file mode sizes .sqlite archive after := by
  have of_start {before : Volume}
      (result : (startSqlite before file mode sizes).result = .ok archive) :
      ∃ session, archive = sqlite session := by
    unfold startSqlite at result
    dsimp only at result
    cases started : (Sqlite.Session.start before file mode sizes).1 with
    | error error => simp [started, Except.map, Except.mapError] at result
    | ok session =>
      rw [started] at result
      exact ⟨session, (Except.ok.inj result).symm⟩
  obtain ⟨session, rfl⟩ : ∃ session, archive = sqlite session := by
    have result := congrArg Opening.result opened
    unfold openSqlite at result
    split at result
    · exact of_start result
    · exact of_start result
    · split at result
      · exact of_start result
      · exact of_start result
      · contradiction
  obtain ⟨before, pruned, started⟩ := Sqlite.Course.start_of_openSqlite opened
  exact .database pruned started

/-- What opening a zip file can give. -/
theorem opened_of_openZip (opened : openZip volume file mode = ⟨.ok archive, after, warning⟩) :
    Opened volume file mode sizes .zip archive after := by
  have of_load {existing : Access} (loaded : loadZip volume file existing = .ok archive) :
      Opened volume file mode sizes .zip archive volume := by
    unfold loadZip at loaded
    split at loaded
    · contradiction
    · contradiction
    · next number _ =>
      cases result : Zip.Archive.openExisting existing (volume.bytes number) with
      | error error => simp [result] at loaded
      | ok inner =>
        rw [result] at loaded
        exact Except.ok.inj loaded ▸ .oldZip existing result
  unfold openZip at opened
  split at opened
  · split at opened
    · simp at opened
    · next number created =>
      obtain ⟨same, rfl, -⟩ := Opening.mk.inj opened
      exact Except.ok.inj same ▸ .newZip created
  · obtain ⟨same, rfl, -⟩ := Opening.mk.inj opened
    exact of_load same
  · split at opened
    · simp at opened
    · simp at opened
    · obtain ⟨same, rfl, -⟩ := Opening.mk.inj opened
      exact of_load same

/-- What opening an archive can give. -/
theorem opened_of_openAs
    (opened : openAs kind volume file mode sizes = ⟨.ok archive, after, warning⟩) :
    Opened volume file mode sizes kind archive after := by
  cases kind with
  | tar => exact opened_of_openTar opened
  | sqlite => exact opened_of_openSqlite opened
  | zip => exact opened_of_openZip opened
  | directory =>
    rcases root : Directory.openRoot volume file mode with ⟨result, settled⟩
    rw [openAs, root] at opened
    obtain ⟨same, rfl, -⟩ := Opening.mk.inj opened
    cases result with
    | error error => contradiction
    | ok inner => exact Except.ok.inj same ▸ .folder root
  | hdf5 => simp [openAs] at opened

/-- What was opened is one of the things that can be. -/
theorem opened_of_result
    (result : (openAs kind volume file mode sizes).result = .ok archive) :
    Opened volume file mode sizes kind archive (openAs kind volume file mode sizes).volume := by
  generalize opening : openAs kind volume file mode sizes = opened at result ⊢
  obtain ⟨outcome, after, warning⟩ := opened
  obtain rfl : outcome = .ok archive := result
  exact opened_of_openAs opening

namespace Opened

/-- A tar file that is there is opened to what its scan finds. -/
theorem archive_of_openExisting {existing : Access} {data : List UInt8} {archive : Tar.Archive}
    (opened : (Tar.Archive.openExisting existing data).1 = .ok archive) :
    archive = .ofScan existing (if existing = .read then .reader
      else .writer ⟨[], (Tar.scan (.ofBytes data)).scanner.offset⟩) (Tar.scan (.ofBytes data)) := by
  unfold Tar.Archive.openExisting at opened
  dsimp only at opened
  split at opened
  · contradiction
  · exact (Except.ok.inj opened).symm

/-- A directory is opened to the files in it, or to none. -/
theorem archive_of_openRoot {root : String} {archive : Directory.Archive}
    (opened : Directory.openRoot volume root mode = (.ok archive, after)) :
    archive.closed = false ∧ ∃ entries, archive.catalog = .ofList entries := by
  have result := congrArg Prod.fst opened
  unfold Directory.openRoot at result
  dsimp only at result
  split at result
  · contradiction
  · split at result
    · split at result
      · exact Except.ok.inj result ▸ ⟨rfl, _, rfl⟩
      · contradiction
    · split at result
      · exact Except.ok.inj result ▸ ⟨rfl, [], rfl⟩
      · contradiction

/-- A zip file that is there is opened to the entries in it. -/
theorem archive_of_openExistingZip {existing : Access} {data : List UInt8} {archive : Zip.Archive}
    (opened : Zip.Archive.openExisting existing data = .ok archive) :
    archive.closed = false ∧ ∃ entries, archive.catalog = .ofList entries := by
  unfold Zip.Archive.openExisting at opened
  split at opened
  · contradiction
  · split at opened
    · contradiction
    · exact Except.ok.inj opened ▸ ⟨rfl, _, rfl⟩

/-- An archive that has just been opened is open. -/
theorem requireOpen (opened : Opened volume file mode sizes kind archive after) :
    archive.requireOpen = .ok () := by
  cases opened with
  | newTar | newZip => rfl
  | oldTar keeps found opened =>
    rw [archive_of_openExisting opened]
    dsimp only [Archive.requireOpen, Tar.Archive.requireOpen, Tar.Archive.ofScan]
    split <;> rfl
  | database pruned started =>
    obtain ⟨connection, between, rows, -, -, rfl⟩ := Sqlite.Session.start_cases started
    rfl
  | oldZip existing opened =>
    rw [Archive.requireOpen, Zip.Archive.requireOpen, (archive_of_openExistingZip opened).1]
    rfl
  | folder opened =>
    rw [Archive.requireOpen, Directory.Archive.requireOpen, (archive_of_openRoot opened).1]
    rfl

/-- The names that an archive lists when it has just been opened are in step with the set of those
that it knows. -/
theorem inStep (opened : Opened volume file mode sizes kind archive after) :
    archive.catalog.InStep := by
  cases opened with
  | newTar | newZip => exact Catalog.InStep.empty.index
  | oldTar keeps found opened =>
    rw [archive_of_openExisting opened]
    exact (Catalog.InStep.ofList _).index
  | database pruned started =>
    obtain ⟨connection, between, rows, -, -, rfl⟩ := Sqlite.Session.start_cases started
    exact (Sqlite.Archive.inStep_ofDatabase rows mode sizes).index
  | oldZip existing opened =>
    obtain ⟨-, entries, catalog⟩ := archive_of_openExistingZip opened
    rw [Archive.catalog, catalog]
    exact (Catalog.InStep.ofList entries).index
  | folder opened =>
    obtain ⟨-, entries, catalog⟩ := archive_of_openRoot opened
    rw [Archive.catalog, catalog]
    exact (Catalog.InStep.ofList entries).index

end Opened

end Archive

end Trajectory
