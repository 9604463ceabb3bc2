import Trajectory.Accessor.Basic
import Trajectory.Proofs.Archive.Known
import Trajectory.Proofs.Archive.Opened
import Trajectory.Proofs.Record.Register
/-!
# The register of an open accessor

The register of an accessor and the enumeration of its archive are kept apart, and each has rules
of its own for what it has already. Still the register is, at any time, what entering the
enumerated paths one after the other would give: whatever the kind of the archive, and whichever
calls succeeded or failed.
-/
namespace Trajectory

namespace Register

/-- Entering a path does the same to a register of paths as listing any path that is read as the
same record. -/
theorem enterPath_ofPaths (names : List String) {name path : String}
    (read : Record.parse name = Record.parse path) :
    (ofPaths names).enterPath path = ofPaths (Archive.listed names name) := by
  rw [enterPath, ← read, Archive.listed]
  split
  · next known =>
    rw [ofPaths_eq, enter_of_mem (List.mem_map_of_mem known)]
  · rw [ofPaths_eq, ofPaths_eq, List.map_append, List.map_singleton, ofRecords_append_singleton]

end Register

namespace Accessor

/-- An accessor that has just been opened has an archive that was opened, and its register. -/
theorem exists_archive_of_openUsing {config : Config} {volume after : Volume} {path : String}
    {mode : Access} {accessor : Accessor} {warning : Option Tar.Warning}
    (opened : openUsing config volume path mode = ⟨.ok accessor, after, warning⟩) :
    ∃ archive,
      Archive.openAs (config.kind.getD (.ofPath path)) volume path
        (Archive.effectiveMode volume path mode) config.sizes = ⟨.ok archive, after, warning⟩ ∧
      accessor = ofArchive path (Archive.effectiveMode volume path mode) config.compression
        archive := by
  unfold openUsing at opened
  dsimp only at opened
  rcases found : Archive.openAs (config.kind.getD (.ofPath path)) volume path
    (Archive.effectiveMode volume path mode) config.sizes with ⟨result, settled, report⟩
  rw [found] at opened
  obtain ⟨made, rfl, rfl⟩ := Opening.mk.inj opened
  cases result with
  | error error => contradiction
  | ok archive => exact ⟨archive, rfl, (Except.ok.inj made).symm⟩

section Current

variable {accessor : Accessor} {archive : Archive} (current : accessor.archive = some archive)
  (volume : Volume)

include current

/-- An accessor writes to its archive, and enters the path once it is written. -/
theorem put_of_some (draft : Draft) (immediate : Bool) (libraries : Libraries) :
    let answer := archive.write volume
      ⟨draft.path, draft.contents, draft.compression.getD accessor.compression, immediate⟩ libraries
    accessor.put volume draft immediate libraries =
      (answer.1,
        { accessor with
          archive := some answer.2.1
          register :=
            match answer.1 with
            | .ok () => accessor.register.enterPath draft.path
            | .error _ => accessor.register },
        answer.2.2) := by
  intro answer
  rw [put, current]
  dsimp only
  split
  · next after left written => simp only [answer, written]
  · next error after left refused => simp only [answer, refused]

/-- An accessor reads its archive. -/
theorem read_of_some (path : String) :
    let answer := archive.read volume path
    accessor.read volume path =
      (answer.1, { accessor with archive := some answer.2.1 }, answer.2.2) := by
  rw [read, current]

/-- An accessor begins a batch of its archive. -/
theorem beginBatch_of_some :
    accessor.beginBatch =
      (archive.beginBatch.1, { accessor with archive := some archive.beginBatch.2 }) := by
  rw [beginBatch, current]

/-- An accessor ends a batch of its archive. -/
theorem endBatch_of_some :
    let answer := archive.endBatch volume
    accessor.endBatch volume =
      (answer.1, { accessor with archive := some answer.2.1 }, answer.2.2) := by
  rw [endBatch, current]

end Current

/-- The states of an accessor that its operations lead to, whether they succeed or fail, and
whatever else happens to the volume in between. -/
inductive Attained : Accessor → Prop where
  /-- It is opened. -/
  | opened {config : Config} {volume after : Volume} {path : String} {mode : Access}
    {accessor : Accessor} {warning : Option Tar.Warning}
    (opened : openUsing config volume path mode = ⟨.ok accessor, after, warning⟩) :
    Attained accessor
  /-- Something is written, at once or in a batch. -/
  | put {accessor : Accessor} (attained : Attained accessor) (volume : Volume) (draft : Draft)
    (immediate : Bool) (libraries : Libraries) :
    Attained (accessor.put volume draft immediate libraries).2.1
  /-- Something is read. -/
  | read {accessor : Accessor} (attained : Attained accessor) (volume : Volume) (path : String) :
    Attained (accessor.read volume path).2.1
  /-- A batch is begun. -/
  | beginBatch {accessor : Accessor} (attained : Attained accessor) :
    Attained accessor.beginBatch.2
  /-- A batch is ended. -/
  | endBatch {accessor : Accessor} (attained : Attained accessor) (volume : Volume) :
    Attained (accessor.endBatch volume).2.1

/-- The archive is open and lists just the paths that it knows, each once, and the register is that
of the paths it lists. -/
structure Replays (accessor : Accessor) (archive : Archive) : Prop where
  /-- The archive is open. -/
  requireOpen : archive.requireOpen = .ok ()
  /-- The paths that it lists are in step with the set of those that it knows. -/
  inStep : archive.catalog.InStep
  /-- The register is that of its paths. -/
  register : accessor.register = .ofPaths archive.known

/-- What an archive goes on as without listing anything has the same register. -/
theorem Replays.goesOn {accessor : Accessor} {archive after : Archive}
    (replays : accessor.Replays archive) (goes : archive.GoesOn archive.catalog after) :
    { accessor with archive := some after }.Replays after := by
  refine ⟨goes.requireOpen.trans replays.requireOpen, ?_, ?_⟩
  · rw [goes.catalog]
    exact replays.inStep
  · rw [goes.known]
    exact replays.register

/-- No path is listed twice. -/
theorem Replays.nodup {accessor : Accessor} {archive : Archive}
    (replays : accessor.Replays archive) : archive.known.Nodup :=
  archive.names_catalog ▸ replays.inStep.nodup

/-- The register of an accessor is, in every state, that of the paths its archive knows. -/
theorem Attained.replays {accessor : Accessor} (attained : accessor.Attained) :
    ∃ archive, accessor.archive = some archive ∧ accessor.Replays archive := by
  induction attained with
  | opened opened =>
    obtain ⟨archive, found, rfl⟩ := exists_archive_of_openUsing opened
    have opened := Archive.opened_of_openAs found
    exact ⟨archive, rfl, opened.requireOpen, opened.inStep, rfl⟩
  | @put accessor attained volume draft immediate libraries ih =>
    obtain ⟨archive, current, replays⟩ := ih
    rw [put_of_some current]
    have wrote := archive.wrote volume
      ⟨draft.path, draft.contents, draft.compression.getD accessor.compression, immediate⟩ libraries
    generalize archive.write volume _ libraries = answer at wrote
    obtain ⟨result, after, left⟩ := answer
    cases wrote with
    | lists goes =>
      refine ⟨after, rfl, goes.requireOpen.trans replays.requireOpen, ?_, ?_⟩
      · rw [goes.catalog]
        exact replays.inStep.insert ..
      · rw [goes.listed replays.inStep, ← Register.enterPath_ofPaths _ (archive.parse_nameOf _),
          ← replays.register]
    | fails goes => exact ⟨after, rfl, replays.goesOn goes⟩
  | read attained volume path ih =>
    obtain ⟨archive, current, replays⟩ := ih
    rw [read_of_some current]
    exact ⟨_, rfl, replays.goesOn (archive.goesOn_read volume path)⟩
  | beginBatch attained ih =>
    obtain ⟨archive, current, replays⟩ := ih
    rw [beginBatch_of_some current]
    exact ⟨_, rfl, replays.goesOn archive.goesOn_beginBatch⟩
  | endBatch attained volume ih =>
    obtain ⟨archive, current, replays⟩ := ih
    rw [endBatch_of_some current]
    exact ⟨_, rfl, replays.goesOn (archive.goesOn_endBatch volume)⟩

/-- So it is for the archive that the accessor has. -/
theorem Attained.replays_current {accessor : Accessor} (attained : accessor.Attained)
    {archive : Archive} (current : accessor.archive = some archive) : accessor.Replays archive := by
  obtain ⟨known, known_current, replays⟩ := attained.replays
  exact Option.some.inj (known_current.symm.trans current) ▸ replays

/-- An accessor answers every question as the register of the paths its archive knows. -/
theorem Attained.query_eq {accessor : Accessor} (attained : accessor.Attained) {archive : Archive}
    (current : accessor.archive = some archive) {α : Type} (question : Register → α) :
    accessor.query question = .ok (question (.ofPaths archive.known)) := by
  rw [query, Accessor.current, current, (attained.replays_current current).register]

/-- An accessor enumerates the paths its archive knows. -/
theorem Attained.paths_eq {accessor : Accessor} (attained : accessor.Attained) {archive : Archive}
    (current : accessor.archive = some archive) : accessor.paths = .ok archive.known := by
  rw [paths, Accessor.current, current]
  dsimp only
  rw [Archive.paths, (attained.replays_current current).requireOpen]

/-- In every state of an open accessor, the register is the one that the enumerated paths give when
they are entered in order: it is that register, and it answers every question as that one does. -/
theorem register_eq_ofPaths {accessor : Accessor} (attained : accessor.Attained) :
    ∃ names, accessor.paths = .ok names ∧
      let replay := Register.ofPaths names
      accessor.register = replay ∧ accessor.types = .ok replay.types ∧
        ∀ record, accessor.frames record = .ok (replay.frames record) ∧
          accessor.framesSeen record = .ok (replay.framesSeen record) ∧
          ∀ place, accessor.frameAt? record place = .ok (replay.frameAt? record place) := by
  obtain ⟨archive, current, -, -, register⟩ := attained.replays
  have answers {α : Type} (question : Register → α) := attained.query_eq current question
  exact ⟨archive.known, attained.paths_eq current, register, answers _, fun record =>
    ⟨answers _, answers _, fun place => answers _⟩⟩

/-- A path in a directory is enumerated without the slash at its front, and once only; one that
leads out of the directory is not. -/
theorem register_eq_ofPaths_directory :
    ∃ accessor : Accessor, accessor.Attained ∧ accessor.paths = .ok ["a"] ∧
      accessor.register = .ofPaths ["a"] := by
  let accessor (names : List String) : Accessor :=
    ⟨"d/", .write, some (.directory ⟨"d/", .write, .ofNames names, false⟩), .ofPaths names, .fast⟩
  let bare : Volume := ⟨[(["d"], .directory)], [], [], 0⟩
  let volume (contents : List UInt8) : Volume :=
    ⟨[(["d"], .directory), (["d", "a"], .file 0)], [.bytes contents], [], 0⟩
  have root : Directory.openRoot (.empty 0) "d/" .write =
      (.ok ⟨"d/", .write, .empty, false⟩, bare) := by
    decide +kernel
  have opened : openUsing .standard (.empty 0) "d/" .write = ⟨.ok (accessor []), bare, none⟩ := by
    have kind : Config.standard.kind.getD (.ofPath "d/") = .directory := rfl
    have mode : Archive.effectiveMode (.empty 0) "d/" .write = .write := rfl
    rw [openUsing, kind, mode, Archive.openAs, root]
    rfl
  have first : (accessor []).put bare (.bytes "/a" [7]) true =
      (.ok (), accessor ["a"], volume [7]) := by
    decide +kernel
  have again : (accessor ["a"]).put (volume [7]) (.bytes "a" []) false =
      (.ok (), accessor ["a"], volume []) := by
    decide +kernel
  have outside : Directory.target? "d/" "../b" = none := by decide +kernel
  have refused : (accessor ["a"]).put (volume []) (.bytes "../b" [8]) true =
      (.error (.invalidPath (.refused "../b")), accessor ["a"], volume []) := by
    simp [accessor, put, Archive.write, Directory.Archive.write, Draft.bytes, outside]
  have attained := (Attained.opened opened).put bare (.bytes "/a" [7]) true .literal
  rw [first] at attained
  have attained := attained.put (volume [7]) (.bytes "a" []) false .literal
  rw [again] at attained
  have attained := attained.put (volume []) (.bytes "../b" [8]) true .literal
  rw [refused] at attained
  obtain ⟨names, listed, register, -⟩ := register_eq_ofPaths attained
  obtain rfl : ["a"] = names := Except.ok.inj listed
  exact ⟨_, attained, listed, register⟩

end Accessor

end Trajectory
