import Trajectory.Proofs.Archive.Calls
import Trajectory.Proofs.Archive.Known
import Trajectory.Proofs.Archive.Opened
/-!
# The enumeration of an open archive

From the names that it found when it was opened an archive goes on to list those of the writes that
succeed, in order and each once; nothing else that it is asked for lists a name or drops one. The
list of names and what is remembered of names are two structures, which each event changes together
or not at all: they are in step when the archive is opened, an event keeps them so, and so does
every run of events. So for as long as the archive is open it remembers something of exactly the
names that it lists, and these stand in the same places.
-/
namespace Trajectory

namespace Archive

/-- Whether an archive remembers something of a name. -/
def remembers (archive : Archive) (name : String) : Bool :=
  match archive with
  | tar _ inner => (inner.catalog.get? name).isSome
  | sqlite session => (session.archive.catalog.get? name).isSome
  | zip _ inner => (inner.catalog.get? name).isSome
  | directory inner => (inner.catalog.get? name).isSome

/-- The names of which an archive remembers something are those that it knows. -/
theorem remembers_eq (archive : Archive) (name : String) :
    archive.remembers name = (archive.catalog.get? name).isSome := by
  cases archive <;> exact (Catalog.isSome_get?_index ..).symm

/-- Whether an answer reports a fault. -/
def Answer.isFault : Answer → Bool
  | .done result => ¬ result.toBool
  | .contents result => ¬ result.toBool
  | .count result => ¬ result.toBool
  | .path result => ¬ result.toBool

/-- The name that an event enters: that of a write which succeeds. -/
def entered? (archive : Archive) (event : Event) : Option String :=
  match event.call, archive.answer event with
  | .write request, .done (.ok ()) => some (archive.nameOf request.path)
  | _, _ => none

/-- The names that events enter, in order. -/
def entered (archive : Archive) : List Event → List String
  | [] => []
  | event :: later => (archive.entered? event).toList ++ (archive.next event).entered later

/-! ## One event -/

/-- Closing an archive leaves its catalog. -/
theorem catalog_close (archive : Archive) (volume : Volume) :
    (archive.close volume).2.1.catalog = archive.catalog := by
  cases archive with
  | tar number inner =>
    rw [close]
    dsimp only
    unfold Tar.Archive.close
    cases inner.channel <;> rfl
  | sqlite session =>
    rw [close]
    dsimp only
    unfold Sqlite.Session.close
    by_cases closed : session.archive.closed = true
    · rw [if_pos closed]
    · have ended := ((sqlite session).goesOn_endBatch volume).catalog
      rw [endBatch, Sqlite.Session.endBatch, if_neg closed] at ended
      rw [if_neg closed]
      split
      · next committed =>
        rw [committed] at ended
        exact ended
      · next failed =>
        rw [failed] at ended
        exact ended
  | zip number inner => rfl
  | directory inner => rfl

/-- An event puts the name that it enters into the catalog, and nothing else. -/
theorem catalog_next (archive : Archive) (event : Event) :
    (archive.next event).catalog =
      archive.catalog.insertAll ((archive.entered? event).toList.map fun name => (name, ())) := by
  obtain ⟨libraries, volume, call⟩ := event
  cases call with
  | write request =>
    have wrote := archive.wrote volume request libraries
    rw [next, entered?, answer, perform]
    generalize archive.write volume request libraries = written at wrote ⊢
    obtain ⟨result, after, left⟩ := written
    cases wrote with
    | lists goes => exact goes.catalog
    | fails goes => exact goes.catalog
  | read path => exact (archive.goesOn_read volume path).catalog
  | beginBatch => exact archive.goesOn_beginBatch.catalog
  | endBatch => exact (archive.goesOn_endBatch volume).catalog
  | size | pathAt => rfl
  | close =>
    rw [next, perform, Prod.map_snd, id]
    exact archive.catalog_close volume

/-- An event keeps the names and the set of those that are known in step. -/
theorem inStep_next {archive : Archive} (inStep : archive.catalog.InStep) (event : Event) :
    (archive.next event).catalog.InStep := by
  rw [catalog_next]
  exact inStep.insertAll _

/-- An event that fails enters no name. -/
theorem entered?_of_isFault {archive : Archive} {event : Event}
    (fault : (archive.answer event).isFault = true) : archive.entered? event = none := by
  unfold entered?
  split
  · next done =>
    rw [done] at fault
    contradiction
  · rfl

/-! ## Several events -/

/-- One event more is one step more. -/
theorem after_append_singleton (archive : Archive) (events : List Event) (event : Event) :
    archive.after (events ++ [event]) = (archive.after events).next event := by
  rw [after, List.foldl_append]
  rfl

/-- One event more enters its name behind the others. -/
theorem entered_append_singleton (archive : Archive) (events : List Event) (event : Event) :
    archive.entered (events ++ [event]) =
      archive.entered events ++ ((archive.after events).entered? event).toList := by
  induction events generalizing archive with
  | nil => exact List.append_nil _
  | cons first later ih =>
    rw [List.cons_append, entered, entered, ih, List.append_assoc]
    rfl

/-- Events keep the names and the set of those that are known in step. -/
theorem inStep_after {archive : Archive} (inStep : archive.catalog.InStep) (events : List Event) :
    (archive.after events).catalog.InStep := by
  induction events generalizing archive with
  | nil => exact inStep
  | cons event later ih => exact ih (inStep_next inStep event)

/-- An archive lists the names it listed at first and then those that were entered, each once. -/
theorem known_after {archive : Archive} (inStep : archive.catalog.InStep) (events : List Event) :
    (archive.after events).known = (archive.known ++ archive.entered events).eraseDups := by
  induction events using List.reverseRecOn with
  | nil =>
    rw [entered, List.append_nil, ← names_catalog archive, eraseDups_of_nodup inStep.nodup,
      names_catalog]
    rfl
  | append_singleton events event ih =>
    have before := inStep_after inStep events
    rw [after_append_singleton, entered_append_singleton, ← names_catalog, catalog_next]
    cases (archive.after events).entered? event with
    | none =>
      rw [Option.toList_none, List.append_nil, ← ih, ← names_catalog]
      rfl
    | some name =>
      rw [Option.toList_some, ← List.append_assoc, eraseDups_append_singleton, ← ih,
        ← names_catalog]
      exact before.names_insert name ()

/-- The names that an archive lists stay where they are. -/
theorem known_prefix (archive : Archive) (events : List Event) :
    archive.known <+: (archive.after events).known := by
  induction events generalizing archive with
  | nil => exact List.prefix_rfl
  | cons event later ih =>
    refine List.IsPrefix.trans ?_ (ih (archive.next event))
    rw [← names_catalog, ← names_catalog, catalog_next]
    cases archive.entered? event with
    | none => exact List.prefix_rfl
    | some name =>
      show _ <+: if (archive.catalog.get? name).isSome then _ else _
      split
      · exact List.prefix_rfl
      · exact List.prefix_append _ _

/-! ## The enumeration -/

/-- An open archive enumerates names: it lists each of them once, remembers something of these and
no others, and answers for each position with the name there, or that there is none. -/
structure Enumerates (archive : Archive) (names : List String) : Prop where
  /-- They are listed. -/
  paths : archive.paths = .ok names
  /-- No name is listed twice. -/
  nodup : names.Nodup
  /-- Something is remembered of exactly these. -/
  remembers : ∀ name, archive.remembers name = true ↔ name ∈ names
  /-- Their number is the size. -/
  size : archive.size = .ok names.length
  /-- Each stands at its position. -/
  pathAt : ∀ (index : Nat) (inside : index < names.length),
    archive.pathAt index = .ok (names.get ⟨index, inside⟩)
  /-- Nothing stands at any other position. -/
  outOfRange : ∀ index,
    archive.pathAt index = .error (.outOfRange index names.length) ↔ names.length ≤ index

/-- An open archive has at a position what it knows there. -/
theorem pathAt_eq_ok_iff {archive : Archive} (isOpen : archive.requireOpen = .ok ()) {index : Nat}
    {name : String} : archive.pathAt index = .ok name ↔ archive.known[index]? = some name := by
  rw [pathAt, isOpen]
  dsimp only
  rw [pickPath]
  split
  · next found => rw [found, Except.ok.injEq, Option.some.injEq]
  · next absent => simp [absent]

/-- An archive that is open enumerates the names that it lists, if they are in step with the set of
those that it knows. -/
theorem enumerates_known {archive : Archive} (isOpen : archive.requireOpen = .ok ())
    (inStep : archive.catalog.InStep) : archive.Enumerates archive.known where
  paths := by rw [Archive.paths, isOpen]
  nodup := archive.names_catalog ▸ inStep.nodup
  remembers name := by
    rw [remembers_eq, ← names_catalog]
    exact inStep.known_iff name
  size := by rw [Archive.size, isOpen]
  pathAt index inside := (pathAt_eq_ok_iff isOpen).mpr (List.getElem?_eq_getElem inside)
  outOfRange index := by
    rw [Archive.pathAt, isOpen]
    by_cases inside : index < archive.known.length
    · simp [pickPath, inside]
    · simp [pickPath, Nat.not_lt.mp inside]

/-- Whatever is asked of an archive once it was opened, and whether it succeeds or fails: for as
long as the archive is open it enumerates the names that it found and those of the writes that
succeeded, in order and each once. A call that fails leaves the names and what is remembered of them
as they are, and a name that stands at a position stands there from then on. -/
theorem enumeration_steady {kind : ArchiveKind} {volume : Volume} {file : String} {mode : Access}
    {sizes : PieceSizes} {start : Archive}
    (opened : (openAs kind volume file mode sizes).result = .ok start) (events : List Event)
    (isOpen : (start.after events).requireOpen = .ok ()) :
    let archive := start.after events
    archive.Enumerates (start.known ++ start.entered events).eraseDups ∧
      (∀ event, (archive.answer event).isFault = true →
        (archive.next event).known = archive.known ∧
          ∀ name, (archive.next event).remembers name = archive.remembers name) ∧
      ∀ index name, archive.pathAt index = .ok name → ∀ later,
        (archive.after later).requireOpen = .ok () →
          (archive.after later).pathAt index = .ok name := by
  intro archive
  have inStep := (opened_of_result opened).inStep
  refine ⟨?_, fun event fault => ?_, fun index name there later stillOpen => ?_⟩
  · rw [← known_after inStep events]
    exact enumerates_known isOpen (inStep_after inStep events)
  · have same : (archive.next event).catalog = archive.catalog := by
      rw [catalog_next, entered?_of_isFault fault]
      rfl
    refine ⟨?_, fun name => ?_⟩
    · rw [← names_catalog, same, names_catalog]
    · rw [remembers_eq, same, remembers_eq]
  · obtain ⟨rest, grown⟩ := archive.known_prefix later
    have found := (pathAt_eq_ok_iff isOpen).mp there
    obtain ⟨inside, -⟩ := List.getElem?_eq_some_iff.mp found
    rw [pathAt_eq_ok_iff stillOpen, ← grown, List.getElem?_append_left inside, found]

/-- A directory in which an entry is written under a path with a slash at its front, then one is
refused that would lie outside, and the first is written again without the slash. -/
theorem enumeration_steady_directory :
    let start : Archive := .directory ⟨"d/", .write, .empty, false⟩
    let volume (contents : List Content) : Volume :=
      ⟨(["d"], .directory) :: (contents.zipIdx.map fun (_, number) => (["d", "a"], .file number)),
        contents, [], 0⟩
    let events : List Event :=
      [⟨.literal, volume [], .write ⟨"/a", [7], .none, true⟩⟩,
        ⟨.literal, volume [.bytes [7]], .write ⟨"../b", [8], .none, true⟩⟩,
        ⟨.literal, volume [.bytes [7]], .write ⟨"a", [], .none, false⟩⟩]
    (openAs .directory (.empty 0) "d/" .write ⟨0, 0⟩).result = .ok start ∧
      (start.after events).requireOpen = .ok () ∧ (start.after events).Enumerates ["a"] := by
  intro start volume events
  have opened : (openAs .directory (.empty 0) "d/" .write ⟨0, 0⟩).result = .ok start := by
    decide +kernel
  have isOpen : (start.after events).requireOpen = .ok () := by decide +kernel
  have names : (start.known ++ start.entered events).eraseDups = ["a"] := by decide +kernel
  obtain ⟨enumerates, -⟩ := enumeration_steady opened events isOpen
  exact ⟨opened, isOpen, names ▸ enumerates⟩

end Archive

end Trajectory
