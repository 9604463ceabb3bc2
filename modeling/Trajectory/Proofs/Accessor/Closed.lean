import Trajectory.Accessor.Copy
import Trajectory.Proofs.Accessor.Replay
import Trajectory.Proofs.Archive.Closed
/-!
# Closed accessors

An accessor lets go of its archive when it is closed, whether or not the archive could be
completed. From then on it refuses every operation but to close it again, and neither it nor the
volume changes.
-/
namespace Trajectory

namespace Accessor

/-- An accessor is closed for good: every operation is refused, but to close it again, and leaves
the accessor and the volume as they are. To copy from it only begins and ends a batch of the
accessor that should have been written to. -/
structure Final (accessor : Accessor) : Prop where
  /-- Writing, at once or in a batch. -/
  put : ∀ volume draft immediate libraries,
    accessor.put volume draft immediate libraries = (.error .closed, accessor, volume)
  /-- Reading contents. -/
  read : ∀ volume path, accessor.read volume path = (.error .closed, accessor, volume)
  /-- Reading a record. -/
  readRecord : ∀ volume record frame,
    accessor.readRecord volume record frame = (.error .closed, accessor, volume)
  /-- Reading elements. -/
  readElements : ∀ volume format path,
    accessor.readElements volume format path = (.error .closed, accessor, volume)
  /-- Reading one element. -/
  readElement : ∀ volume format path,
    accessor.readElement volume format path = (.error .closed, accessor, volume)
  /-- Record types. -/
  types : accessor.types = .error .closed
  /-- Frames in index order. -/
  frames : ∀ record, accessor.frames record = .error .closed
  /-- Frames in the order first seen. -/
  framesSeen : ∀ record, accessor.framesSeen record = .error .closed
  /-- One frame. -/
  frameAt? : ∀ record place, accessor.frameAt? record place = .error .closed
  /-- The number of entries. -/
  size : accessor.size = .error .closed
  /-- The paths. -/
  paths : accessor.paths = .error .closed
  /-- Beginning a batch. -/
  startBatch : Batch.start accessor = .error (.closed, accessor)
  /-- Ending a batch. -/
  endBatch : ∀ volume, accessor.endBatch volume = (.error .closed, accessor, volume)
  /-- Copying to it. -/
  copyInto : ∀ source volume compression libraries,
    copyTo source accessor volume compression libraries =
      ⟨.error .closed, source, accessor, volume⟩
  /-- Copying from it. -/
  copyFrom : ∀ (target : Accessor) (volume : Volume) (compression : Compression) libraries,
    let ended := target.beginBatch.2.endBatch volume
    copyTo accessor target volume compression libraries =
      ⟨.error .closed, accessor, ended.2.1, ended.2.2⟩
  /-- Closing it again, which is all that giving it up does. -/
  close : ∀ volume, accessor.close volume = (.ok (), accessor, volume)

/-- A batch either begins, or neither begins nor ends. -/
theorem beginBatch_cases (target : Accessor) :
    (∃ begun, target.beginBatch = (.ok (), begun)) ∨
      target.beginBatch = (.error .closed, target) ∧
        ∀ volume, target.endBatch volume = (.error .closed, target, volume) := by
  obtain ⟨path, mode, current, register, compression⟩ := target
  cases current with
  | none => exact .inr ⟨rfl, fun volume => rfl⟩
  | some archive =>
    rcases archive.requireOpen_cases with isOpen | closed
    · left
      rw [beginBatch_of_some rfl, archive.beginBatch_fst, isOpen]
      exact ⟨_, rfl⟩
    · right
      constructor
      · rw [beginBatch_of_some rfl, closed.beginBatch]
      · intro volume
        rw [endBatch_of_some rfl, closed.endBatch]

/-- An accessor without an archive is closed for good. -/
theorem final_of_none {accessor : Accessor} (gone : accessor.archive = none) :
    accessor.Final := by
  have start : accessor.beginBatch = (.error .closed, accessor) := by rw [beginBatch, gone]
  have unread (volume : Volume) (path : String) :
      accessor.read volume path = (.error .closed, accessor, volume) := by rw [read, gone]
  have silent {α : Type} (question : Register → α) : accessor.query question = .error .closed := by
    rw [query, current, gone]
  constructor
  case put =>
    intro volume draft immediate libraries
    rw [put, gone]
  case read => exact unread
  case readRecord => exact fun volume record frame => unread volume _
  case readElements =>
    intro volume format path
    rw [readElements, unread]
    rfl
  case readElement =>
    intro volume format path
    rw [readElement, unread]
    rfl
  case types => exact silent _
  case frames => exact fun record => silent _
  case framesSeen => exact fun record => silent _
  case frameAt? => exact fun record place => silent _
  case size => rw [size, current, gone]
  case paths => rw [paths, current, gone]
  case startBatch => rw [Batch.start, start]
  case endBatch =>
    intro volume
    rw [endBatch, gone]
  case copyInto =>
    intro source volume compression libraries
    rw [copyTo, Batch.start, start]
  case copyFrom =>
    intro target volume compression libraries ended
    rcases target.beginBatch_cases with ⟨begun, begins⟩ | ⟨refused, unended⟩
    · rw [copyTo, Batch.start, begins]
      dsimp only
      rw [silent]
      simp only [ended, begins, Batch.finish]
    · rw [copyTo, Batch.start, refused]
      simp only [ended, refused, unended]
  case close =>
    intro volume
    rw [close, gone]

end Accessor

/-- An archive that was closed with success is closed for good, and so is an accessor that was
closed at all: in the midst of a batch as well, and for every kind and mode of archive. -/
theorem closed_is_final :
    (∀ (archive : Archive) (volume : Volume), (archive.close volume).1 = .ok () →
      (archive.close volume).2.1.Final) ∧
    ∀ (accessor : Accessor) (volume : Volume), (accessor.close volume).2.1.Final := by
  constructor
  · intro archive volume done
    exact (Archive.isClosed_close done).final
  · intro accessor volume
    refine Accessor.final_of_none ?_
    rcases current : accessor.archive with _ | archive
    · rw [Accessor.close, current]
      exact current
    · rw [Accessor.close, current]

/-- A new database that is closed in the midst of a batch, while a write is still held back. -/
theorem closed_is_final_held_back :
    let opening := Archive.openAs .sqlite (.empty 0) "a.db" .append ⟨0, 0⟩
    let start : Archive :=
      .sqlite ⟨"a.db", ⟨0, some "a.db", true⟩, ⟨.append, ⟨0, 0⟩, .empty, .idle, false⟩⟩
    let held := start.run .literal opening.volume [.beginBatch, .write ⟨"a", [7], .none, false⟩]
    opening.result = .ok start ∧ held.2.content 0 = opening.volume.content 0 ∧
      (held.1.close held.2).1 = .ok () ∧ (held.1.close held.2).2.1.Final ∧
        ((Accessor.ofArchive "a.db" .append .none held.1).close held.2).2.1.Final := by
  intro opening start held
  have opened : opening.result = .ok start := by decide +kernel
  have unwritten : held.2.content 0 = opening.volume.content 0 := by decide +kernel
  have done : (held.1.close held.2).1 = .ok () := by decide +kernel
  obtain ⟨archives, accessors⟩ := closed_is_final
  exact ⟨opened, unwritten, done, archives held.1 held.2 done, accessors _ held.2⟩

end Trajectory
