import Trajectory.Proofs.Archive.Frozen
/-!
# Closed archives

An archive that was closed refuses whatever it is asked for, before it looks at anything else. To
close it again succeeds. Nothing of all this, and not giving it up in the end, changes the volume.
-/
namespace Trajectory

namespace Archive

/-- An archive is closed, for which each kind has its own mark. -/
inductive IsClosed : Archive → Prop where
  /-- A tar file is no longer used. -/
  | tar {number : Nat} {inner : Tar.Archive} (channel : inner.channel = .closed) :
    IsClosed (.tar number inner)
  /-- A session with a database is over. -/
  | sqlite {session : Sqlite.Session} (closed : session.archive.closed = true) :
    IsClosed (.sqlite session)
  /-- A zip file is completed. -/
  | zip {number : Nat} {inner : Zip.Archive} (closed : inner.closed = true) :
    IsClosed (.zip number inner)
  /-- A directory is left. -/
  | directory {inner : Directory.Archive} (closed : inner.closed = true) :
    IsClosed (.directory inner)

/-- An archive that is not open is closed. -/
theorem requireOpen_cases (archive : Archive) :
    archive.requireOpen = .ok () ∨ archive.IsClosed := by
  cases archive with
  | tar number inner =>
    exact (em (inner.channel = .closed)).symm.imp (fun isOpen => if_neg isOpen) .tar
  | sqlite session =>
    exact (em (session.archive.closed = true)).symm.imp (fun isOpen => if_neg isOpen) .sqlite
  | zip number inner =>
    exact (em (inner.closed = true)).symm.imp (fun isOpen => if_neg isOpen) .zip
  | directory inner =>
    exact (em (inner.closed = true)).symm.imp (fun isOpen => if_neg isOpen) .directory

/-- An archive that was closed with success is closed. -/
theorem isClosed_close {archive : Archive} {volume : Volume}
    (done : (archive.close volume).1 = .ok ()) : (archive.close volume).2.1.IsClosed := by
  cases archive with
  | tar number inner =>
    have shut : (inner.close (volume.bytes number)).1.channel = .closed := by
      unfold Tar.Archive.close
      split <;> rfl
    exact .tar shut
  | sqlite session =>
    have ended : (session.close volume).1 = .ok () := done
    have shut : (session.close volume).2.1.archive.closed = true := by
      unfold Sqlite.Session.close at ended ⊢
      split
      · next shut => exact shut
      · next ongoing =>
        rw [if_neg ongoing] at ended
        split
        · rfl
        · next failed =>
          rw [failed] at ended
          contradiction
    exact .sqlite shut
  | zip number inner => exact .zip rfl
  | directory inner => exact .directory rfl

/-- How a closed archive answers a call. -/
def Call.refusal : Call → Answer
  | .write _ | .beginBatch | .endBatch => .done (.error .closed)
  | .read _ => .contents (.error .closed)
  | .size => .count (.error .closed)
  | .pathAt _ => .path (.error .closed)
  | .close => .done (.ok ())

namespace IsClosed

variable {archive : Archive} (closed : archive.IsClosed) (volume : Volume)

include closed

/-- A closed archive says so. -/
theorem requireOpen : archive.requireOpen = .error .closed := by
  cases closed with
  | tar channel => exact if_pos channel
  | sqlite closed | zip closed | directory closed => exact if_pos closed

/-- A cursor that is moved opens nothing. -/
theorem moved (inPlace : Bool) : (archive.moved inPlace).IsClosed := by
  cases closed with
  | tar channel => exact .tar channel
  | sqlite closed => exact .sqlite closed
  | zip closed => exact .zip closed
  | directory closed => exact .directory closed

/-- A write is refused. -/
theorem write (libraries : Libraries) (request : Request) : ∃ inPlace,
    archive.write volume request libraries =
      (.error .closed, archive.moved inPlace, volume) := by
  cases closed with
  | tar channel =>
    rw [Archive.write, Tar.Archive.write_of_closed channel]
    dsimp only
    rw [volume.setBytes_bytes]
    exact ⟨false, rfl⟩
  | sqlite closed =>
    rw [Archive.write, Sqlite.Session.write, Sqlite.Archive.requireWritable, if_pos closed]
    exact ⟨true, rfl⟩
  | zip closed =>
    rw [Archive.write, Zip.Archive.write, if_pos closed]
    dsimp only
    rw [volume.setBytes_bytes]
    exact ⟨true, rfl⟩
  | directory closed =>
    rw [Archive.write, Directory.Archive.write, if_pos closed]
    exact ⟨true, rfl⟩

/-- A read is refused. -/
theorem read (path : String) : archive.read volume path = (.error .closed, archive, volume) := by
  cases closed with
  | tar channel =>
    rw [Archive.read, Tar.Archive.read, channel]
    dsimp only
    rw [volume.setBytes_bytes]
  | sqlite closed => rw [Archive.read, Sqlite.Session.read, if_pos closed]
  | zip closed => rw [Archive.read, Zip.Archive.read, if_pos closed]
  | directory closed => rw [Archive.read, Directory.Archive.read, if_pos closed]

/-- No batch begins. -/
theorem beginBatch : archive.beginBatch = (.error .closed, archive) := by
  have shut := closed.requireOpen
  cases closed with
  | sqlite closed =>
    rw [Archive.beginBatch, Sqlite.Session.beginBatch, Sqlite.Archive.beginBatch, if_pos closed]
  | tar | zip | directory => exact Prod.ext shut rfl

/-- No batch ends. -/
theorem endBatch : archive.endBatch volume = (.error .closed, archive, volume) := by
  have shut := closed.requireOpen
  cases closed with
  | tar channel =>
    rw [Archive.endBatch, Tar.Archive.endBatch, channel]
    dsimp only
    rw [volume.setBytes_bytes]
  | sqlite closed => rw [Archive.endBatch, Sqlite.Session.endBatch, if_pos closed]
  | zip | directory => exact Prod.ext shut rfl

/-- Closing again does nothing. -/
theorem close : archive.close volume = (.ok (), archive, volume) := by
  cases closed with
  | @tar number inner channel =>
    obtain ⟨mode, _, catalog, stop, inPlace⟩ := inner
    obtain rfl := channel
    rw [Archive.close, Tar.Archive.close]
    dsimp only
    rw [volume.setBytes_bytes]
  | sqlite closed => rw [Archive.close, Sqlite.Session.close, if_pos closed]
  | @zip number inner closed =>
    obtain ⟨mode, stored, session, catalog, _⟩ := inner
    obtain rfl := closed
    have kept : (Zip.Archive.mk mode stored session catalog true).close (volume.bytes number) =
        (⟨mode, stored, session, catalog, true⟩, volume.bytes number) := by
      cases session <;> rfl
    rw [Archive.close, kept]
    dsimp only
    rw [volume.setBytes_bytes]
  | @directory inner closed =>
    obtain ⟨root, mode, catalog, _⟩ := inner
    obtain rfl := closed
    rfl

/-- A call is refused, and moves at most a cursor. -/
theorem perform (libraries : Libraries) (call : Call) : ∃ inPlace,
    archive.perform libraries volume call = (call.refusal, archive.moved inPlace, volume) := by
  have shut := closed.requireOpen
  have stays (answer : Answer) : ∃ inPlace,
      (answer, archive, volume) = (answer, archive.moved inPlace, volume) :=
    archive.eq_moved.imp fun _ same => congrArg (answer, ·, volume) same
  cases call with
  | write request =>
    obtain ⟨inPlace, refused⟩ := closed.write volume libraries request
    rw [Archive.perform, refused]
    exact ⟨inPlace, rfl⟩
  | read path =>
    rw [Archive.perform, closed.read]
    exact stays _
  | beginBatch =>
    rw [Archive.perform, closed.beginBatch]
    exact stays _
  | endBatch =>
    rw [Archive.perform, closed.endBatch]
    exact stays _
  | size =>
    rw [Archive.perform, size, shut]
    exact stays _
  | pathAt index =>
    rw [Archive.perform, pathAt, shut]
    exact stays _
  | close =>
    rw [Archive.perform, closed.close]
    exact stays _

omit volume in
/-- Whatever a closed archive is asked for, it stays closed. -/
theorem after (events : List Event) : (archive.after events).IsClosed := by
  induction events generalizing archive with
  | nil => exact closed
  | cons event later ih =>
    obtain ⟨inPlace, refused⟩ := closed.perform event.volume event.libraries event.call
    refine ih ?_
    rw [next, refused]
    exact closed.moved inPlace

/-- Calls in order leave the volume. -/
theorem run (libraries : Libraries) (calls : List Call) :
    (archive.run libraries volume calls).2 = volume := by
  induction calls generalizing archive with
  | nil => rfl
  | cons call later ih =>
    obtain ⟨inPlace, refused⟩ := closed.perform volume libraries call
    rw [Archive.run, refused]
    exact ih (closed.moved inPlace)

/-- Giving the archive up leaves the volume. -/
theorem giveUp : archive.giveUp volume = (none, volume) := by
  unfold Archive.giveUp
  rw [closed.close]

end IsClosed

/-- A batch begins exactly if the archive is open. -/
theorem beginBatch_fst (archive : Archive) : archive.beginBatch.1 = archive.requireOpen := by
  cases archive with
  | sqlite session =>
    change session.archive.beginBatch.1 = session.archive.requireOpen
    unfold Sqlite.Archive.beginBatch Sqlite.Archive.requireOpen
    split
    · rfl
    · split <;> rfl
  | tar | zip | directory => rfl

/-- An archive is closed for good: whatever happens from then on, it refuses every call but to close
it again, and none of them changes the volume, and neither does giving it up. -/
structure Final (archive : Archive) : Prop where
  /-- Every call is refused, but to close it again. -/
  answers : ∀ events libraries volume call,
    ((archive.after events).perform libraries volume call).1 = call.refusal
  /-- No call changes the volume that it finds. -/
  keeps : ∀ events libraries volume call,
    ((archive.after events).perform libraries volume call).2.2 = volume
  /-- No calls in order change it. -/
  run : ∀ volume libraries calls, (archive.run libraries volume calls).2 = volume
  /-- The names are refused too. -/
  paths : ∀ events, (archive.after events).paths = .error .closed
  /-- Giving it up succeeds and does nothing. -/
  giveUp : ∀ events volume, (archive.after events).giveUp volume = (none, volume)

/-- A closed archive is closed for good. -/
theorem IsClosed.final {archive : Archive} (closed : archive.IsClosed) : archive.Final where
  answers events libraries volume call := by
    obtain ⟨inPlace, refused⟩ := (closed.after events).perform volume libraries call
    rw [refused]
  keeps events libraries volume call := by
    obtain ⟨inPlace, refused⟩ := (closed.after events).perform volume libraries call
    rw [refused]
  run := closed.run
  paths events := by rw [paths, (closed.after events).requireOpen]
  giveUp events := (closed.after events).giveUp

end Archive

end Trajectory
