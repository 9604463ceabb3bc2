import Trajectory.Archive.Basic
/-!
# Calls of an archive

Everything that can be asked of an open archive as one kind of call, with the answer to it, and
runs of calls in order: alone on a volume, or with whatever else happens in between.
-/
namespace Trajectory.Archive

/-- What can be asked of an archive. -/
inductive Call where
  /-- Write an entry. -/
  | write (request : Request)
  /-- Read an entry. -/
  | read (path : String)
  /-- Begin a batch of writes. -/
  | beginBatch
  /-- End a batch of writes. -/
  | endBatch
  /-- The number of entries. -/
  | size
  /-- The path at a position of the enumeration. -/
  | pathAt (index : Nat)
  /-- Close the archive. -/
  | close
  deriving DecidableEq, Repr

/-- What an archive answers. -/
inductive Answer where
  /-- Whether it was done. -/
  | done (result : Except ArchiveError Unit)
  /-- Contents. -/
  | contents (result : Except ArchiveError (List UInt8))
  /-- A number of entries. -/
  | count (result : Except ArchiveError Nat)
  /-- A path. -/
  | path (result : Except ArchiveError String)

/-- The answer to a call, with the archive and the volume after it. -/
def perform (libraries : Libraries) (archive : Archive) (volume : Volume) :
    Call → Answer × Archive × Volume
  | .write request => (archive.write volume request libraries).map .done id
  | .read path => (archive.read volume path).map .contents id
  | .beginBatch => (.done archive.beginBatch.1, archive.beginBatch.2, volume)
  | .endBatch => (archive.endBatch volume).map .done id
  | .size => (.count archive.size, archive, volume)
  | .pathAt index => (.path (archive.pathAt index), archive, volume)
  | .close => (archive.close volume).map .done id

/-- The archive and the volume after several calls in order. -/
def run (libraries : Libraries) (archive : Archive) (volume : Volume) :
    List Call → Archive × Volume
  | [] => (archive, volume)
  | call :: later =>
    let (_, after, left) := archive.perform libraries volume call
    after.run libraries left later

/-- A call, and the libraries and the volume as the call finds them. Between calls others may have
changed the volume, and what a library refuses need not be what it refused before. -/
structure Event where
  /-- The libraries. -/
  libraries : Libraries
  /-- The volume. -/
  volume : Volume
  /-- The call. -/
  call : Call

/-- The answer to the call of an event. -/
def answer (archive : Archive) (event : Event) : Answer :=
  (archive.perform event.libraries event.volume event.call).1

/-- The archive after an event. -/
def next (archive : Archive) (event : Event) : Archive :=
  (archive.perform event.libraries event.volume event.call).2.1

/-- The archive after several events in order. -/
def after (archive : Archive) (events : List Event) : Archive := events.foldl next archive

end Trajectory.Archive
