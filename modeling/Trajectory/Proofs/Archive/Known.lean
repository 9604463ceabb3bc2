import Trajectory.Archive.Basic
import Trajectory.Proofs.Record.RoundTrip
import Trajectory.Proofs.Sqlite.Operations
/-!
# Paths known to an archive

While an archive is open, nothing but a write that succeeds changes the paths that it lists and the
set of those that it knows. Such a write puts the path, in a directory without the slashes at its
front, into both, behind those listed unless it is known. No call but closing closes an archive,
and none changes the mode it was opened in.
-/
namespace Trajectory

namespace Archive

/-- The names that an archive lists and the set of those that it knows. The set is the keys of what
it remembers of its entries where it remembers more than their names. -/
def catalog : Archive → Catalog Unit
  | tar _ archive => archive.catalog.index
  | sqlite session => session.archive.catalog.index
  | zip _ archive => archive.catalog.index
  | directory archive => archive.catalog.index

/-- The names of the catalog are those listed. -/
theorem names_catalog (archive : Archive) : archive.catalog.names = archive.known := by
  cases archive <;> rfl

/-- The archive before goes on as the one after, with a certain catalog: the mode is the same, and
it is open if it was. -/
structure GoesOn (before : Archive) (catalog : Catalog Unit) (after : Archive) : Prop where
  /-- The mode is the same. -/
  mode : after.mode = before.mode
  /-- It is open if it was. -/
  requireOpen : after.requireOpen = before.requireOpen
  /-- It has the catalog. -/
  catalog : after.catalog = catalog

/-- An archive that does not change goes on. -/
theorem GoesOn.same (archive : Archive) : archive.GoesOn archive.catalog archive := ⟨rfl, rfl, rfl⟩

/-- An archive that goes on with its catalog knows the paths that it knew. -/
theorem GoesOn.known {before after : Archive} (goes : before.GoesOn before.catalog after) :
    after.known = before.known := by
  rw [← names_catalog, goes.catalog, names_catalog]

/-- The names that are listed once one of them is. -/
def listed (names : List String) (name : String) : List String :=
  if name ∈ names then names else names ++ [name]

/-- An archive that goes on with a name put into its catalog lists it, if names and set were in
step. -/
theorem GoesOn.listed {before after : Archive} {name : String}
    (goes : before.GoesOn (before.catalog.insert name ()) after)
    (inStep : before.catalog.InStep) : after.known = listed before.known name := by
  rw [← names_catalog, goes.catalog, inStep.names_insert, names_catalog, Archive.listed]

/-- The name under which an archive lists a path: in a directory, the path without the slashes at
its front. -/
def nameOf : Archive → String → String
  | directory _, path => Directory.entryName path
  | tar _ _, path | sqlite _, path | zip _ _, path => path

/-- How a write ends: it lists the path by its name, or it fails and lists nothing. -/
inductive Wrote (before : Archive) (path : String) : Except ArchiveError Unit → Archive → Prop where
  /-- It lists the path. -/
  | lists {after : Archive}
    (goes : before.GoesOn (before.catalog.insert (before.nameOf path) ()) after) :
    Wrote before path (.ok ()) after
  /-- It fails. -/
  | fails {error : ArchiveError} {after : Archive} (goes : before.GoesOn before.catalog after) :
    Wrote before path (.error error) after

/-- The name of a path is read as the same record. -/
theorem parse_nameOf (archive : Archive) (path : String) :
    Record.parse (archive.nameOf path) = Record.parse path := by
  cases archive with
  | directory inner =>
    rw [nameOf, (Record.path_parse path).2, Directory.entryName, String.toList_ofList,
      trimSlashes_of_head? (head?_trimSlashes _)]
  | tar | sqlite | zip => rfl

variable {volume : Volume} {request : Request} {libraries : Libraries}

/-- A write to a tar file lists its path or fails. -/
theorem wrote_tar (number : Nat) (archive : Tar.Archive) :
    (tar number archive).Wrote request.path ((tar number archive).write volume request libraries).1
      ((tar number archive).write volume request libraries).2.1 := by
  rw [write]
  dsimp only
  unfold Tar.Archive.write Tar.Archive.append
  cases channel : archive.channel with
  | closed => exact .fails ⟨rfl, rfl, rfl⟩
  | reader => exact .fails ⟨rfl, rfl, rfl⟩
  | writer writer =>
    dsimp only
    generalize (if archive.inPlace then (writer, volume.bytes number) else
      writer.seek (volume.bytes number) archive.stop) = place
    have opened {after : Tar.BufferedWriter} {other : Tar.Archive}
        (writing : other.channel = .writer after) : other.requireOpen = archive.requireOpen := by
      simp [Tar.Archive.requireOpen, writing, channel]
    cases Tar.Header.encode request.path request.contents.length volume.clock with
    | error limit => exact .fails ⟨rfl, opened rfl, rfl⟩
    | ok header => exact .lists ⟨rfl, opened rfl, Catalog.index_insert ..⟩

/-- A write to a database lists its path or fails. -/
theorem wrote_sqlite (session : Sqlite.Session) :
    (sqlite session).Wrote request.path ((sqlite session).write volume request libraries).1
      ((sqlite session).write volume request libraries).2.1 := by
  rw [write]
  dsimp only
  unfold Sqlite.Session.write
  split
  · exact .fails (.same _)
  · next writable =>
    split
    · exact .fails (.same _)
    · next rows settled changeable =>
      have viewed : session.archive.view rows = session.archive.view rows := rfl
      have settled (archive : Sqlite.Archive) (committed rows : Sqlite.Database) :
          let after := (archive.settle committed rows).1
          after.mode = archive.mode ∧ after.requireOpen = archive.requireOpen ∧
            after.catalog = archive.catalog := by
        rw [Sqlite.Archive.settle]
        split <;> exact ⟨rfl, rfl, rfl⟩
      dsimp only
      rcases Sqlite.Archive.write_cases libraries.engine request.path request.contents
        request.compression writable viewed with done | ⟨error, undone⟩
      · rw [done]
        obtain ⟨mode, isOpen, catalog⟩ := settled { session.archive with
          catalog := session.archive.catalog.insert request.path () } rows _
        exact .lists ⟨mode, isOpen, (congrArg Catalog.index catalog).trans
          (Catalog.index_insert ..)⟩
      · rw [undone]
        obtain ⟨mode, isOpen, catalog⟩ := settled session.archive rows _
        exact .fails ⟨mode, isOpen, congrArg Catalog.index catalog⟩

/-- A write to a zip file lists its path or fails. -/
theorem wrote_zip (number : Nat) (archive : Zip.Archive) :
    (zip number archive).Wrote request.path ((zip number archive).write volume request libraries).1
      ((zip number archive).write volume request libraries).2.1 := by
  rw [write]
  dsimp only
  unfold Zip.Archive.write
  split
  · exact .fails (.same _)
  · split
    · exact .fails (.same _)
    · split
      · exact .fails (.same _)
      · split
        · exact .fails (.same _)
        · exact .lists ⟨rfl, rfl, Catalog.index_insert ..⟩

/-- A write to a directory lists its path without the slashes at its front, or fails. -/
theorem wrote_directory (archive : Directory.Archive) :
    (directory archive).Wrote request.path ((directory archive).write volume request libraries).1
      ((directory archive).write volume request libraries).2.1 := by
  rw [write]
  dsimp only
  unfold Directory.Archive.write
  split
  · exact .fails (.same _)
  · split
    · exact .fails (.same _)
    · split
      · exact .fails (.same _)
      · dsimp only
        split
        · exact .fails (.same _)
        · split
          · exact .fails (.same _)
          · exact .lists ⟨rfl, rfl, Catalog.index_insert ..⟩

/-- A write lists its path or fails. -/
theorem wrote (archive : Archive) (volume : Volume) (request : Request) (libraries : Libraries) :
    archive.Wrote request.path (archive.write volume request libraries).1
      (archive.write volume request libraries).2.1 := by
  cases archive with
  | tar number archive => exact wrote_tar number archive
  | sqlite session => exact wrote_sqlite session
  | zip number archive => exact wrote_zip number archive
  | directory archive => exact wrote_directory archive

/-- A write leaves an archive open if it was. -/
theorem requireOpen_write (archive : Archive) (volume : Volume) (request : Request)
    (libraries : Libraries) :
    (archive.write volume request libraries).2.1.requireOpen = archive.requireOpen := by
  have wrote := archive.wrote volume request libraries
  rcases answer : archive.write volume request libraries with ⟨result, after, left⟩
  rw [answer] at wrote
  cases wrote with
  | lists goes => exact goes.requireOpen
  | fails goes => exact goes.requireOpen

/-- A read lists nothing. -/
theorem goesOn_read (archive : Archive) (volume : Volume) (path : String) :
    archive.GoesOn archive.catalog (archive.read volume path).2.1 := by
  cases archive with
  | tar number archive =>
    rw [read]
    dsimp only
    unfold Tar.Archive.read
    cases channel : archive.channel with
    | closed => exact .same _
    | reader =>
      dsimp only
      split
      · exact .same _
      · split
        · exact ⟨rfl, by simp [requireOpen, Tar.Archive.requireOpen, channel], rfl⟩
        · exact .same _
    | writer writer =>
      have opened {after : Tar.BufferedWriter} {other : Tar.Archive}
          (writing : other.channel = .writer after) : other.requireOpen = archive.requireOpen := by
        simp [Tar.Archive.requireOpen, writing, channel]
      dsimp only
      split
      · exact .same _
      · split
        · exact ⟨rfl, opened rfl, rfl⟩
        · split
          · exact ⟨rfl, opened rfl, rfl⟩
          · exact ⟨rfl, opened rfl, rfl⟩
  | sqlite session => exact .same _
  | zip number archive => exact .same _
  | directory archive => exact .same _

/-- The begin of a batch lists nothing. -/
theorem goesOn_beginBatch (archive : Archive) :
    archive.GoesOn archive.catalog archive.beginBatch.2 := by
  cases archive with
  | sqlite session =>
    rw [beginBatch]
    dsimp only
    unfold Sqlite.Session.beginBatch Sqlite.Archive.beginBatch
    by_cases closed : session.archive.closed
    · rw [if_pos closed]
      exact .same _
    · rw [if_neg closed]
      by_cases begins : session.archive.mode.canWrite ∧ session.archive.batch = .idle
      · rw [if_pos begins]
        exact ⟨rfl, rfl, rfl⟩
      · rw [if_neg begins]
        exact .same _
  | tar | zip | directory => exact .same _

/-- The end of a batch lists nothing. -/
theorem goesOn_endBatch (archive : Archive) (volume : Volume) :
    archive.GoesOn archive.catalog (archive.endBatch volume).2.1 := by
  cases archive with
  | tar number archive =>
    rw [endBatch]
    dsimp only
    unfold Tar.Archive.endBatch
    cases channel : archive.channel with
    | closed => exact .same _
    | reader => exact .same _
    | writer writer => exact ⟨rfl, by simp [requireOpen, Tar.Archive.requireOpen, channel], rfl⟩
  | sqlite session =>
    rw [endBatch]
    dsimp only
    unfold Sqlite.Session.endBatch Sqlite.Session.commit
    split
    · exact .same _
    · split
      · exact .same _
      · exact ⟨rfl, rfl, rfl⟩
      · exact .same _
      · split
        · exact ⟨rfl, rfl, rfl⟩
        · exact ⟨rfl, rfl, rfl⟩
  | zip number archive => exact .same _
  | directory archive => exact .same _

end Archive

end Trajectory
