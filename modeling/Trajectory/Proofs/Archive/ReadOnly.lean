import Trajectory.Proofs.Archive.Apart
/-!
# Archives that are only read

An archive that was opened for reading reads nothing but the contents of its file: a tar file the
places that the scan has found, a database the rows that are committed. No file is changed by that.
A connection that may change a database all the same removes what stands in the place of its
journal; any other leaves the volume as it is.
-/
namespace Trajectory

namespace Sqlite.Connection

variable {connection : Connection} {volume : Volume}

/-- A connection that may not change a database settles nothing. -/
theorem eq_of_settle {settled : Volume} (settles : connection.settle volume = .ok settled)
    (fixed : connection.writable = false) : settled = volume := by
  unfold settle at settles
  split at settles
  · exact (Except.ok.inj settles).symm
  · split at settles
    · split at settles
      · exact (Except.ok.inj settles).symm
      · contradiction
    · rw [fixed, if_neg Bool.false_ne_true] at settles
      split at settles
      · exact (Except.ok.inj settles).symm
      · contradiction
    · exact (Except.ok.inj settles).symm

/-- Looking at the rows removes at most a file, and nothing over a connection that may not change
them. -/
theorem pruned_look (connection : Connection) (volume : Volume) (table : String) :
    volume.Pruned (connection.look volume table).2 ∧
      (connection.writable = false → (connection.look volume table).2 = volume) := by
  rw [look]
  cases settles : connection.settle volume with
  | error error => exact ⟨.same, fun _ => rfl⟩
  | ok settled => exact ⟨pruned_of_settle settles, eq_of_settle settles⟩

end Sqlite.Connection

namespace Sqlite.Session

variable {session : Session} {volume : Volume} {path : String}

/-- A session without a batch reads in the rows that are committed. -/
theorem read_of_look (idle : session.archive.batch = .idle)
    (isOpen : session.archive.closed = false) {found : Except SqliteError Database}
    {settled : Volume} (looked : session.connection.look volume fileTable = (found, settled))
    (path : String) : session.read volume path =
      ((found.mapError .sqlite).bind (session.archive.read · path), settled) := by
  have unchanged : ¬ session.archive.batch.hasChanges = true := by
    rw [idle]
    exact Bool.false_ne_true
  rw [Session.read, isOpen, if_neg Bool.false_ne_true, committed, if_neg unchanged, looked]
  cases found <;> rfl

/-- A session without a batch removes at most a file when it reads, and nothing over a connection
that may not change it. -/
theorem pruned_read (idle : session.archive.batch = .idle) (volume : Volume) (path : String) :
    volume.Pruned (session.read volume path).2 ∧
      (session.connection.writable = false → (session.read volume path).2 = volume) := by
  cases closed : session.archive.closed with
  | true =>
    rw [Session.read, if_pos closed]
    exact ⟨.same, fun _ => rfl⟩
  | false =>
    rw [read_of_look idle closed (Prod.eta _).symm]
    exact session.connection.pruned_look volume fileTable

/-- Where a session without a batch can read a path, it reads every path in the rows of its file. -/
theorem read_eq_archive_read (idle : session.archive.batch = .idle) {contents : List UInt8}
    (found : (session.read volume path).1 = .ok contents) (other : String) :
    (session.read volume other).1 =
      session.archive.read (volume.content session.connection.number).rows other := by
  cases closed : session.archive.closed with
  | true =>
    rw [Session.read, if_pos closed] at found
    contradiction
  | false =>
    rcases looked : session.connection.look volume fileTable with ⟨error | rows, settled⟩
    · rw [read_of_look idle closed looked] at found
      contradiction
    · rw [read_of_look idle closed looked, Connection.content_of_look looked]
      rfl

end Sqlite.Session

namespace Archive

variable {archive after : Archive} {volume : Volume} {path : String}

/-- An archive is only read. A tar file is used for reading, and a database has no batch. -/
def ReadOnly (archive : Archive) : Prop :=
  match archive with
  | tar _ inner => inner.mode = .read ∧ inner.channel = .reader
  | sqlite session => session.archive.mode = .read ∧ session.archive.batch = .idle
  | zip _ _ | directory _ => True

/-- What an archive that is only read gives for a path, by the contents of its file. -/
def glimpse (archive : Archive) (content : Content) (path : String) :
    Except ArchiveError (List UInt8) :=
  match archive with
  | tar _ inner => Tar.Archive.glance inner.catalog content.toBytes path
  | sqlite session => session.archive.read content.rows path
  | zip _ inner => inner.read content.toBytes path
  | directory _ => .ok []

/-- Whether an archive may settle what stands in the place of its journal when it is read. -/
def settles (archive : Archive) : Bool :=
  match archive with
  | sqlite session => session.connection.writable
  | tar _ _ | zip _ _ | directory _ => false

/-- An archive reads as another in the same file. -/
structure ReadsAs (after archive : Archive) : Prop where
  /-- It is only read. -/
  readOnly : after.ReadOnly
  /-- It is in the same file. -/
  number? : after.number? = archive.number?
  /-- It gives the same. -/
  glimpse : after.glimpse = archive.glimpse
  /-- It settles a journal if the other does. -/
  settles : after.settles = archive.settles

/-- An archive that is opened for reading is only read. -/
theorem Opened.readOnly {file : String} {sizes : PieceSizes} {kind : ArchiveKind} {left : Volume}
    (opened : Opened volume file .read sizes kind archive left) : archive.ReadOnly := by
  have reads : effectiveMode volume file .read = .read := rfl
  cases opened with
  | newTar writes =>
    rw [reads] at writes
    contradiction
  | oldTar keeps found opened =>
    rw [archive_of_openExisting opened, reads]
    exact ⟨rfl, rfl⟩
  | database pruned started =>
    obtain ⟨connection, between, rows, -, -, rfl⟩ := Sqlite.Session.start_cases started
    exact ⟨rfl, rfl⟩
  | newZip | oldZip | folder => trivial

namespace ReadOnly

/-- An archive that is only read and keeps ledgers can be read. -/
theorem mode_ne (readOnly : archive.ReadOnly) {told kept : Ledger}
    (keeps : archive.Keeps volume told kept) : archive.mode ≠ .write := by
  have reads : archive.mode = .read := by
    cases keeps with
    | writing | reading | database => exact readOnly.1
  rw [reads]
  decide

/-- A write leaves an archive that is only read so. -/
theorem write (readOnly : archive.ReadOnly) (request : Request) (libraries : Libraries) :
    (archive.write volume request libraries).2.1.ReadOnly := by
  cases archive with
  | tar number inner =>
    rw [Archive.write, Tar.Archive.write_of_channel readOnly.2]
    exact readOnly
  | sqlite session =>
    obtain ⟨error, refused, -⟩ := Sqlite.Session.write_of_read readOnly.1 volume libraries.engine
      request.path request.contents request.compression
    rw [Archive.write, refused]
    exact readOnly
  | zip | directory => trivial

/-- A read leaves an archive that is only read as it is, but for a cursor. -/
theorem readsAs (readOnly : archive.ReadOnly) (volume : Volume) (path : String) :
    (archive.read volume path).2.1.ReadsAs archive := by
  cases archive with
  | tar number inner =>
    obtain ⟨inPlace, answered⟩ := Tar.Archive.read_of_channel readOnly.2 (volume.bytes number) path
    rw [Archive.read, answered]
    exact ⟨readOnly, rfl, rfl, rfl⟩
  | sqlite | zip | directory => exact ⟨readOnly, rfl, rfl, rfl⟩

/-- The begin of a batch leaves an archive that is only read as it is. -/
theorem beginBatch (readOnly : archive.ReadOnly) : archive.beginBatch.2.ReadOnly := by
  cases archive with
  | sqlite session =>
    rw [Archive.beginBatch]
    dsimp only
    rw [Sqlite.Session.beginBatch_of_read readOnly.1]
    exact readOnly
  | tar | zip | directory => exact readOnly

/-- The end of a batch leaves an archive that is only read as it is. -/
theorem endBatch (readOnly : archive.ReadOnly) : (archive.endBatch volume).2.1.ReadOnly := by
  cases archive with
  | tar number inner =>
    rw [Archive.endBatch, Tar.Archive.endBatch, readOnly.2]
    exact readOnly
  | sqlite session =>
    obtain ⟨result, ended⟩ := Sqlite.Session.endBatch_of_idle readOnly.2 volume
    rw [Archive.endBatch, ended]
    exact readOnly
  | zip | directory => exact readOnly

/-- A read removes at most a file, and nothing unless a journal may be settled. -/
theorem pruned_read (readOnly : archive.ReadOnly) (volume : Volume) (path : String) :
    volume.Pruned (archive.read volume path).2.2 ∧
      (archive.settles = false → (archive.read volume path).2.2 = volume) := by
  cases archive with
  | tar number inner =>
    obtain ⟨inPlace, answered⟩ := Tar.Archive.read_of_channel readOnly.2 (volume.bytes number) path
    rw [Archive.read, answered]
    dsimp only
    rw [volume.setBytes_bytes]
    exact ⟨.same, fun _ => rfl⟩
  | sqlite session =>
    exact Sqlite.Session.pruned_read readOnly.2 volume path
  | zip | directory => exact ⟨.same, fun _ => rfl⟩

/-- Where a path can be read, every path reads as the contents of the file tell. -/
theorem read_eq_glimpse (readOnly : archive.ReadOnly) {number : Nat}
    (at_file : archive.number? = some number) {contents : List UInt8}
    (found : (archive.read volume path).1 = .ok contents) (other : String) :
    (archive.read volume other).1 = archive.glimpse (volume.content number) other := by
  cases archive with
  | tar number inner =>
    obtain rfl := Option.some.inj at_file
    obtain ⟨inPlace, answered⟩ := Tar.Archive.read_of_channel readOnly.2 (volume.bytes number) other
    rw [Archive.read, answered]
    rfl
  | sqlite session =>
    obtain rfl := Option.some.inj at_file
    exact Sqlite.Session.read_eq_archive_read readOnly.2 found other
  | zip number inner =>
    obtain rfl := Option.some.inj at_file
    rfl
  | directory inner => contradiction

end ReadOnly

end Archive

end Trajectory
