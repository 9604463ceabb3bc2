import Trajectory.Proofs.Archive.Calls
import Trajectory.Proofs.Archive.ReadOnly
/-!
# Reading changes nothing

An archive that was opened for reading changes no file, refuses every write, and answers every call
as it did at first until it is closed. It leaves the whole volume as it is, and so does opening it,
also where that fails, unless the name of a database grants more than to read: a setting can keep
the database in memory, and from there a later one can go on to any other grant.
-/
namespace Trajectory

/-- Nothing was made, removed or changed on a volume. A database in memory may have come and gone,
which leaves a file without a name. -/
structure Volume.Unchanged (volume after : Volume) : Prop where
  /-- The same names stand for the same files. -/
  nodes : after.nodes = volume.nodes
  /-- The files have the same contents. -/
  files : volume.files <+: after.files
  /-- The same files are held. -/
  held : after.held = volume.held

/-- A volume is unchanged when nothing was done. -/
theorem Volume.Unchanged.refl (volume : Volume) : volume.Unchanged volume :=
  ⟨rfl, List.prefix_rfl, rfl⟩

namespace Sqlite

/-- Whether a name grants more than to read to one who only asks to read. -/
def Name.exceedsRead (file : String) : Bool :=
  match ofText .read file with
  | .ok name => name.grant ≠ .read && !name.isApart
  | .error _ => false

namespace Connection

variable {volume after : Volume} {file : String}

/-- Where no connection is made, nothing was done. -/
theorem volume_of_start_error {mode : Access} {error : SqliteError}
    (failed : start volume file mode = (.error error, after)) : after = volume := by
  have of_openFile {name : Name} (failed : openFile volume file name = (.error error, after)) :
      after = volume := by
    unfold openFile at failed
    dsimp only at failed
    rw [← homeOf] at failed
    split at failed
    · exact (Prod.mk.inj failed).2.symm
    · split at failed
      · simp at failed
      · exact (Prod.mk.inj failed).2.symm
      · split at failed
        · split at failed
          · simp at failed
          · exact (Prod.mk.inj failed).2.symm
        · exact (Prod.mk.inj failed).2.symm
  unfold start at failed
  split at failed
  · exact (Prod.mk.inj failed).2.symm
  · split at failed
    · exact (Prod.mk.inj failed).2.symm
    · split at failed
      · simp at failed
      · exact of_openFile failed

/-- Connecting makes at most an empty file. -/
theorem files_start (volume : Volume) (file : String) (mode : Access) :
    volume.files <+: (start volume file mode).2.files := by
  rcases started : start volume file mode with ⟨result, after⟩
  cases result with
  | ok connection =>
    obtain ⟨-, name, -, ⟨-, -, new⟩ | ⟨-, -, -, new | ⟨place, -, rfl⟩⟩⟩ := start_cases started
    · exact new.2 ▸ List.prefix_append _ _
    · exact new.2 ▸ List.prefix_append _ _
    · exact List.prefix_rfl
  | error error => exact volume_of_start_error started ▸ List.prefix_rfl

/-- A name that grants no more than to read connects to a file that is there, which may not be
changed, or to a database in memory. -/
theorem start_reading {connection : Connection} (reads : Name.exceedsRead file = false)
    (started : start volume file .read = (.ok connection, after)) :
    after = volume ∧ connection.writable = false ∨
      after = volume.addUnnamed.2 ∧ connection.number = volume.files.length ∧
        connection.home = none := by
  unfold start at started
  unfold Name.exceedsRead at reads
  split at started
  · simp at started
  · split at started
    · simp at started
    · next name named =>
      rw [named] at reads
      dsimp only at reads
      split at started
      · obtain ⟨same, rfl⟩ := Prod.mk.inj started
        obtain rfl := Except.ok.inj same
        exact .inr ⟨rfl, rfl, rfl⟩
      · next at_path =>
        have grant : name.grant = .read := by simpa [at_path] using reads
        unfold openFile at started
        dsimp only at started
        rw [← homeOf, grant] at started
        split at started
        · simp at started
        · split at started
          · obtain ⟨same, rfl⟩ := Prod.mk.inj started
            exact .inl ⟨rfl, (Except.ok.inj same).symm ▸ rfl⟩
          · simp at started
          · simp at started

/-- There are no tables in a database in memory that was just made. -/
theorem look_unnamed (volume : Volume) {connection : Connection}
    (number : connection.number = volume.files.length) (home : connection.home = none)
    (table : String) :
    connection.look volume.addUnnamed.2 table =
      (.error (.noTable table), volume.addUnnamed.2) := by
  have settles : connection.settle volume.addUnnamed.2 = .ok volume.addUnnamed.2 := by
    rw [settle, home]
    split <;> rfl
  have blank : volume.addUnnamed.2.content connection.number = .bytes [] := by
    simp [Volume.content, Volume.addUnnamed, number]
  rw [look, settles]
  dsimp only
  rw [rows, blank]
  rfl

end Connection

namespace Session

variable {volume : Volume} {file : String} {sizes : PieceSizes}

/-- A session that is opened for reading looks at the rows of its connection. -/
theorem start_read (volume : Volume) (file : String) (sizes : PieceSizes) :
    start volume file .read sizes =
      match Connection.start volume file .read with
      | (.error error, after) => (.error error, after)
      | (.ok connection, after) =>
        ((connection.look after fileTable).1.map fun rows =>
          ⟨file, connection, .ofDatabase .read sizes rows⟩, (connection.look after fileTable).2) :=
  rfl

/-- Opening a session for reading changes no contents. -/
theorem files_start (volume : Volume) (file : String) (sizes : PieceSizes) :
    volume.files <+: (start volume file .read sizes).2.files := by
  have made := Connection.files_start volume file .read
  rw [start_read]
  rcases started : Connection.start volume file .read with ⟨error | connection, after⟩
  · rwa [started] at made
  · dsimp only
    rw [connection.files_of_look]
    rwa [started] at made

/-- A session that is opened by a name that grants no more than to read cannot change its file,
and nothing was done to open it, or to fail. -/
theorem start_reading (reads : Name.exceedsRead file = false) :
    volume.Unchanged (start volume file .read sizes).2 ∧
      ∀ session, (start volume file .read sizes).1 = .ok session →
        (start volume file .read sizes).2 = volume ∧ session.connection.writable = false := by
  rw [start_read]
  rcases started : Connection.start volume file .read with ⟨error | connection, after⟩
  · rw [Connection.volume_of_start_error started]
    exact ⟨.refl volume, fun _ opened => by contradiction⟩
  · dsimp only
    rcases Connection.start_reading reads started with ⟨rfl, fixed⟩ | ⟨rfl, number, home⟩
    · rw [(connection.pruned_look after fileTable).2 fixed]
      refine ⟨.refl after, fun session opened => ⟨rfl, ?_⟩⟩
      cases found : (connection.look after fileTable).1 with
      | error error => simp [found, Except.map] at opened
      | ok rows =>
        rw [found] at opened
        exact Except.ok.inj opened ▸ fixed
    · rw [Connection.look_unnamed volume number home]
      exact ⟨⟨rfl, List.prefix_append _ _, rfl⟩, fun _ opened => by contradiction⟩

end Session

end Sqlite

namespace Tar.Archive

variable {archive : Archive}

/-- A closed archive refuses to be written. -/
theorem write_of_closed (channel : archive.channel = .closed) (file : List UInt8) (time : Nat)
    (path : String) (contents : List UInt8) (immediate : Bool) :
    archive.write file time path contents immediate =
      (.error .closed, { archive with inPlace := false }, file) := by
  obtain ⟨mode, use, catalog, stop, standing⟩ := archive
  obtain rfl : use = .closed := channel
  rfl

end Tar.Archive

/-- An archive in a zip file that was opened for reading refuses to be written. -/
theorem Zip.Archive.write_of_read {archive : Zip.Archive} (mode : archive.mode = .read)
    (deflater : Deflate.Deflater) (file : List UInt8) (path : String) (contents : List UInt8)
    (compression : Compression) :
    ∃ error, archive.write deflater file path contents compression =
        (.error error, archive, file) ∧
      (archive.closed = false → error = .invalidMode .readOnly) := by
  rw [write, if_pos mode]
  cases archive.closed with
  | true => exact ⟨_, rfl, fun isOpen => by contradiction⟩
  | false => exact ⟨_, rfl, fun _ => rfl⟩

namespace Archive

/-- An archive that was opened for reading: nothing is pending, also where it was closed. -/
def Frozen (archive : Archive) : Prop :=
  match archive with
  | tar _ inner => inner.channel = .reader ∨ inner.channel = .closed
  | sqlite session => session.archive.mode = .read ∧ session.archive.batch = .idle
  | zip _ inner => inner.mode = .read ∧ inner.session = none
  | directory inner => inner.mode = .read

/-- An archive with the cursor of its tar file in another place. -/
def moved (archive : Archive) (inPlace : Bool) : Archive :=
  match archive with
  | tar number inner => tar number { inner with inPlace := inPlace }
  | other => other

/-- An archive is itself with its cursor where it is. -/
theorem eq_moved (archive : Archive) : ∃ inPlace, archive = archive.moved inPlace := by
  cases archive with
  | tar number inner => exact ⟨inner.inPlace, rfl⟩
  | sqlite | zip | directory => exact ⟨true, rfl⟩

/-- Only the last place of a cursor matters. -/
theorem moved_moved (archive : Archive) (first second : Bool) :
    (archive.moved first).moved second = archive.moved second := by
  cases archive <;> rfl

/-- Moving a cursor lists nothing. -/
theorem known_moved (archive : Archive) (inPlace : Bool) :
    (archive.moved inPlace).known = archive.known := by
  cases archive <;> rfl

/-- Moving a cursor settles no journal. -/
theorem settles_moved (archive : Archive) (inPlace : Bool) :
    (archive.moved inPlace).settles = archive.settles := by
  cases archive <;> rfl

/-- Moving a cursor closes nothing. -/
theorem requireOpen_moved (archive : Archive) (inPlace : Bool) :
    (archive.moved inPlace).requireOpen = archive.requireOpen := by
  cases archive <;> rfl

namespace Frozen

variable {archive : Archive} {volume : Volume}

/-- A cursor that is moved leaves an archive frozen. -/
theorem moved (frozen : archive.Frozen) (inPlace : Bool) : (archive.moved inPlace).Frozen := by
  cases archive <;> exact frozen

/-- A write is refused, and changes nothing. -/
theorem write (frozen : archive.Frozen) (libraries : Libraries) (volume : Volume)
    (request : Request) :
    ∃ error inPlace,
      archive.write volume request libraries = (.error error, archive.moved inPlace, volume) ∧
      (archive.requireOpen = .ok () → error = .invalidMode .readOnly) := by
  cases archive with
  | tar number inner =>
    rw [Archive.write]
    rcases frozen with channel | channel
    · rw [Tar.Archive.write_of_channel channel]
      dsimp only
      rw [volume.setBytes_bytes]
      exact ⟨_, false, rfl, fun _ => rfl⟩
    · rw [Tar.Archive.write_of_closed channel]
      dsimp only
      rw [volume.setBytes_bytes]
      refine ⟨_, false, rfl, fun isOpen => ?_⟩
      rw [requireOpen, Tar.Archive.requireOpen, if_pos channel] at isOpen
      contradiction
  | sqlite session =>
    obtain ⟨error, refused, readOnly⟩ := Sqlite.Session.write_of_read frozen.1 volume
      libraries.engine request.path request.contents request.compression
    rw [Archive.write, refused]
    exact ⟨error, true, rfl, fun isOpen =>
      readOnly (Sqlite.Session.isOpen_of_requireOpen isOpen)⟩
  | zip number inner =>
    obtain ⟨error, refused, open_error⟩ :=
      Zip.Archive.write_of_read frozen.1 libraries.deflater (volume.bytes number) request.path
        request.contents request.compression
    rw [Archive.write, refused]
    dsimp only
    rw [volume.setBytes_bytes]
    refine ⟨error, true, rfl, fun isOpen => open_error ?_⟩
    rw [requireOpen, Zip.Archive.requireOpen] at isOpen
    split at isOpen
    · contradiction
    · next closed => exact eq_false_of_ne_true closed
  | directory inner =>
    rw [Archive.write, Directory.Archive.write, frozen]
    cases closed : inner.closed with
    | true =>
      refine ⟨.closed, true, rfl, fun isOpen => ?_⟩
      rw [requireOpen, Directory.Archive.requireOpen, closed] at isOpen
      contradiction
    | false => exact ⟨_, true, rfl, fun _ => rfl⟩

/-- A read moves at most a cursor and removes at most a journal. -/
theorem read (frozen : archive.Frozen) (volume : Volume) (path : String) :
    ∃ result inPlace left, archive.read volume path = (result, archive.moved inPlace, left) ∧
      left.files = volume.files ∧ (archive.settles = false → left = volume) := by
  cases archive with
  | tar number inner =>
    rw [Archive.read]
    rcases frozen with channel | channel
    · obtain ⟨inPlace, answered⟩ := Tar.Archive.read_of_channel channel (volume.bytes number) path
      rw [answered]
      dsimp only
      rw [volume.setBytes_bytes]
      exact ⟨_, inPlace, volume, rfl, rfl, fun _ => rfl⟩
    · rw [Tar.Archive.read, channel]
      dsimp only
      rw [volume.setBytes_bytes]
      exact ⟨_, inner.inPlace, volume, rfl, rfl, fun _ => rfl⟩
  | sqlite session =>
    have pruned := Sqlite.Session.pruned_read frozen.2 volume path
    exact ⟨_, true, _, rfl, pruned.1.frame.1, pruned.2⟩
  | zip number inner => exact ⟨_, true, volume, rfl, rfl, fun _ => rfl⟩
  | directory inner => exact ⟨_, true, volume, rfl, rfl, fun _ => rfl⟩

/-- The begin of a batch changes nothing. -/
theorem beginBatch (frozen : archive.Frozen) : archive.beginBatch.2 = archive := by
  cases archive with
  | sqlite session =>
    rw [Archive.beginBatch]
    dsimp only
    rw [Sqlite.Session.beginBatch_of_read frozen.1]
  | tar | zip | directory => rfl

/-- The end of a batch changes nothing. -/
theorem endBatch (frozen : archive.Frozen) (volume : Volume) :
    (archive.endBatch volume).2 = (archive, volume) := by
  cases archive with
  | tar number inner =>
    have same : ∃ result, inner.endBatch (volume.bytes number) =
        (result, inner, volume.bytes number) := by
      unfold Tar.Archive.endBatch
      rcases frozen with channel | channel
      · rw [channel]
        exact ⟨_, rfl⟩
      · rw [channel]
        exact ⟨_, rfl⟩
    obtain ⟨result, ended⟩ := same
    rw [Archive.endBatch, ended]
    dsimp only
    rw [volume.setBytes_bytes]
  | sqlite session =>
    obtain ⟨result, ended⟩ := Sqlite.Session.endBatch_of_idle frozen.2 volume
    rw [Archive.endBatch, ended]
  | zip | directory => rfl

/-- Closing succeeds, and changes nothing but the archive. -/
theorem close (frozen : archive.Frozen) (volume : Volume) :
    ∃ after, archive.close volume = (.ok (), after, volume) ∧ after.Frozen ∧
      after.settles = archive.settles := by
  cases archive with
  | tar number inner =>
    have same : inner.close (volume.bytes number) =
        ({ inner with channel := .closed }, volume.bytes number) := by
      unfold Tar.Archive.close
      rcases frozen with channel | channel
      · rw [channel]
      · rw [channel]
    rw [Archive.close, same]
    dsimp only
    rw [volume.setBytes_bytes]
    exact ⟨_, rfl, .inr rfl, rfl⟩
  | sqlite session =>
    rw [Archive.close, Sqlite.Session.close, Sqlite.Session.commit, frozen.2]
    cases closed : session.archive.closed with
    | true => exact ⟨_, rfl, frozen, rfl⟩
    | false => exact ⟨_, rfl, ⟨frozen.1, frozen.2⟩, rfl⟩
  | zip number inner =>
    rw [Archive.close, Zip.Archive.close, frozen.2]
    dsimp only
    rw [volume.setBytes_bytes]
    exact ⟨_, rfl, ⟨frozen.1, rfl⟩, rfl⟩
  | directory inner => exact ⟨_, rfl, frozen, rfl⟩

/-- Giving an archive up changes nothing. -/
theorem giveUp (frozen : archive.Frozen) (volume : Volume) :
    (archive.giveUp volume).2 = volume := by
  obtain ⟨after, closed, -⟩ := frozen.close volume
  unfold Archive.giveUp
  rw [closed]

/-- Every call leaves an archive frozen that is, and all contents; the volume stays what it is
unless a journal may be settled, and the archive, but for a cursor, unless it is closed. -/
theorem perform (frozen : archive.Frozen) (libraries : Libraries) (volume : Volume)
    (call : Call) :
    ∃ answer after left,
      archive.perform libraries volume call = (answer, after, left) ∧ after.Frozen ∧
      after.settles = archive.settles ∧ left.files = volume.files ∧
      (archive.settles = false → left = volume) ∧
      (call ≠ .close → ∃ inPlace, after = archive.moved inPlace) := by
  cases call with
  | write request =>
    obtain ⟨error, inPlace, refused, -⟩ := frozen.write libraries volume request
    rw [Archive.perform, refused]
    exact ⟨_, _, _, rfl, frozen.moved inPlace, archive.settles_moved inPlace, rfl, fun _ => rfl,
      fun _ => ⟨inPlace, rfl⟩⟩
  | read path =>
    obtain ⟨result, inPlace, left, answered, files, same⟩ := frozen.read volume path
    rw [Archive.perform, answered]
    exact ⟨_, _, _, rfl, frozen.moved inPlace, archive.settles_moved inPlace, files, same,
      fun _ => ⟨inPlace, rfl⟩⟩
  | beginBatch =>
    rw [Archive.perform, frozen.beginBatch]
    exact ⟨_, _, _, rfl, frozen, rfl, rfl, fun _ => rfl, fun _ => archive.eq_moved⟩
  | endBatch =>
    rw [Archive.perform, Prod.map, frozen.endBatch]
    exact ⟨_, _, _, rfl, frozen, rfl, rfl, fun _ => rfl, fun _ => archive.eq_moved⟩
  | size => exact ⟨_, _, _, rfl, frozen, rfl, rfl, fun _ => rfl, fun _ => archive.eq_moved⟩
  | pathAt index =>
    exact ⟨_, _, _, rfl, frozen, rfl, rfl, fun _ => rfl, fun _ => archive.eq_moved⟩
  | close =>
    obtain ⟨after, closed, still, settles⟩ := frozen.close volume
    rw [Archive.perform, closed]
    exact ⟨_, _, _, rfl, still, settles, rfl, fun _ => rfl, fun other => absurd rfl other⟩

/-- Where the cursor is makes no difference to any answer. -/
theorem answer_moved (frozen : archive.Frozen) (inPlace : Bool) (libraries : Libraries)
    (volume : Volume) (call : Call) :
    ((archive.moved inPlace).perform libraries volume call).1 =
      (archive.perform libraries volume call).1 := by
  cases archive with
  | tar number inner =>
    obtain ⟨mode, channel, catalog, stop, standing⟩ := inner
    rcases frozen with (rfl : channel = .reader) | (rfl : channel = .closed)
    · cases call with
      | read path =>
        have answers (place : Bool) : ((tar number ⟨mode, .reader, catalog, stop, place⟩).perform
            libraries volume (.read path)).1 =
              .contents (Tar.Archive.glance catalog (volume.bytes number) path) := by
          have channel : (⟨mode, .reader, catalog, stop, place⟩ : Tar.Archive).channel = .reader :=
            rfl
          obtain ⟨after, answered⟩ :=
            Tar.Archive.read_of_channel channel (volume.bytes number) path
          rw [Archive.perform, Archive.read, answered]
          rfl
        exact (answers inPlace).trans (answers standing).symm
      | write | beginBatch | endBatch | size | pathAt | close => rfl
    · cases call <;> rfl
  | sqlite | zip | directory => rfl

/-- Whatever is called, an archive that is frozen stays so and no contents change; nothing changes
at all unless a journal may be settled. -/
theorem run (frozen : archive.Frozen) (libraries : Libraries) (volume : Volume)
    (calls : List Call) :
    let ended := archive.run libraries volume calls
    ended.1.Frozen ∧ ended.1.settles = archive.settles ∧ ended.2.files = volume.files ∧
      (archive.settles = false → ended.2 = volume) ∧
      (.close ∉ calls → ∃ inPlace, ended.1 = archive.moved inPlace) := by
  induction calls generalizing archive volume with
  | nil => exact ⟨frozen, rfl, rfl, fun _ => rfl, fun _ => archive.eq_moved⟩
  | cons call later ih =>
    obtain ⟨answer, after, left, performed, still, settles, files, same, moved⟩ :=
      frozen.perform libraries volume call
    obtain ⟨frozen, rest, others, further, goes⟩ := ih still left
    rw [Archive.run, performed]
    refine ⟨frozen, rest.trans settles, others.trans files, fun fixed => ?_, fun unclosed => ?_⟩
    · exact (further (settles.trans fixed)).trans (same fixed)
    · rw [List.mem_cons, not_or] at unclosed
      obtain ⟨first, rfl⟩ := moved (Ne.symm unclosed.1)
      obtain ⟨second, there⟩ := goes unclosed.2
      exact ⟨second, there.trans (archive.moved_moved first second)⟩

end Frozen

/-- Whether the name of a container grants more than to read to one who only asks to read. -/
def exceedsRead (kind : ArchiveKind) (file : String) : Bool :=
  match kind with
  | .sqlite => Sqlite.Name.exceedsRead file
  | .tar | .zip | .directory | .hdf5 => false

/-- What comes of opening a container for reading: no contents change, and nothing at all where
the name grants no more than to read, also where that fails. What is opened is frozen, open, and
may settle a journal only where the name grants it. -/
structure OpenedToRead (kind : ArchiveKind) (volume : Volume) (file : String)
    (opening : Opening Archive) : Prop where
  /-- No contents change. -/
  files : volume.files <+: opening.volume.files
  /-- Nothing changes. -/
  unchanged : exceedsRead kind file = false → volume.Unchanged opening.volume
  /-- What is opened is frozen. -/
  frozen : ∀ archive, opening.result = .ok archive →
    archive.Frozen ∧ archive.requireOpen = .ok () ∧
      (exceedsRead kind file = false → opening.volume = volume ∧ archive.settles = false)

variable {volume : Volume} {file : String} {archive : Archive}

/-- A tar file is opened for reading without a change, to be read. -/
theorem openTar_read (volume : Volume) (file : String) :
    (openTar volume file .read).volume = volume ∧
      ∀ archive, (openTar volume file .read).result = .ok archive →
        archive.Frozen ∧ archive.settles = false := by
  have reads : effectiveMode volume file .read = .read := rfl
  rw [openTar, reads]
  dsimp only
  cases volume.openFile file with
  | error fault => exact ⟨rfl, fun _ opened => by contradiction⟩
  | ok number =>
    refine ⟨rfl, fun archive opened => ?_⟩
    dsimp only at opened
    cases result : (Tar.Archive.openExisting .read (volume.bytes number)).1 with
    | error error => simp [result, Except.map] at opened
    | ok inner =>
      rw [result] at opened
      obtain rfl := Except.ok.inj opened
      rw [Opened.archive_of_openExisting result]
      exact ⟨.inl rfl, rfl⟩

/-- A zip file is opened for reading without a change, to be read. -/
theorem openZip_read (volume : Volume) (file : String) :
    (openZip volume file .read).volume = volume ∧
      ∀ archive, (openZip volume file .read).result = .ok archive →
        archive.Frozen ∧ archive.settles = false := by
  have opening : openZip volume file .read = ⟨loadZip volume file .read, volume, none⟩ := rfl
  rw [opening]
  refine ⟨rfl, fun archive (loaded : loadZip volume file .read = .ok archive) => ?_⟩
  unfold loadZip at loaded
  split at loaded
  · contradiction
  · contradiction
  · split at loaded
    · contradiction
    · next inner opened =>
      obtain rfl := Except.ok.inj loaded
      unfold Zip.Archive.openExisting at opened
      split at opened
      · contradiction
      · split at opened
        · contradiction
        · exact Except.ok.inj opened ▸ ⟨⟨rfl, rfl⟩, rfl⟩

/-- A directory is opened for reading without a change, to be read. -/
theorem openRoot_read (volume : Volume) (file : String) :
    (Directory.openRoot volume file .read).2 = volume ∧
      ∀ archive, (Directory.openRoot volume file .read).1 = .ok archive →
        (directory archive).Frozen := by
  unfold Directory.openRoot
  dsimp only
  split
  · exact ⟨rfl, fun _ opened => by contradiction⟩
  · rw [if_pos (.inl rfl)]
    refine ⟨rfl, fun archive opened => ?_⟩
    dsimp only at opened
    split at opened
    · exact Except.ok.inj opened ▸ rfl
    · contradiction

/-- A database is opened for reading by a session that was started. -/
theorem session_of_openSqlite_read {sizes : PieceSizes}
    (opened : (openSqlite volume file .read sizes).result = .ok archive) :
    ∃ session, archive = sqlite session ∧
      (Sqlite.Session.start volume file .read sizes).1 = .ok session := by
  have result : ((Sqlite.Session.start volume file .read sizes).1.map sqlite).mapError
      ArchiveError.sqlite = .ok archive := opened
  cases started : (Sqlite.Session.start volume file .read sizes).1 with
  | error error => simp [started, Except.map, Except.mapError] at result
  | ok session =>
    rw [started] at result
    exact ⟨session, (Except.ok.inj result).symm, rfl⟩

/-- Opening that does nothing to the volume leaves it, and gives what can only be read. -/
theorem OpenedToRead.of_same {kind : ArchiveKind} {opening : Opening Archive}
    (same : opening.volume = volume) (isOpen : ∀ archive, opening.result = .ok archive →
      archive.requireOpen = .ok ())
    (frozen : ∀ archive, opening.result = .ok archive →
      archive.Frozen ∧ archive.settles = false) : OpenedToRead kind volume file opening where
  files := ⟨[], by rw [same, List.append_nil]⟩
  unchanged _ := by
    rw [same]
    exact .refl volume
  frozen archive result := by
    obtain ⟨still, settles⟩ := frozen archive result
    exact ⟨still, isOpen archive result, fun _ => ⟨same, settles⟩⟩

/-- What opening a container for reading leaves, and what it gives. -/
theorem openedToRead (kind : ArchiveKind) (volume : Volume) (file : String) (sizes : PieceSizes) :
    OpenedToRead kind volume file (openAs kind volume file .read sizes) := by
  have isOpen (archive : Archive)
      (result : (openAs kind volume file .read sizes).result = .ok archive) :
      archive.requireOpen = .ok () := (opened_of_result result).requireOpen
  cases kind with
  | tar =>
    obtain ⟨same, frozen⟩ := openTar_read volume file
    exact .of_same same isOpen frozen
  | zip =>
    obtain ⟨same, frozen⟩ := openZip_read volume file
    exact .of_same same isOpen frozen
  | directory =>
    obtain ⟨same, frozen⟩ := openRoot_read volume file
    refine .of_same same isOpen fun archive result => ?_
    cases found : (Directory.openRoot volume file .read).1 with
    | error error => simp [openAs, found, Except.map] at result
    | ok inner =>
      have opened : archive = directory inner := by
        simpa [openAs, found, Except.map] using result.symm
      exact opened ▸ ⟨frozen inner found, rfl⟩
  | hdf5 => exact .of_same rfl isOpen fun _ opened => by contradiction
  | sqlite =>
    have files := Sqlite.Session.files_start volume file sizes
    have reading (reads : exceedsRead .sqlite file = false) :=
      @Sqlite.Session.start_reading volume file sizes reads
    refine ⟨files, fun reads => (reading reads).1, fun archive result => ?_⟩
    obtain ⟨session, rfl, started⟩ := session_of_openSqlite_read result
    obtain ⟨connection, between, rows, -, -, made⟩ :=
      Sqlite.Session.start_cases (Prod.ext started rfl)
    exact ⟨made ▸ ⟨rfl, rfl⟩, isOpen _ result, fun reads => (reading reads).2 session started⟩

/-- Opening a container for reading changes no contents, and neither does anything that is called
then. Every write is refused and lists nothing until the archive is closed. Where the name grants
no more than to read, nothing on the volume changes at all: not by opening, also where that fails,
not by any calls, and not when the archive is given up; and until it is closed every call is
answered as it was at first. -/
theorem reading_changes_nothing (libraries : Libraries) (kind : ArchiveKind) (volume : Volume)
    (file : String) (sizes : PieceSizes) :
    let opening := openAs kind volume file .read sizes
    volume.files <+: opening.volume.files ∧
      (exceedsRead kind file = false → volume.Unchanged opening.volume) ∧
      ∀ archive, opening.result = .ok archive → ∀ calls,
        let after := (archive.run libraries opening.volume calls).1
        let left := (archive.run libraries opening.volume calls).2
        left.files = opening.volume.files ∧
          (.close ∉ calls → after.known = archive.known ∧
            ∀ request, (after.perform libraries left (.write request)).1 =
              .done (.error (.invalidMode .readOnly))) ∧
          (exceedsRead kind file = false → left = volume ∧ (after.giveUp left).2 = volume ∧
            (.close ∉ calls → ∀ call,
              (after.perform libraries left call).1 =
                (archive.perform libraries volume call).1)) := by
  intro opening
  obtain ⟨files, unchanged, opened⟩ := openedToRead kind volume file sizes
  refine ⟨files, unchanged, fun archive result calls => ?_⟩
  obtain ⟨frozen, isOpen, untouched⟩ := opened archive result
  obtain ⟨still, settles, contents, same, goes⟩ := frozen.run libraries opening.volume calls
  refine ⟨contents, fun unclosed => ?_, fun reads => ?_⟩
  · obtain ⟨inPlace, there⟩ := goes unclosed
    refine ⟨there ▸ archive.known_moved inPlace, fun request => ?_⟩
    obtain ⟨error, place, refused, readOnly⟩ := still.write libraries
      (archive.run libraries opening.volume calls).2 request
    have stillOpen : (archive.run libraries opening.volume calls).1.requireOpen = .ok () := by
      rw [there, requireOpen_moved, isOpen]
    rw [perform, refused, readOnly stillOpen]
    rfl
  · obtain ⟨start, fixed⟩ := untouched reads
    have stays : (archive.run libraries opening.volume calls).2 = volume := (same fixed).trans start
    rw [stays]
    refine ⟨rfl, still.giveUp volume, fun unclosed call => ?_⟩
    obtain ⟨inPlace, there⟩ := goes unclosed
    rw [there]
    exact frozen.answer_moved inPlace libraries volume call

/-- A database that is opened for reading, called for whatever there is, and given up: its entry is
read as before. -/
theorem reading_changes_nothing_database :
    let rows : Sqlite.Database := ⟨[⟨"x", 2, 2, 0⟩], [⟨"x", [1, 2], 0⟩], by decide⟩
    let volume : Volume := ⟨[(["a.db"], .file 0)], [.database rows], [], 7⟩
    let calls : List Call := [.write ⟨"x", [3], .none, true⟩, .read "x", .beginBatch, .endBatch]
    ∃ archive, openAs .sqlite volume "a.db" .read ⟨0, 0⟩ = ⟨.ok archive, volume, none⟩ ∧
      let after := (archive.run .literal volume calls).1
      (archive.run .literal volume calls).2 = volume ∧
      (after.perform .literal volume (.write ⟨"x", [3], .none, true⟩)).1 =
        .done (.error (.invalidMode .readOnly)) ∧
      (after.perform .literal volume (.read "x")).1 = .contents (.ok [1, 2]) ∧
      (after.perform .literal volume .size).1 = .count (.ok 1) := by
  intro rows volume calls
  let archive : Archive := .sqlite ⟨"a.db", ⟨0, some "a.db", false⟩,
    ⟨.read, ⟨0, 0⟩, .ofNames ["x"], .idle, false⟩⟩
  have opened : openAs .sqlite volume "a.db" .read ⟨0, 0⟩ = ⟨.ok archive, volume, none⟩ := rfl
  obtain ⟨-, -, opens⟩ := reading_changes_nothing .literal .sqlite volume "a.db" ⟨0, 0⟩
  obtain ⟨-, unclosed, reads⟩ := opens archive (congrArg Opening.result opened) calls
  rw [opened] at unclosed reads
  obtain ⟨same, -, answers⟩ := reads (by decide +kernel)
  have no_close : Call.close ∉ calls := by simp [calls]
  rw [same] at unclosed answers
  refine ⟨archive, opened, same, (unclosed no_close).2 _, ?_, answers no_close .size⟩
  have found : (archive.read volume "x").1 = .ok [1, 2] := by decide +kernel
  exact (answers no_close (.read "x")).trans (congrArg Answer.contents found)

/-- A name that goes on from a database in memory to more than reading makes the file that it
could not open. -/
theorem reading_makes_file :
    let opening := openAs .sqlite (.empty 0) "file:x.sqlite?mode=memory&mode=rwc" .read ⟨0, 0⟩
    opening.result.toOption = none ∧
      opening.volume.nodes = [(["x.sqlite"], .file 0)] := by
  decide +kernel

end Archive

end Trajectory
