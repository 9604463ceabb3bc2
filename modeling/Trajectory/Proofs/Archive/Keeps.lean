import Trajectory.Proofs.Archive.Known
import Trajectory.Proofs.Archive.Opened
import Trajectory.Proofs.Tar.Growth
import Trajectory.Proofs.Tar.Spelling
import Trajectory.Proofs.Volume.Files
/-!
# Archives that keep ledgers

A tar file and a database keep two ledgers of what was written: what the archive knows and reads
while it is open, and what it will be opened to once it is closed. They differ only where the header
of a tar file spells a path otherwise than it was given. Every operation keeps them, closing leaves
the second on the volume, and opening again finds it.
-/
namespace Trajectory

namespace Tar.Archive

/-- What an archive that is only read gives for a path. -/
def glance (catalog : Catalog Extent) (file : List UInt8) (path : String) :
    Except ArchiveError (List UInt8) :=
  match catalog.get? path with
  | none => .ok []
  | some extent => (readExtent file extent).1.mapError .io

variable {archive : Archive}

/-- An archive that is only read gives what its catalog tells, and changes no byte. -/
theorem read_of_channel (channel : archive.channel = .reader) (file : List UInt8) (path : String) :
    ∃ inPlace, archive.read file path =
      (glance archive.catalog file path, { archive with inPlace := inPlace }, file) := by
  obtain ⟨mode, use, catalog, stop, standing⟩ := archive
  obtain rfl : use = .reader := channel
  rw [read, glance]
  dsimp only
  cases catalog.get? path with
  | none => exact ⟨standing, rfl⟩
  | some extent =>
    dsimp only
    rcases readExtent file extent with ⟨fault | contents, position⟩
    · exact ⟨standing, rfl⟩
    · exact ⟨false, rfl⟩

/-- An archive that is only read refuses to be written. -/
theorem write_of_channel (channel : archive.channel = .reader) (file : List UInt8) (time : Nat)
    (path : String) (contents : List UInt8) (immediate : Bool) :
    archive.write file time path contents immediate =
      (.error (.invalidMode .readOnly), { archive with inPlace := false }, file) := by
  obtain ⟨mode, use, catalog, stop, standing⟩ := archive
  obtain rfl : use = .reader := channel
  rfl

end Tar.Archive

namespace Archive

/-- The path under which an entry is found once the archive is opened again. -/
def spelled (archive : Archive) (path : String) : String :=
  match archive with
  | tar _ _ => Tar.Header.restored path
  | sqlite _ | zip _ _ | directory _ => path

/-- A path that the header of a tar file spells as it is, is spelled so in every archive. -/
theorem spelled_of_faithful {path : String} (faithful : Tar.Header.Faithful path)
    (archive : Archive) : archive.spelled path = path := by
  cases archive with
  | tar number inner => exact Tar.Header.restored_of_faithful faithful
  | sqlite | zip | directory => rfl

/-- An archive on a volume keeps what was told to it, and what there will be of it once it is
closed. -/
inductive Keeps (volume : Volume) : Archive → Ledger → Ledger → Prop where
  /-- A tar file that is written: it was intact, and the items that were taken follow. -/
  | writing {number : Nat} {archive : Tar.Archive} {mode : Access} {first data : List UInt8}
    {taken : List Tar.Item} {writer : Tar.BufferedWriter} (inside : number < volume.files.length)
    (content : volume.content number = .bytes data) (intact : Tar.Intact first)
    (grows : Tar.Course.Grows mode first ⟨archive, data, taken⟩ writer false) :
    Keeps volume (tar number archive) (Tar.stored first ++ taken.map Tar.Item.written)
      (Tar.stored first ++ taken.map fun item => item.spelled.written)
  /-- A tar file that is read. -/
  | reading {number : Nat} {archive : Tar.Archive} {data : List UInt8}
    (inside : number < volume.files.length) (content : volume.content number = .bytes data)
    (intact : Tar.Intact data) (mode : archive.mode = .read) (channel : archive.channel = .reader)
    (catalog : archive.catalog = (Tar.Archive.reading data).catalog) :
    Keeps volume (tar number archive) (Tar.stored data) (Tar.stored data)
  /-- A database. -/
  | database {session : Sqlite.Session} {earlier taken : Ledger}
    (keeps : session.Keeps volume earlier taken) :
    Keeps volume (sqlite session) (earlier ++ taken) (earlier ++ taken)

/-- What a tar file or a database leaves on a volume when it is closed. -/
inductive Rests (volume : Volume) : Archive → Ledger → Prop where
  /-- An intact tar file. -/
  | file {number : Nat} {archive : Tar.Archive} {data : List UInt8}
    (inside : number < volume.files.length) (content : volume.content number = .bytes data)
    (intact : Tar.Intact data) : Rests volume (tar number archive) (Tar.stored data)
  /-- Rows that represent the ledger, in a file that nobody holds. -/
  | rows {session : Sqlite.Session} {rows : Sqlite.Database} {ledger : Ledger}
    (idle : session.connection.Idle volume rows) (represents : rows.Represents ledger)
    (named : ∃ before mode after,
      Sqlite.Connection.start before session.file mode = (.ok session.connection, after)) :
    Rests volume (sqlite session) ledger

variable {archive : Archive} {volume : Volume} {told kept : Ledger}

namespace Keeps

/-- An archive that keeps ledgers is open. -/
theorem requireOpen (keeps : archive.Keeps volume told kept) : archive.requireOpen = .ok () := by
  cases keeps with
  | writing _ _ _ grows =>
    rw [Archive.requireOpen, Tar.Archive.requireOpen, grows.channel]
    rfl
  | reading _ _ _ _ channel =>
    rw [Archive.requireOpen, Tar.Archive.requireOpen, channel]
    rfl
  | database keeps =>
    rw [Archive.requireOpen, Sqlite.Archive.requireOpen, keeps.isOpen]
    rfl

/-- The paths that an archive knows are those told to it, each once. -/
theorem known_perm (keeps : archive.Keeps volume told kept) : archive.known.Perm told.byFirst := by
  cases keeps with
  | writing _ _ intact grows =>
    have names := grows.shows.names
    rw [Tar.filled_of_intact intact] at names
    exact .of_eq names
  | reading _ _ intact _ _ catalog =>
    rw [known, catalog]
    exact .of_eq (Tar.Archive.tracks_ofScan intact _ _).names
  | @database session earlier taken keeps =>
    rw [known, keeps.names]
    refine (List.perm_ext_iff_of_nodup (nodup_eraseDups _) (nodup_eraseDups _)).mpr fun path => ?_
    rw [List.mem_eraseDups, List.mem_eraseDups, Ledger.byLast, List.map_append]
    simp only [List.mem_append, List.mem_reverse, List.mem_eraseDups]

/-- A tar file knows the paths told to it in the order in which they were first told. -/
theorem known_eq {number : Nat} {inner : Tar.Archive}
    (keeps : (tar number inner).Keeps volume told kept) :
    (tar number inner).known = told.byFirst := by
  cases keeps with
  | writing _ _ intact grows =>
    have names := grows.shows.names
    rwa [Tar.filled_of_intact intact] at names
  | reading _ _ intact _ _ catalog =>
    rw [known, catalog]
    exact (Tar.Archive.tracks_ofScan intact _ _).names

/-- A session with an intact tar file goes on with any call. -/
theorem grows_call {archive : Tar.Archive} {mode : Access} {first data : List UInt8}
    {taken : List Tar.Item} {writer : Tar.BufferedWriter} (intact : Tar.Intact first)
    (grows : Tar.Course.Grows mode first ⟨archive, data, taken⟩ writer false) (call : Tar.Call) :
    ∃ after, (Tar.Course.call ⟨archive, data, taken⟩ call).Grows mode first after false := by
  obtain ⟨steady, found⟩ := grows.steady_of_intact intact [call]
  obtain ⟨after, grown⟩ := grows.run steady
  rw [found] at grown
  exact ⟨after, grown⟩

/-- A tar file that is written still is after its bytes have changed with a session. -/
theorem writing_setBytes {number : Nat} {archive : Tar.Archive} {mode : Access}
    {first before data : List UInt8} {taken : List Tar.Item} {writer : Tar.BufferedWriter}
    (inside : number < volume.files.length) (content : volume.content number = .bytes before)
    (intact : Tar.Intact first)
    (grows : Tar.Course.Grows mode first ⟨archive, data, taken⟩ writer false) :
    (tar number archive).Keeps (volume.setBytes number data)
      (Tar.stored first ++ taken.map Tar.Item.written)
      (Tar.stored first ++ taken.map fun item => item.spelled.written) := by
  refine .writing ?_ (Volume.content_setBytes inside content data) intact grows
  rw [(volume.frame_setBytes number data).2.2]
  exact inside

/-- A write adds to both ledgers, or it fails and they stay. -/
theorem write (keeps : archive.Keeps volume told kept) (libraries : Libraries)
    (request : Request) :
    let answer := archive.write volume request libraries
    (answer.1 = .ok () ∧ answer.2.1.Keeps answer.2.2 (told ++ [(request.path, request.contents)])
      (kept ++ [(archive.spelled request.path, request.contents)])) ∨
    (∃ error, answer.1 = .error error) ∧ answer.2.1.Keeps answer.2.2 told kept := by
  intro answer
  cases keeps with
  | @writing number archive mode first data taken writer inside content intact grows =>
    obtain ⟨after, grown⟩ := grows_call intact grows
      (.write ⟨request.path, request.contents, volume.clock⟩ request.immediate)
    simp only [Tar.Course.call] at grown
    have same : answer =
        let inner := archive.write data volume.clock request.path request.contents request.immediate
        (inner.1, tar number inner.2.1, volume.setBytes number inner.2.2) := by
      rw [← Volume.bytes_of_content content]
      rfl
    rw [same]
    generalize archive.write data volume.clock request.path request.contents request.immediate =
      inner at grown
    obtain ⟨result, next, bytes⟩ := inner
    cases result with
    | ok _ =>
      refine .inl ⟨rfl, ?_⟩
      have kept := writing_setBytes inside content intact grown
      rw [List.map_append, List.map_append, ← List.append_assoc, ← List.append_assoc] at kept
      exact kept
    | error error => exact .inr ⟨⟨error, rfl⟩, writing_setBytes inside content intact grown⟩
  | @reading number archive data inside content intact mode channel catalog =>
    have same : answer =
        (.error (.invalidMode .readOnly), tar number { archive with inPlace := false },
          volume) := by
      simp only [answer, Archive.write, Tar.Archive.write_of_channel channel, volume.setBytes_bytes]
    rw [same]
    exact .inr ⟨⟨_, rfl⟩, .reading inside content intact mode channel catalog⟩
  | @database session earlier taken keeps =>
    by_cases allowed : session.archive.mode ≠ .read ∧ session.connection.writable = true ∧
      session.archive.Takes libraries.engine (session.seen volume) request.path request.contents
        request.compression
    · obtain ⟨after, left, written, kept⟩ := keeps.write allowed.1 allowed.2.1 libraries.engine
        request.path request.contents request.compression allowed.2.2
      have same : answer = (.ok (), sqlite after, left) := by
        simp only [answer, Archive.write, written]
      rw [same, spelled, List.append_assoc]
      exact .inl ⟨rfl, .database kept⟩
    · obtain ⟨error, after, left, refused, kept⟩ := keeps.write_refused libraries.engine
        request.path request.contents request.compression allowed
      have same : answer = (.error error, sqlite after, left) := by
        simp only [answer, Archive.write, refused]
      rw [same]
      exact .inr ⟨⟨error, rfl⟩, .database kept⟩

/-- A read keeps the ledgers, and an archive that can be read gives the contents told last. -/
theorem read (keeps : archive.Keeps volume told kept) (path : String) :
    let answer := archive.read volume path
    answer.2.1.Keeps answer.2.2 told kept ∧
      (archive.mode ≠ .write → answer.1 = .ok (told.latest path)) := by
  intro answer
  cases keeps with
  | @writing number archive mode first data taken writer inside content intact grows =>
    obtain ⟨after, grown⟩ := grows_call intact grows (.read path)
    simp only [Tar.Course.call] at grown
    have same : answer =
        let inner := archive.read data path
        (inner.1, tar number inner.2.1, volume.setBytes number inner.2.2) := by
      rw [← Volume.bytes_of_content content]
      rfl
    rw [same]
    refine ⟨writing_setBytes inside content intact grown, fun readable => ?_⟩
    have contents := grows.read (grows.mode ▸ readable) (.inl intact) path
    rw [Tar.filled_of_intact intact] at contents
    exact contents
  | @reading number archive data inside content intact mode channel catalog =>
    obtain ⟨inPlace, answered⟩ := Tar.Archive.read_of_channel channel (volume.bytes number) path
    have same : answer = (Tar.Archive.glance archive.catalog data path,
        tar number { archive with inPlace := inPlace }, volume) := by
      rw [← Volume.bytes_of_content content]
      simp only [answer, Archive.read, answered, volume.setBytes_bytes]
    rw [same]
    refine ⟨.reading inside content intact mode channel catalog, fun _ => ?_⟩
    have reading : (Tar.Archive.reading data).channel = .reader := rfl
    obtain ⟨first, found⟩ := Tar.Archive.read_of_channel reading data path
    rw [catalog, ← congrArg Prod.fst found]
    exact Tar.Archive.read_of_reader intact path
  | @database session earlier taken keeps =>
    have same : answer = (.ok ((earlier ++ taken).latest path), sqlite session, volume) := by
      simp only [answer, Archive.read, keeps.read]
    rw [same]
    exact ⟨.database keeps, fun _ => rfl⟩

/-- A batch can be begun, which keeps the ledgers. -/
theorem beginBatch (keeps : archive.Keeps volume told kept) :
    archive.beginBatch.1 = .ok () ∧ archive.beginBatch.2.Keeps volume told kept := by
  cases archive with
  | tar number inner => exact ⟨keeps.requireOpen, keeps⟩
  | sqlite session =>
    cases keeps with
    | database keeps => exact ⟨keeps.beginBatch.1, .database keeps.beginBatch.2⟩
  | zip number inner => cases keeps
  | directory inner => cases keeps

/-- A batch can be ended, which keeps the ledgers. -/
theorem endBatch (keeps : archive.Keeps volume told kept) :
    let answer := archive.endBatch volume
    answer.1 = .ok () ∧ answer.2.1.Keeps answer.2.2 told kept := by
  intro answer
  cases keeps with
  | @writing number archive mode first data taken writer inside content intact grows =>
    obtain ⟨after, grown⟩ := grows_call intact grows .endBatch
    simp only [Tar.Course.call] at grown
    have same : answer = let inner := archive.endBatch data
        (inner.1, tar number inner.2.1, volume.setBytes number inner.2.2) := by
      rw [← Volume.bytes_of_content content]
      rfl
    rw [same]
    exact ⟨congrArg Prod.fst (Tar.Archive.endBatch_of_writer grows.channel data),
      writing_setBytes inside content intact grown⟩
  | @reading number archive data inside content intact mode channel catalog =>
    have same : answer = (.ok (), tar number archive, volume) := by
      simp only [answer, Archive.endBatch, Tar.Archive.endBatch, channel, volume.setBytes_bytes]
    rw [same]
    exact ⟨rfl, .reading inside content intact mode channel catalog⟩
  | @database session earlier taken keeps =>
    obtain ⟨after, left, ended, kept⟩ := keeps.endBatch
    have same : answer = (.ok (), sqlite after, left) := by
      simp only [answer, Archive.endBatch, ended]
    rw [same]
    exact ⟨rfl, .database kept⟩

/-- An archive can be closed, which leaves what there was to be of it. -/
theorem close (keeps : archive.Keeps volume told kept) :
    ∃ closed left, archive.close volume = (.ok (), closed, left) ∧ archive.Rests left kept := by
  cases keeps with
  | @writing number archive mode first data taken writer inside content intact grows =>
    obtain ⟨whole, -, holds, -⟩ := Tar.intact_closed first grows.fits
    rw [← grows.closed] at whole holds
    rw [Tar.filled_of_intact intact] at holds
    refine ⟨tar number (archive.close data).1, volume.setBytes number (archive.close data).2, ?_,
      ?_⟩
    · rw [← Volume.bytes_of_content content]
      rfl
    · rw [← holds]
      refine .file ?_ (Volume.content_setBytes inside content _) whole
      rw [(volume.frame_setBytes number _).2.2]
      exact inside
  | @reading number archive data inside content intact mode channel catalog =>
    refine ⟨tar number (archive.close data).1, volume, ?_, .file inside content intact⟩
    rw [← Volume.bytes_of_content content]
    simp only [Archive.close, Tar.Archive.close, channel, volume.setBytes_bytes]
  | @database session earlier taken keeps =>
    obtain ⟨after, left, rows, closed, idle, represents⟩ := keeps.close
    refine ⟨sqlite after, left, ?_, .rows idle represents keeps.named⟩
    simp only [Archive.close, closed]

end Keeps

/-! ## Opening -/

/-- Two archives are in the same file. -/
def SameStore (archive other : Archive) : Prop :=
  match archive, other with
  | tar number _, tar another _ => number = another
  | sqlite session, sqlite another =>
    session.connection.number = another.connection.number ∧
      session.connection.home = another.connection.home
  | _, _ => False

/-- An archive was opened in a file that held none: a tar file that is written anew or was empty, or
a file that was no database. -/
def IsNew (archive : Archive) (before : Volume) : Prop :=
  match archive with
  | tar number inner => inner.mode = .write ∨ before.content number = .bytes []
  | sqlite session => ∀ rows, before.content session.connection.number ≠ .database rows
  | zip _ _ | directory _ => False

/-- Nothing is stored in an empty file. -/
theorem stored_nil : Tar.stored [] = [] := by
  rw [← Tar.filled_of_intact Tar.intact_nil, Tar.filled_nil]

variable {after : Volume} {file : String} {mode : Access} {sizes : PieceSizes} {kind : ArchiveKind}
  {next : Archive}

/-- A tar file that is written anew keeps nothing. -/
theorem keeps_create {number : Nat} (inside : number < volume.files.length)
    (content : volume.content number = .bytes []) :
    (tar number .create).Keeps volume [] [] := by
  obtain ⟨writer, grows⟩ : ∃ writer, Tar.Course.Grows _ _ ⟨.create, [], []⟩ writer false :=
    @Tar.Course.grows_of_start none _ rfl
  have keeps : (tar number .create).Keeps volume (Tar.stored [] ++ []) (Tar.stored [] ++ []) :=
    .writing inside content Tar.intact_nil grows
  rwa [stored_nil] at keeps

/-- A tar file that is opened keeps what rests in it. -/
theorem keeps_openExisting {number : Nat} {data : List UInt8} {inner : Tar.Archive}
    (inside : number < volume.files.length) (content : volume.content number = .bytes data)
    (intact : Tar.Intact data) (opened : (Tar.Archive.openExisting mode data).1 = .ok inner) :
    (tar number inner).Keeps volume (Tar.stored data) (Tar.stored data) := by
  obtain rfl := Opened.archive_of_openExisting opened
  by_cases reads : mode = .read
  · subst reads
    exact .reading inside content intact rfl rfl rfl
  · have keeps : (tar number (Tar.Course.opening mode data).archive).Keeps volume
        (Tar.stored data ++ []) (Tar.stored data ++ []) :=
      .writing inside content intact (Tar.Course.grows_opening mode data)
    rw [List.append_nil] at keeps
    rw [if_neg reads]
    exact keeps

/-- An archive that is opened in a file that held none keeps nothing. -/
theorem Opened.keeps_of_new (opened : Opened volume file mode sizes kind next after)
    (sound : volume.Sound) (new : next.IsNew volume) : next.Keeps after [] [] := by
  cases opened with
  | newTar writes created =>
    have inside := Volume.inside_of_create sound created
    exact keeps_create inside (Volume.content_of_create created inside)
  | @oldTar number inner keeps found opened =>
    have empty : volume.content number = .bytes [] := by
      refine new.resolve_left fun writes => keeps ?_
      rw [← writes, archive_of_openExisting opened]
      rfl
    obtain ⟨place, there⟩ := Volume.find_of_openFile found
    obtain ⟨here, name, -, -, node⟩ := Volume.leads_of_find there
    rw [Volume.bytes_of_content empty] at opened
    have keeps := keeps_openExisting (sound node) empty Tar.intact_nil opened
    rwa [stored_nil] at keeps
  | @database before after session pruned started =>
    have fresh : ∀ rows, before.content session.connection.number ≠ .database rows := by
      rw [pruned.content]
      exact new
    have keeps : (sqlite session).Keeps after ([] ++ []) ([] ++ []) :=
      .database (Sqlite.Session.keeps_of_fresh (pruned.sound sound) started fresh)
    exact keeps
  | newZip | oldZip | folder => exact new.elim

/-- What rests on a volume is kept by an archive that is opened in the same file, unless it is a tar
file that is written anew, which keeps nothing. -/
theorem Rests.again {ledger : Ledger} (rests : archive.Rests volume ledger)
    (opened : Opened volume file mode sizes kind next after) (same : next.SameStore archive) :
    (effectiveMode volume file mode = .write ∧ next.Keeps after [] []) ∨
      next.Keeps after ledger ledger := by
  cases rests with
  | @file number archive data inside content intact =>
    cases opened with
    | @newTar other after writes created =>
      obtain rfl : other = number := same
      have inside : other < after.files.length := by
        obtain ⟨rfl, -⟩ | ⟨place, node, rfl⟩ := Volume.create_cases created
        · exact absurd inside (Nat.lt_irrefl _)
        · rw [(volume.frame_setBytes other []).2.2]
          exact inside
      exact .inl ⟨writes, keeps_create inside (Volume.content_of_create created inside)⟩
    | @oldTar other inner keeps found opened =>
      obtain rfl : other = number := same
      rw [Volume.bytes_of_content content] at opened
      exact .inr (keeps_openExisting inside content intact opened)
    | database | newZip | oldZip | folder => exact same.elim
  | @rows session rows ledger idle represents named =>
    cases opened with
    | @database before after other pruned started =>
      have keeps := Sqlite.Session.keeps_of_again idle represents pruned started same.1 same.2
      have whole : (sqlite other).Keeps after (ledger ++ []) (ledger ++ []) := .database keeps
      rw [List.append_nil] at whole
      exact .inr whole
    | newTar | oldTar | newZip | oldZip | folder => exact same.elim

/-- Where an archive can be found once it is closed: a tar file by a path, a database by the name it
was opened by, unless it has no file or its name demands to be written. -/
def Findable (archive : Archive) (volume : Volume) (path : String) : Prop :=
  match archive with
  | tar number _ => volume.openFile path = .ok number
  | sqlite session => session.file = path ∧ session.connection.home ≠ none ∧
      ∃ name, Sqlite.Name.ofText .read path = .ok name
  | zip _ _ | directory _ => False

/-- What rests on a volume can be opened for reading where it is found. -/
theorem Rests.opens {ledger : Ledger} (rests : archive.Rests volume ledger) {path : String}
    (found : archive.Findable volume path) (sizes : PieceSizes) :
    ∃ kind again warning,
      openAs kind volume path .read sizes = ⟨.ok again, volume, warning⟩ ∧
        again.SameStore archive := by
  cases rests with
  | @file number archive data inside content intact =>
    have opened := Tar.Archive.openExisting_of_scanned intact.scanned .read
    refine ⟨.tar, tar number (Tar.Archive.reading data),
      Tar.Archive.warning? (Tar.scan (.ofBytes data)).ending, ?_, rfl⟩
    have existing : effectiveMode volume path .read = .read := rfl
    have leads : volume.openFile path = .ok number := found
    rw [openAs, openTar, existing]
    dsimp only
    rw [leads]
    dsimp only
    rw [Volume.bytes_of_content content, opened]
    rfl
  | @rows session rows ledger idle represents named =>
    obtain ⟨rfl, at_path, name, readable⟩ := found
    obtain ⟨before, first, between, connected⟩ := named
    obtain ⟨second, again, same_number, same_home⟩ := idle.start connected at_path readable
    have sees := (idle.again .same again same_number same_home).2
    have opened := Sqlite.Course.openSqlite_of_start (by decide)
      (Sqlite.Session.start_of_idle sizes again sees)
    exact ⟨.sqlite, _, _, opened, same_number, same_home⟩

end Archive

end Trajectory
