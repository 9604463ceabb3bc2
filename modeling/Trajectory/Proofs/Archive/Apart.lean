import Trajectory.Proofs.Archive.Keeps
/-!
# Archives apart from each other

What an archive writes goes to no file but its own; a journal that it needs is a new file. The other
way round, an archive goes on as before whatever happens to the rest of the volume, as long as its
file is left alone, and as what stands in the place of its journal stays.
-/
namespace Trajectory

namespace Sqlite

variable {connection : Connection} {session : Session} {volume other : Volume} {rows : Database}
  {earlier taken : Ledger}

/-! ## What a session spares -/

namespace Connection

/-- A change at once spares all other files. -/
theorem spares_change (connection : Connection) (volume : Volume) (rows : Database) :
    volume.Spares connection.number (connection.change volume rows) :=
  (Volume.Spares.pruned _ (connection.pruned_withoutJournal volume)).trans
    (Volume.Spares.setContent _ _ _)

/-- A change that lasts spares all other files, as the journal is a new one. -/
theorem Idle.spares_hold (idle : connection.Idle volume rows) :
    volume.Spares connection.number (connection.hold volume) := by
  have held : volume.Spares connection.number (volume.hold connection.number) := .of_files _ rfl
  rw [Connection.hold]
  cases home : connection.home with
  | none => exact held
  | some path =>
    obtain ⟨here, name, stands, absent⟩ := idle.home path home
    have beside : (volume.hold connection.number).Leads (journal path) here (name ++ "-journal") :=
      stands.beside.congr fun _ directory => directory
    have nothing : (volume.hold connection.number).nodeAt (here ++ [name ++ "-journal"]) = none :=
      absent
    obtain ⟨_, -, saves⟩ := beside.saves (nothing.trans_ne (by simp)) []
    exact held.trans (saves.spares_of_absent nothing _)

end Connection

namespace Session

/-- A write does not change the connection. -/
theorem connection_write (session : Session) (volume : Volume) (engine : Engine)
    (path : String) (data : List UInt8) (compression : Compression) :
    (session.write volume engine path data compression).2.1.connection =
      session.connection := by
  rw [Session.write]
  split
  · rfl
  · split <;> rfl

/-- A write spares all other files. -/
theorem Keeps.spares_write (keeps : session.Keeps volume earlier taken) (engine : Engine)
    (path : String) (data : List UInt8) (compression : Compression) :
    volume.Spares session.connection.number
      (session.write volume engine path data compression).2.2 := by
  rw [Session.write]
  split
  · exact .refl _ _
  · cases keeps.sees with
    | @committed rows unchanged idle represents =>
      rw [changeable, (view_of_unchanged unchanged rows).1, if_neg Bool.false_ne_true]
      by_cases writable : session.connection.writable = true
      · rw [idle.changeable writable]
        dsimp only
        rw [if_neg Bool.false_ne_true]
        split
        · exact idle.spares_hold
        · split
          · exact session.connection.spares_change volume _
          · exact .refl _ _
      · rw [Connection.changeable, if_pos writable]
        exact .refl _ _
    | @changed rows batch mode writable held represents =>
      rw [changeable, (view_of_changed batch .empty).1, if_pos rfl]
      exact .refl _ _

end Session

/-! ## What leaves a session alone -/

/-- What happens to a volume leaves a connection alone: its file keeps its contents and holds, and
stays where it was opened, with the same in the place of its journal. -/
structure Connection.Undisturbed (connection : Connection) (volume other : Volume) : Prop where
  /-- No file is lost. -/
  length : volume.files.length ≤ other.files.length
  /-- The file keeps its contents. -/
  content : other.content connection.number = volume.content connection.number
  /-- It is held as before. -/
  held : other.held.count connection.number = volume.held.count connection.number
  /-- It stays where it is, with the same in the place of its journal. -/
  home : ∀ home, connection.home = some home → other.openFile home = volume.openFile home ∧
    other.find (journal home) = volume.find (journal home)

/-- A file that is still found at its path stands there. -/
theorem Stands.transfer {home name : String} {number : Nat} {here : Place}
    (stands : Stands volume home number here name) (opened : other.openFile home = .ok number) :
    ∃ there, Stands other home number there name := by
  obtain ⟨place, found⟩ := Volume.find_of_openFile opened
  obtain ⟨there, last, leads, -, node⟩ := Volume.leads_of_find found
  obtain ⟨outer, parts, -⟩ := stands.leads.walked
  obtain ⟨others, same, walked⟩ := leads.walked
  rw [parts] at same
  obtain ⟨rfl, named⟩ := List.append_inj' same rfl
  obtain rfl := List.singleton_inj.mp named
  have beside : Volume.segments (journal home) = outer ++ [name ++ "-journal"] :=
    Volume.segments_append parts (by decide)
  exact ⟨there, leads, node,
    ⟨stands.beside.checked, ⟨outer, beside, walked⟩, leads.directory, stands.beside.plain⟩⟩

namespace Connection

/-- A connection that sees rows still does when it is left alone. -/
theorem Idle.undisturbed (idle : connection.Idle volume rows)
    (undisturbed : connection.Undisturbed volume other) : connection.Idle other rows := by
  refine ⟨Nat.lt_of_lt_of_le idle.inside undisturbed.length, undisturbed.content.trans idle.content,
    ?_, fun path home => ?_⟩
  · rw [← List.count_eq_zero, undisturbed.held, List.count_eq_zero]
    exact idle.free
  · obtain ⟨here, name, stands, absent⟩ := idle.home path home
    obtain ⟨opened, found⟩ := undisturbed.home path home
    obtain ⟨there, again⟩ := stands.transfer (opened.trans stands.openFile)
    refine ⟨there, name, again, ?_⟩
    rw [again.beside.find, stands.beside.find, absent] at found
    cases node : other.nodeAt (there ++ [name ++ "-journal"]) with
    | none => rfl
    | some standing => simp [node] at found

/-- A connection that changes rows still does when it is left alone. -/
theorem Held.undisturbed (held : connection.Held volume)
    (undisturbed : connection.Undisturbed volume other) : connection.Held other := by
  refine ⟨Nat.lt_of_lt_of_le held.inside undisturbed.length, ?_, fun path home => ?_⟩
  · have once := held.once
    rw [← List.count_eq_zero, List.count_erase_self] at once ⊢
    rw [undisturbed.held]
    exact once
  · obtain ⟨here, name, journaled, stands, standing⟩ := held.home path home
    obtain ⟨opened, found⟩ := undisturbed.home path home
    obtain ⟨there, again⟩ := stands.transfer (opened.trans stands.openFile)
    refine ⟨there, name, journaled, again, ?_⟩
    rw [again.beside.find, stands.beside.find, standing] at found
    cases node : other.nodeAt (there ++ [name ++ "-journal"]) with
    | none => simp [node] at found
    | some further =>
      rw [node] at found
      rw [(Prod.mk.inj (Except.ok.inj found)).2]

end Connection

/-- A session that is left alone keeps to what was written. -/
theorem Session.Keeps.undisturbed (keeps : session.Keeps volume earlier taken)
    (undisturbed : session.connection.Undisturbed volume other) :
    session.Keeps other earlier taken := by
  refine ⟨keeps.isOpen, keeps.inStep, keeps.names, ?_, keeps.named⟩
  cases keeps.sees with
  | committed unchanged idle represents =>
    exact .committed unchanged (idle.undisturbed undisturbed) represents
  | changed batch mode writable held represents =>
    exact .changed batch mode writable (held.undisturbed undisturbed) represents

end Sqlite

namespace Archive

variable {archive : Archive} {volume other : Volume} {told kept : Ledger}

/-- The number of the file that an archive is in. -/
def number? (archive : Archive) : Option Nat :=
  match archive with
  | tar number _ | zip number _ => some number
  | sqlite session => some session.connection.number
  | directory _ => none

/-- The begin of a batch stays with the file. -/
theorem number?_beginBatch (archive : Archive) :
    archive.beginBatch.2.number? = archive.number? := by
  cases archive <;> rfl

/-- A write stays with the file. -/
theorem number?_write (archive : Archive) (volume : Volume) (request : Request)
    (libraries : Libraries) :
    (archive.write volume request libraries).2.1.number? = archive.number? := by
  cases archive with
  | sqlite session => exact congrArg (some ·.number) (session.connection_write volume _ _ _ _)
  | tar | zip | directory => rfl

/-- A write changes no file but that of the archive. -/
theorem Keeps.spares_write (keeps : archive.Keeps volume told kept) {number : Nat}
    (own : archive.number? = some number) (request : Request) (libraries : Libraries) :
    volume.Spares number (archive.write volume request libraries).2.2 := by
  cases keeps with
  | writing | reading =>
    obtain rfl := Option.some.inj own
    exact .setBytes _ _ _
  | database keeps =>
    obtain rfl := Option.some.inj own
    exact keeps.spares_write _ _ _ _

/-- What happens to a volume leaves an archive alone: a tar file keeps its contents, and a database
its connection. -/
def Undisturbed (archive : Archive) (volume other : Volume) : Prop :=
  match archive with
  | tar number _ =>
    volume.files.length ≤ other.files.length ∧ other.content number = volume.content number
  | sqlite session => session.connection.Undisturbed volume other
  | zip _ _ | directory _ => False

/-- An archive is left alone where nothing happens. -/
theorem Rests.undisturbed_refl {ledger : Ledger} (rests : archive.Rests volume ledger) :
    archive.Undisturbed volume volume := by
  cases rests with
  | file => exact ⟨Nat.le_refl _, rfl⟩
  | rows => exact ⟨Nat.le_refl _, rfl, rfl, fun _ _ => ⟨rfl, rfl⟩⟩

/-- An archive that is left alone keeps its ledgers. -/
theorem Keeps.undisturbed (keeps : archive.Keeps volume told kept)
    (undisturbed : archive.Undisturbed volume other) : archive.Keeps other told kept := by
  cases keeps with
  | writing inside content intact grows =>
    exact .writing (Nat.lt_of_lt_of_le inside undisturbed.1) (undisturbed.2.trans content) intact
      grows
  | reading inside content intact mode channel catalog =>
    exact .reading (Nat.lt_of_lt_of_le inside undisturbed.1) (undisturbed.2.trans content) intact
      mode channel catalog
  | database keeps => exact .database (keeps.undisturbed undisturbed)

/-- What rests on a volume rests there still when it is left alone. -/
theorem Rests.undisturbed {ledger : Ledger} (rests : archive.Rests volume ledger)
    (undisturbed : archive.Undisturbed volume other) : archive.Rests other ledger := by
  cases rests with
  | file inside content intact =>
    exact .file (Nat.lt_of_lt_of_le inside undisturbed.1) (undisturbed.2.trans content) intact
  | rows idle represents named => exact .rows (idle.undisturbed undisturbed) represents named

end Archive

end Trajectory
