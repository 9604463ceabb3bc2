import Trajectory.Proofs.Sqlite.Name
import Trajectory.Proofs.Volume.Path
import Trajectory.Sqlite.Connection
/-!
# Connections at their file

A connection whose file is where it was opened, with no journal beside it and held by nobody, sees
the rows of the file. A change at once leaves it so, with other rows; a change that lasts holds
the file and puts a journal beside it, until it is completed.
-/
namespace Trajectory.Sqlite

/-- The journal of a file is beside it, under a longer name. -/
theorem journal_beside {volume : Volume} {home name last : String} {here there : Place}
    (leads : volume.Leads home here name) (beside : volume.Leads (journal home) there last) :
    there = here ∧ last = name ++ "-journal" := by
  obtain ⟨outer, parts, walked⟩ := leads.walked
  obtain ⟨others, longer, ways⟩ := beside.walked
  have clean : '/' ∉ "-journal".toList := by decide
  have journal_parts : Volume.segments (journal home) = outer ++ [name ++ "-journal"] :=
    Volume.segments_append parts clean
  rw [longer] at journal_parts
  obtain ⟨rfl, same⟩ := List.append_inj' journal_parts rfl
  rw [walked] at ways
  exact ⟨(Except.ok.inj ways).symm, List.singleton_inj.mp same⟩

/-- A file is where it was opened, and the place for its journal is known. -/
structure Stands (volume : Volume) (home : String) (number : Nat) (here : Place) (name : String) :
    Prop where
  /-- The path of the file leads to its name. -/
  leads : volume.Leads home here name
  /-- The file is there. -/
  file : volume.nodeAt (here ++ [name]) = some (.file number)
  /-- The path of the journal leads to a longer name. -/
  beside : volume.Leads (journal home) here (name ++ "-journal")

namespace Stands

variable {volume other : Volume} {home name : String} {number : Nat} {here : Place}

/-- A file stays where it is as long as the directories do. -/
theorem congr (stands : Stands volume home number here name)
    (kept : ∀ place, volume.nodeAt place = some .directory → other.nodeAt place = some .directory)
    (file : other.nodeAt (here ++ [name]) = some (.file number)) :
    Stands other home number here name :=
  ⟨stands.leads.congr kept, file, stands.beside.congr kept⟩

/-- A file stays where it is whatever becomes of contents and holds. -/
theorem of_nodes (stands : Stands volume home number here name)
    (same : other.nodes = volume.nodes) : Stands other home number here name := by
  apply stands.congr
  · intro place directory
    rw [Volume.nodeAt_congr same, directory]
  · rw [Volume.nodeAt_congr same, stands.file]

/-- The journal is not the file. -/
theorem place_ne (here : Place) (name : String) :
    here ++ [name] ≠ here ++ [name ++ "-journal"] := by
  intro same
  have longer := congrArg String.length (List.singleton_inj.mp (List.append_inj' same rfl).2)
  rw [String.length_append] at longer
  have some_char : "-journal".length = 8 := by decide
  omega

/-- The file can be opened by its path. -/
theorem openFile (stands : Stands volume home number here name) :
    volume.openFile home = .ok number := by
  rw [Volume.openFile, stands.leads.find, stands.file]

/-- A file stays where it is when its journal is removed, and then there is none. -/
theorem remove_journal (stands : Stands volume home number here name)
    (undirected : volume.nodeAt (here ++ [name ++ "-journal"]) ≠ some .directory) :
    Stands (volume.remove (journal home)).2 home number here name ∧
      (volume.remove (journal home)).2.nodeAt (here ++ [name ++ "-journal"]) = none := by
  rw [stands.beside.remove]
  cases node : volume.nodeAt (here ++ [name ++ "-journal"]) with
  | none => exact ⟨stands, node⟩
  | some standing =>
    cases standing with
    | directory => exact absurd node undirected
    | file other =>
      dsimp only
      refine ⟨stands.congr ?_ ?_, ?_⟩
      · exact fun _ directory => Volume.directory_filter_ne node (by simp) directory
      · rw [Volume.nodeAt_filter_ne, if_neg (place_ne here name), stands.file]
      · rw [Volume.nodeAt_filter_ne, if_pos rfl]

end Stands

namespace Connection

/-- A connection that sees rows: nobody holds the file, and no journal is beside it. -/
structure Idle (connection : Connection) (volume : Volume) (rows : Database) : Prop where
  /-- The file exists. -/
  inside : connection.number < volume.files.length
  /-- It holds the rows. -/
  content : volume.content connection.number = .database rows
  /-- Nobody holds it. -/
  free : connection.number ∉ volume.held
  /-- It is where it was opened, if it has a path, without a journal. -/
  home : ∀ home, connection.home = some home → ∃ here name,
    Stands volume home connection.number here name ∧
      volume.nodeAt (here ++ [name ++ "-journal"]) = none

/-- A connection that changes rows: it holds the file once, and a journal is beside it. -/
structure Held (connection : Connection) (volume : Volume) : Prop where
  /-- The file exists. -/
  inside : connection.number < volume.files.length
  /-- Nobody else holds it. -/
  once : connection.number ∉ volume.held.erase connection.number
  /-- It is where it was opened, if it has a path, with a journal. -/
  home : ∀ home, connection.home = some home → ∃ here name other,
    Stands volume home connection.number here name ∧
      volume.nodeAt (here ++ [name ++ "-journal"]) = some (.file other)

variable {connection : Connection} {volume : Volume} {rows : Database}

/-- There is nothing to settle where no journal is. -/
theorem Idle.settle (idle : connection.Idle volume rows) :
    connection.settle volume = .ok volume := by
  rw [Connection.settle, if_neg idle.free]
  cases home : connection.home with
  | none => rfl
  | some path =>
    obtain ⟨here, name, stands, absent⟩ := idle.home path home
    have missing : volume.load (journal path) = .error .notFound := by
      rw [Volume.load, Volume.openFile, stands.beside.find, absent]
    simp [missing]

/-- The rows are seen, and nothing changes. -/
theorem Idle.look (idle : connection.Idle volume rows) (table : String) :
    connection.look volume table = (.ok rows, volume) := by
  rw [Connection.look, idle.settle]
  dsimp only
  rw [Connection.rows, idle.content]

/-- A file that is where it was opened, with a place for a journal, may be changed. -/
theorem Idle.allowed (idle : connection.Idle volume rows) :
    connection.allowed volume = .ok () := by
  have home_journal : connection.isHome volume = true ∧ connection.hasJournal volume = true := by
    unfold isHome hasJournal
    cases home : connection.home with
    | none => exact ⟨rfl, rfl⟩
    | some path =>
      obtain ⟨here, name, stands, absent⟩ := idle.home path home
      dsimp only
      rw [stands.openFile, stands.beside.create, absent]
      exact ⟨decide_eq_true rfl, rfl⟩
  rw [Connection.allowed, if_neg idle.free, home_journal.1, home_journal.2]
  rfl

/-- The rows may be changed over a connection that allows it. -/
theorem Idle.changeable (idle : connection.Idle volume rows)
    (writable : connection.writable = true) :
    connection.changeable volume = (.ok rows, volume) := by
  rw [Connection.changeable, writable, idle.look]
  dsimp only
  rw [idle.allowed]
  rfl

/-- Leaving the journal out removes at most a file. -/
theorem pruned_withoutJournal (connection : Connection) (volume : Volume) :
    volume.Pruned (connection.withoutJournal volume) := by
  unfold withoutJournal
  cases connection.home with
  | none => exact .same
  | some path => exact .removed _

/-- A change at once of a file that nobody holds, and that has a place for a journal, leaves a
connection that sees the new rows. -/
theorem idle_change (inside : connection.number < volume.files.length)
    (free : connection.number ∉ volume.held)
    (placed : ∀ home, connection.home = some home → ∃ here name,
      Stands volume home connection.number here name ∧
        volume.nodeAt (here ++ [name ++ "-journal"]) ≠ some .directory) (changed : Database) :
    connection.Idle (connection.change volume changed) changed := by
  have frame := (connection.pruned_withoutJournal volume).frame
  have there : connection.number < (connection.withoutJournal volume).files.length := by
    rw [frame.1]
    exact inside
  unfold change
  refine ⟨?_, Volume.content_setContent there _, ?_, ?_⟩
  · exact Nat.lt_of_lt_of_eq there List.length_set.symm
  · exact frame.2.symm ▸ free
  · intro path home
    obtain ⟨here, name, stands, undirected⟩ := placed path home
    have without : connection.withoutJournal volume = (volume.remove (journal path)).2 := by
      simp only [withoutJournal, home]
    have removed := stands.remove_journal undirected
    rw [without]
    exact ⟨here, name, removed.1.of_nodes rfl, removed.2⟩

/-- A change at once leaves the connection as it was, with other rows. -/
theorem Idle.change (idle : connection.Idle volume rows) (changed : Database) :
    connection.Idle (connection.change volume changed) changed := by
  apply idle_change idle.inside idle.free
  intro path home
  obtain ⟨here, name, stands, absent⟩ := idle.home path home
  refine ⟨here, name, stands, ?_⟩
  rw [absent]
  exact nofun

/-- A change that lasted can be completed, and the connection sees its rows. -/
theorem Held.commit (held : connection.Held volume) (changed : Database) :
    ∃ after, connection.commit volume changed = (.ok (), after) ∧
      connection.Idle after changed := by
  have inside : connection.number < ((volume.release connection.number).setContent
      connection.number (.database changed)).files.length :=
    Nat.lt_of_lt_of_eq held.inside List.length_set.symm
  have content : ((volume.release connection.number).setContent connection.number
      (.database changed)).content connection.number = .database changed :=
    Volume.content_setContent held.inside _
  unfold Connection.commit
  cases home : connection.home with
  | none =>
    exact ⟨_, rfl, inside, content, held.once, fun path some_home => by simp [home] at some_home⟩
  | some path =>
    obtain ⟨here, name, other, stands, standing⟩ := held.home path home
    have written : Stands ((volume.release connection.number).setContent connection.number
        (.database changed)) path connection.number here name := stands.of_nodes rfl
    have node : ((volume.release connection.number).setContent connection.number
        (.database changed)).nodeAt (here ++ [name ++ "-journal"]) = some (.file other) := standing
    have undirected : ((volume.release connection.number).setContent connection.number
        (.database changed)).nodeAt (here ++ [name ++ "-journal"]) ≠ some .directory := by
      simp [node]
    have cleared := written.remove_journal undirected
    dsimp only
    rw [written.beside.remove, node] at cleared ⊢
    refine ⟨_, rfl, inside, content, held.once, fun same_path same => ?_⟩
    obtain rfl : path = same_path := Option.some.inj (home.symm.trans same)
    exact ⟨here, name, cleared.1, cleared.2⟩

/-- Settling removes at most a file. -/
theorem pruned_of_settle {settled : Volume} (found : connection.settle volume = .ok settled) :
    volume.Pruned settled := by
  have cleared := connection.pruned_withoutJournal volume
  unfold settle at found
  split at found
  · exact (Except.ok.inj found) ▸ .same
  · split at found
    · split at found
      · exact (Except.ok.inj found) ▸ .same
      · contradiction
    · split at found
      · split at found
        · exact (Except.ok.inj found) ▸ cleared
        · exact (Except.ok.inj found) ▸ .same
      · split at found
        · exact (Except.ok.inj found) ▸ .same
        · contradiction
    · exact (Except.ok.inj found) ▸ .same

/-- What it takes to change a file. -/
theorem of_allowed (allowed : connection.allowed volume = .ok ()) :
    connection.number ∉ volume.held ∧ connection.isHome volume = true ∧
      connection.hasJournal volume = true := by
  unfold Connection.allowed at allowed
  split at allowed
  · contradiction
  · next free =>
    split at allowed
    · contradiction
    · next at_home =>
      split at allowed
      · contradiction
      · next has_journal =>
        rw [Bool.not_eq_true, Bool.not_eq_false] at at_home has_journal
        exact ⟨free, at_home, has_journal⟩

/-- A file that is where it was opened and can have a journal stands, and no directory is in the
place of the journal. -/
theorem stands_of_allowed (allowed : connection.allowed volume = .ok ()) {path : String}
    (home : connection.home = some path) :
    ∃ here name, Stands volume path connection.number here name ∧
      volume.nodeAt (here ++ [name ++ "-journal"]) ≠ some .directory := by
  obtain ⟨-, at_home, has_journal⟩ := of_allowed allowed
  simp only [isHome, hasJournal, home] at at_home has_journal
  have opened : volume.openFile path = .ok connection.number := by
    have same := of_decide_eq_true at_home
    cases found : volume.openFile path with
    | error fault => simp [found, Except.toOption] at same
    | ok number => simpa [found, Except.toOption] using same
  obtain ⟨place, found⟩ := Volume.find_of_openFile opened
  obtain ⟨here, name, leads, -, file⟩ := Volume.leads_of_find found
  rcases created : volume.create (journal path) with ⟨result, after⟩
  cases result with
  | error fault => simp [created, Except.toBool] at has_journal
  | ok number =>
    obtain ⟨there, last, beside⟩ := Volume.leads_of_create created
    obtain ⟨rfl, rfl⟩ := journal_beside leads beside
    refine ⟨there, name, ⟨leads, file, beside⟩, fun directory => ?_⟩
    rw [beside.create, directory] at created
    simp at created

/-- Looking at the rows changes no contents. -/
theorem files_of_look (connection : Connection) (volume : Volume) (table : String) :
    (connection.look volume table).2.files = volume.files := by
  unfold look
  cases settled : connection.settle volume with
  | error error => rfl
  | ok calm => exact (pruned_of_settle settled).frame.1

/-- Rows that are seen are those of the file. -/
theorem content_of_look {table : String} {after : Volume}
    (looked : connection.look volume table = (.ok rows, after)) :
    volume.content connection.number = .database rows := by
  have files := connection.files_of_look volume table
  rw [looked] at files
  unfold look at looked
  cases settled : connection.settle volume with
  | error error => simp [settled] at looked
  | ok calm =>
    rw [settled] at looked
    obtain ⟨found, rfl⟩ := Prod.mk.inj looked
    have same : volume.content connection.number = calm.content connection.number := by
      rw [Volume.content, Volume.content, files]
    unfold Connection.rows at found
    rw [same]
    split at found
    · next known stored => rw [stored, Except.ok.inj found]
    · contradiction

/-- A database is made in a file that is none: the tables are empty, and the connection sees
them. -/
theorem idle_of_prepare (inside : connection.number < volume.files.length)
    (fresh : ∀ rows, volume.content connection.number ≠ .database rows) {after : Volume}
    (prepared : connection.prepare volume = (.ok rows, after)) :
    rows = .empty ∧ connection.writable = true ∧ connection.Idle after rows := by
  unfold prepare at prepared
  split at prepared
  · next table settled looked =>
    have files := connection.files_of_look volume fileTable
    rw [looked] at files
    split at prepared
    · next writable =>
      split at prepared
      · simp at prepared
      · next allowed =>
        obtain ⟨made, rfl⟩ := Prod.mk.inj prepared
        obtain rfl := Except.ok.inj made
        have free := (of_allowed allowed).1
        refine ⟨rfl, writable, idle_change (files ▸ inside) free ?_ .empty⟩
        exact fun path home => stands_of_allowed allowed home
    · simp at prepared
  · exact absurd (content_of_look prepared) (fresh rows)

/-- A connection that sees rows finds the tables there. -/
theorem Idle.prepare (idle : connection.Idle volume rows) :
    connection.prepare volume = (.ok rows, volume) := by
  rw [Connection.prepare, idle.look]

/-- The path at which a file is opened. -/
def homeOf (path : String) : String :=
  if Volume.settled path = [] then "." else Volume.joined (Volume.settled path)

/-- Whether a file can be opened by a path. -/
def Fits (path : String) : Prop :=
  ¬ ((Volume.settled path = [] ∧ path.toList.head? = some '/') ∨
    pathRoom < (homeOf path).utf8ByteSize)

/-- A file that is found where it is to be opened is opened there. -/
theorem openFile_of_find {name : Name} (fits : Fits name.path) {place : Place} {number : Nat}
    (found : volume.find (homeOf name.path) = .ok (place, .file number)) (file : String) :
    openFile volume file name =
      (.ok ⟨number, some (homeOf name.path), name.grant ≠ .read ∧ ¬ name.frozen⟩, volume) := by
  unfold homeOf at found
  unfold Fits homeOf at fits
  unfold openFile homeOf
  dsimp only
  rw [if_neg fits, found]

/-- A file that is opened is a new one, or one that was found. -/
theorem openFile_cases {file : String} {name : Name} {after : Volume}
    (opened : openFile volume file name = (.ok connection, after)) :
    Fits name.path ∧ connection.home = some (homeOf name.path) ∧
      ((connection.number = volume.files.length ∧ after.files = volume.files ++ [.bytes []]) ∨
        ∃ place, volume.find (homeOf name.path) = .ok (place, .file connection.number) ∧
          after = volume) := by
  unfold openFile at opened
  dsimp only at opened
  rw [← homeOf] at opened
  split at opened
  · simp at opened
  · next fits =>
    split at opened
    · next place number found =>
      obtain ⟨same, rfl⟩ := Prod.mk.inj opened
      obtain rfl := Except.ok.inj same
      exact ⟨fits, rfl, .inr ⟨place, found, rfl⟩⟩
    · simp at opened
    · next missing =>
      split at opened
      · split at opened
        · next number made created =>
          obtain ⟨same, rfl⟩ := Prod.mk.inj opened
          obtain rfl := Except.ok.inj same
          obtain ⟨here, last, leads⟩ := Volume.leads_of_create created
          have absent := leads.find
          rw [missing] at absent
          rw [leads.create] at created
          cases node : volume.nodeAt (here ++ [last]) with
          | none =>
            rw [node] at created
            obtain ⟨same, rfl⟩ := Prod.mk.inj created
            exact ⟨fits, rfl, .inl ⟨(Except.ok.inj same).symm, rfl⟩⟩
          | some other =>
            rw [node] at absent
            contradiction
        · simp at opened
      · simp at opened

/-- A file that did not exist before a connection was made. -/
def New (connection : Connection) (volume after : Volume) : Prop :=
  connection.number = volume.files.length ∧ after.files = volume.files ++ [.bytes []]

/-- A connection that was made has a file apart from all paths, or one at the path of its name: a
new one, or one that was found. -/
theorem start_cases {file : String} {mode : Access} {after : Volume}
    (started : start volume file mode = (.ok connection, after)) :
    Char.ofNat 0 ∉ file.toList ∧ ∃ name, Name.ofText mode file = .ok name ∧
      (name.isApart = true ∧ connection.home = none ∧ connection.New volume after ∨
        name.isApart = false ∧ Fits name.path ∧ connection.home = some (homeOf name.path) ∧
          (connection.New volume after ∨
            ∃ place, volume.find (homeOf name.path) = .ok (place, .file connection.number) ∧
              after = volume)) := by
  unfold start at started
  split at started
  · simp at started
  · next clean =>
    split at started
    · simp at started
    · next name named =>
      refine ⟨clean, name, named, ?_⟩
      split at started
      · next apart =>
        obtain ⟨same, rfl⟩ := Prod.mk.inj started
        obtain rfl := Except.ok.inj same
        exact .inl ⟨apart, rfl, rfl, rfl⟩
      · next at_path =>
        obtain ⟨fits, home, way⟩ := openFile_cases started
        exact .inr ⟨by simpa using at_path, fits, home, way⟩

/-- The file of a connection that was made exists. -/
theorem inside_of_start {file : String} {mode : Access} {after : Volume} (sound : volume.Sound)
    (started : start volume file mode = (.ok connection, after)) :
    connection.number < after.files.length := by
  have of_new (new : connection.New volume after) : connection.number < after.files.length := by
    rw [new.2, new.1, List.length_append]
    exact Nat.lt_succ_self _
  obtain ⟨-, name, -, ⟨-, -, new⟩ | ⟨-, -, -, new | ⟨place, found, rfl⟩⟩⟩ := start_cases started
  · exact of_new new
  · exact of_new new
  · obtain ⟨here, last, -, -, node⟩ := Volume.leads_of_find found
    exact sound node

/-- A file that held no database holds none when a connection to it is made. -/
theorem fresh_of_start {file : String} {mode : Access} {after : Volume}
    (started : start volume file mode = (.ok connection, after))
    (fresh : ∀ rows, volume.content connection.number ≠ .database rows) :
    ∀ rows, after.content connection.number ≠ .database rows := by
  have of_new (new : connection.New volume after) :
      ∀ rows, after.content connection.number ≠ .database rows := by
    rw [Volume.content, new.2, new.1]
    simp
  obtain ⟨-, name, -, ⟨-, -, new⟩ | ⟨-, -, -, new | ⟨place, found, rfl⟩⟩⟩ := start_cases started
  · exact of_new new
  · exact of_new new
  · exact fresh

/-- Connecting again to a file at its path, after at most some other file was removed, sees the
rows there. -/
theorem Idle.again (idle : connection.Idle volume rows) {other after : Volume}
    {second : Connection} {file : String} {mode : Access} (pruned : volume.Pruned other)
    (started : start other file mode = (.ok second, after))
    (same_number : second.number = connection.number) (same_home : second.home = connection.home) :
    after = other ∧ second.Idle other rows := by
  have inside : second.number < other.files.length := by
    rw [same_number, pruned.frame.1]
    exact idle.inside
  have old : ¬ second.New other after := fun new => absurd new.1 (Nat.ne_of_lt inside)
  obtain ⟨-, name, -, ⟨-, -, new⟩ | ⟨-, -, home, new | ⟨place, found, rfl⟩⟩⟩ := start_cases started
  · exact absurd new old
  · exact absurd new old
  · refine ⟨rfl, inside, ?_, ?_, ?_⟩
    · rw [same_number, Volume.content, pruned.frame.1]
      exact idle.content
    · rw [same_number, pruned.frame.2]
      exact idle.free
    · intro path second_home
      obtain rfl := Option.some.inj (home.symm.trans second_home)
      obtain ⟨here, last, stands, absent⟩ := idle.home _ (same_home.symm.trans home)
      have leads := stands.leads.congr fun _ directory => pruned.directory directory
      have beside := stands.beside.congr fun _ directory => pruned.directory directory
      rw [leads.find] at found
      cases node : after.nodeAt (here ++ [last]) with
      | none => simp [node] at found
      | some standing =>
        rw [node] at found
        obtain ⟨-, rfl⟩ := Prod.mk.inj (Except.ok.inj found)
        exact ⟨here, last, ⟨leads, node, beside⟩, pruned.absent absent⟩

/-- The name by which a connection was made leads to its file in every mode in which it is one. -/
theorem Idle.start (idle : connection.Idle volume rows) {before after : Volume} {file : String}
    {mode again : Access} (started : Connection.start before file mode = (.ok connection, after))
    (at_path : connection.home ≠ none) {name : Name} (named : Name.ofText again file = .ok name) :
    ∃ second, Connection.start volume file again = (.ok second, volume) ∧
      second.number = connection.number ∧ second.home = connection.home := by
  obtain ⟨clean, first, first_named, ⟨-, home, -⟩ | ⟨placed, fits, home, -⟩⟩ :=
    start_cases started
  · exact absurd home at_path
  · obtain ⟨path, apart⟩ := Name.ofText_path first_named named
    obtain ⟨here, last, stands, -⟩ := idle.home _ home
    have found : volume.find (homeOf name.path) =
        .ok (here ++ [last], .file connection.number) := by
      rw [path, stands.leads.find, stands.file]
    have same_home : some (homeOf name.path) = connection.home := by rw [home, path]
    have at_path : ¬ name.isApart = true := by
      rw [apart, placed]
      exact Bool.false_ne_true
    refine ⟨⟨connection.number, some (homeOf name.path), name.grant ≠ .read ∧ ¬ name.frozen⟩,
      ?_, rfl, same_home⟩
    rw [Connection.start, if_neg clean, named]
    dsimp only
    rw [if_neg at_path]
    exact openFile_of_find (path ▸ fits) found file

end Connection

end Trajectory.Sqlite
