import Trajectory.Proofs.Sqlite.Connection
import Trajectory.Proofs.Volume.Tree
/-!
# What other connections see

A connection that has found its rows is steady: nothing beside the file has to be settled any more,
and every other connection to the file sees the same rows. That need not mean that they can be
changed. Where they can, a change at once leaves the connection steady with the new rows; while a
change lasts the others go on seeing the rows from before it.
-/
namespace Trajectory.Sqlite

/-- A file that stands stays where it is when its journal is saved. -/
theorem Stands.saves {volume after : Volume} {home name : String} {number : Nat} {here : Place}
    (stands : Stands volume home number here name) {other : Nat} {data : List UInt8}
    (undirected : volume.nodeAt (here ++ [name ++ "-journal"]) ≠ some .directory)
    (saves : volume.Saves (here ++ [name ++ "-journal"]) other data after) :
    Stands after home number here name := by
  apply stands.congr
  · intro place directory
    rw [saves.nodes place fun same => undirected (same ▸ directory), directory]
  · rw [saves.nodes _ (Stands.place_ne here name), stands.file]

namespace Connection

/-- What stands in the place of a journal needs no settling: it is not a directory, and no bytes
of it are what an interrupted change left. -/
def Calm (volume : Volume) (home : String) : Prop :=
  match volume.load (journal home) with
  | .error .isDirectory => False
  | .ok (first :: _) => first = 0
  | _ => True

/-- A connection to a file with rows, beside which nothing is to be settled as long as nobody holds
the file. -/
structure Steady (connection : Connection) (volume : Volume) (rows : Database) : Prop where
  /-- The file has the rows. -/
  content : volume.content connection.number = .database rows
  /-- Nothing is to be settled. -/
  calm : connection.number ∈ volume.held ∨ ∀ home, connection.home = some home → Calm volume home

variable {connection : Connection} {volume after : Volume} {rows : Database}

/-- A file with rows exists. -/
theorem inside_of_content (content : volume.content connection.number = .database rows) :
    connection.number < volume.files.length := by
  apply Nat.lt_of_not_le
  intro outside
  rw [Volume.content, List.getD_eq_getElem?_getD, List.getElem?_eq_none outside] at content
  contradiction

/-- A file with rows is not empty. -/
theorem isEmpty_of_content (content : volume.content connection.number = .database rows) :
    connection.isEmpty volume = false := by
  rw [isEmpty, content]

namespace Steady

/-- Every connection to the file sees the rows, and changes nothing by it. -/
theorem look (steady : connection.Steady volume rows) {other : Connection}
    (same_number : other.number = connection.number) (same_home : other.home = connection.home)
    (table : String) : other.look volume table = (.ok rows, volume) := by
  have content : volume.content other.number = .database rows := same_number ▸ steady.content
  have settles : other.settle volume = .ok volume := by
    rw [settle]
    split
    · rfl
    · next free =>
      have calm := steady.calm.resolve_left (same_number ▸ free)
      rw [same_home]
      cases home : connection.home with
      | none => rfl
      | some path =>
        have calm_here := calm path home
        unfold Calm at calm_here
        rw [Option.map_some]
        split at calm_here
        · exact calm_here.elim
        · next first rest loaded =>
          simp [loaded, isEmpty_of_content content, calm_here]
        · next directory settled =>
          split
          · next loaded => exact (directory (Option.some.inj loaded)).elim
          · next loaded => exact (settled _ _ (Option.some.inj loaded)).elim
          · rfl
  rw [Connection.look, settles]
  dsimp only
  rw [Connection.rows, content]

end Steady

/-- A connection that sees rows which nobody holds, without a journal, is steady. -/
theorem Idle.steady (idle : connection.Idle volume rows) : connection.Steady volume rows := by
  refine ⟨idle.content, .inr fun path home => ?_⟩
  obtain ⟨here, name, stands, absent⟩ := idle.home path home
  rw [Calm, Volume.load, Volume.openFile, stands.beside.find, absent]
  trivial

/-- Where a journal was removed nothing is left to be settled. -/
theorem calm_of_removed {home : String} {data : List UInt8}
    (loaded : volume.load (journal home) = .ok data) :
    Calm (volume.remove (journal home)).2 home := by
  cases opened : volume.openFile (journal home) with
  | error fault => simp [Volume.load, opened] at loaded
  | ok number =>
    obtain ⟨place, found⟩ := Volume.find_of_openFile opened
    obtain ⟨here, name, leads, -, node⟩ := Volume.leads_of_find found
    have removed : (volume.remove (journal home)).2 =
        { volume with nodes := volume.nodes.filter (·.1 ≠ here ++ [name]) } := by
      rw [leads.remove, node]
    have still := leads.congr fun place => Volume.directory_filter_ne node (by simp)
    rw [removed, Calm, Volume.load, Volume.openFile, still.find, Volume.nodeAt_filter_ne,
      if_pos rfl]
    trivial

/-- Once a connection has found its rows it is steady. -/
theorem steady_of_look {table : String}
    (looked : connection.look volume table = (.ok rows, after)) : connection.Steady after rows := by
  have content := content_of_look looked
  have files := connection.files_of_look volume table
  rw [looked] at files
  refine ⟨by rwa [Volume.content, files], ?_⟩
  rw [look] at looked
  cases settles : connection.settle volume with
  | error error => simp [settles] at looked
  | ok settled =>
    rw [settles] at looked
    obtain rfl := (Prod.mk.inj looked).2
    rw [settle] at settles
    split at settles
    · next held =>
      obtain rfl := Except.ok.inj settles
      exact .inl held
    · refine .inr fun path home => ?_
      rw [home, isEmpty_of_content content, Option.map_some] at settles
      simp only [Bool.false_eq_true, false_or, if_false] at settles
      split at settles
      · contradiction
      · next first rest loaded =>
        have here : volume.load (journal path) = .ok (first :: rest) := Option.some.inj loaded
        have blank (unmarked : first = 0) : Calm volume path := by
          rw [Calm, here]
          exact unmarked
        split at settles
        · by_cases unmarked : first = 0
          · rw [if_neg (not_not_intro unmarked)] at settles
            exact Except.ok.inj settles ▸ blank unmarked
          · have without : connection.withoutJournal volume = (volume.remove (journal path)).2 := by
              simp only [withoutJournal, home]
            rw [if_pos unmarked, without] at settles
            exact Except.ok.inj settles ▸ calm_of_removed here
        · split at settles
          · next unmarked => exact Except.ok.inj settles ▸ blank unmarked
          · contradiction
      · next directory bytes =>
        obtain rfl := Except.ok.inj settles
        rw [Calm]
        split
        · next loaded => exact directory (congrArg some loaded)
        · next loaded => exact (bytes _ _ (congrArg some loaded)).elim
        · trivial

/-- What a steady connection may do with its rows. -/
theorem Steady.changeable (steady : connection.Steady volume rows) :
    (∃ error, connection.changeable volume = (.error error, volume)) ∨
      connection.changeable volume = (.ok rows, volume) ∧ connection.allowed volume = .ok () := by
  rw [Connection.changeable, steady.look rfl rfl]
  split
  · exact .inl ⟨_, rfl⟩
  · dsimp only
    cases connection.allowed volume with
    | error error => exact .inl ⟨error, rfl⟩
    | ok done => exact .inr ⟨rfl, rfl⟩

/-- A change at once that is allowed leaves a connection steady. -/
theorem Steady.change (steady : connection.Steady volume rows)
    (allowed : connection.allowed volume = .ok ()) (changed : Database) :
    connection.Steady (connection.change volume changed) changed := by
  have inside := inside_of_content steady.content
  have placed := fun home => @stands_of_allowed _ _ allowed home
  exact (idle_change inside (of_allowed allowed).1 placed changed).steady

/-- A change that lasts: the connection holds its file, with a journal beside it, and the file has
the rows from before. -/
structure Lasting (connection : Connection) (volume : Volume) (rows : Database) : Prop where
  /-- The change can be completed. -/
  held : connection.Held volume
  /-- The file is held. -/
  holds : connection.number ∈ volume.held
  /-- The file has the rows from before. -/
  content : volume.content connection.number = .database rows

/-- While a change lasts, every connection sees the rows from before. -/
theorem Lasting.steady (lasting : connection.Lasting volume rows) :
    connection.Steady volume rows := ⟨lasting.content, .inl lasting.holds⟩

/-- A file is not in the place of its own journal where nothing is to be settled: the bytes of a
database do not start with zero. -/
theorem journal_ne (content : volume.content connection.number = .database rows) {path : String}
    (calm : Calm volume path) {here : Place} {name : String}
    (beside : volume.Leads (journal path) here name) :
    volume.nodeAt (here ++ [name]) ≠ some (.file connection.number) := by
  intro standing
  have marked : Content.databasePages = 83 :: Content.databasePages.tail := rfl
  have loaded : volume.load (journal path) = .ok (83 :: Content.databasePages.tail) := by
    rw [← marked, Volume.load, Volume.openFile, beside.find, standing]
    dsimp only
    rw [Volume.bytes, content]
    rfl
  rw [Calm, loaded] at calm
  exact absurd calm (by decide)

/-- A change that lasts can be begun where a change is allowed. What stands in the place of the
journal is made empty. -/
theorem Steady.hold (steady : connection.Steady volume rows)
    (allowed : connection.allowed volume = .ok ()) :
    connection.Lasting (connection.hold volume) rows := by
  have inside := inside_of_content steady.content
  have free := (of_allowed allowed).1
  have holding : (volume.hold connection.number).held = connection.number :: volume.held := rfl
  have once : connection.number ∉
      (volume.hold connection.number).held.erase connection.number := by
    rw [holding, List.erase_cons_head]
    exact free
  have holds : connection.number ∈ (volume.hold connection.number).held :=
    holding ▸ List.mem_cons_self
  unfold Connection.hold
  cases home : connection.home with
  | none =>
    exact ⟨⟨inside, once, fun path some_home => by simp [home] at some_home⟩, holds,
      steady.content⟩
  | some path =>
    obtain ⟨here, name, stands, undirected⟩ := stands_of_allowed allowed home
    have standing : Stands (volume.hold connection.number) path connection.number here name :=
      stands.of_nodes rfl
    obtain ⟨other, -, saves⟩ := standing.beside.saves undirected []
    have distinct : connection.number ≠ other := by
      rintro rfl
      rcases saves.before with standing | ⟨-, new⟩
      · exact journal_ne steady.content (steady.calm.resolve_left free path home) stands.beside
          standing
      · exact absurd new (Nat.ne_of_lt inside)
    dsimp only
    refine ⟨⟨?_, ?_, fun same_path same => ?_⟩, ?_, ?_⟩
    · exact Nat.lt_of_lt_of_le inside saves.spares.length
    · rw [saves.held]
      exact once
    · obtain rfl : path = same_path := Option.some.inj (home.symm.trans same)
      exact ⟨here, name, other, standing.saves undirected saves, saves.node⟩
    · rw [saves.held]
      exact holds
    · rw [saves.spares.content inside distinct]
      exact steady.content

/-- A change that lasts can be completed, and then every connection sees its rows. -/
theorem Lasting.commit (lasting : connection.Lasting volume rows) (changed : Database) :
    ∃ left, connection.commit volume changed = (.ok (), left) ∧
      connection.Steady left changed := by
  obtain ⟨left, completed, idle⟩ := lasting.held.commit changed
  exact ⟨left, completed, idle.steady⟩

/-- A change that lasts of rows that nobody holds can be completed. -/
theorem Idle.hold (idle : connection.Idle volume rows) :
    connection.Held (connection.hold volume) := (idle.steady.hold idle.allowed).held

/-- A connection that found its tables, or made them, is steady. -/
theorem steady_of_prepare (inside : connection.number < volume.files.length)
    (prepared : connection.prepare volume = (.ok rows, after)) : connection.Steady after rows := by
  unfold prepare at prepared
  split at prepared
  · next table settled looked =>
    have files := connection.files_of_look volume fileTable
    rw [looked] at files
    split at prepared
    · split at prepared
      · simp at prepared
      · next allowed =>
        obtain ⟨made, rfl⟩ := Prod.mk.inj prepared
        obtain rfl := Except.ok.inj made
        have placed := fun home => @stands_of_allowed _ _ allowed home
        exact (idle_change (files ▸ inside) (of_allowed allowed).1 placed .empty).steady
    · simp at prepared
  · exact steady_of_look prepared

end Connection

end Trajectory.Sqlite
