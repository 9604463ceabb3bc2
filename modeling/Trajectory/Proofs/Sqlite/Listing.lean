import Trajectory.Proofs.Sqlite.Session
/-!
# What a session with a database lists

A session lists the paths that its database had when it was opened, and those it wrote since. In
whatever state it found the file and what stands beside it, and whether its calls succeed or fail,
every row that it can come to see is under one of these paths. So whatever is not listed reads as
empty, if the rows can be read at all.
-/
namespace Trajectory

namespace Volume

/-- Every database in a volume is in the same file of another. -/
def HasRowsOf (after before : Volume) : Prop :=
  ∀ number rows, after.content number = .database rows → before.content number = .database rows

variable {volume : Volume}

/-- Where no contents differ there are the same databases. -/
theorem hasRowsOf_of_files {after : Volume} (files : after.files = volume.files) :
    after.HasRowsOf volume := by
  intro number rows stored
  rw [← stored, content, content, files]

/-- A file that is changed has its new contents or those it had, and no other changes. -/
theorem content_setContent_cases (volume : Volume) (number other : Nat) (given : Content) :
    (volume.setContent number given).content other = volume.content other ∨
      other = number ∧ (volume.setContent number given).content other = given := by
  by_cases same : other = number
  · by_cases inside : number < volume.files.length
    · exact .inr ⟨same, same ▸ content_setContent inside given⟩
    · refine .inl ?_
      rw [setContent, List.set_eq_of_length_le (Nat.not_lt.mp inside)]
  · refine .inl ?_
    have apart : number ≠ other := fun equal => same equal.symm
    rw [setContent, content, content, List.getD_eq_getElem?_getD, List.getD_eq_getElem?_getD,
      List.getElem?_set_ne apart]

/-- A file that is a database once it is changed was given one. -/
theorem eq_of_content_setContent {number : Nat} {given : Content} {rows : Sqlite.Database}
    (stored : (volume.setContent number given).content number = .database rows) :
    given = .database rows := by
  by_cases inside : number < volume.files.length
  · rwa [content_setContent inside] at stored
  · have outside : volume.files.length ≤ number := Nat.not_lt.mp inside
    rw [setContent, List.set_eq_of_length_le outside, content, List.getD_eq_getElem?_getD,
      List.getElem?_eq_none outside] at stored
    contradiction

/-- Giving a file bytes makes no database. -/
theorem hasRowsOf_setBytes (volume : Volume) (number : Nat) (data : List UInt8) :
    (volume.setBytes number data).HasRowsOf volume := by
  have given : (volume.setContent number (.bytes data)).HasRowsOf volume := by
    intro other rows stored
    rcases volume.content_setContent_cases number other (.bytes data) with same | ⟨-, bytes⟩
    · rw [← same, stored]
    · rw [bytes] at stored
      contradiction
  unfold setBytes
  split
  · exact given
  · split
    · exact hasRowsOf_of_files rfl
    · exact given

/-- A file that is added is no database. -/
theorem hasRowsOf_addFile (volume : Volume) (place : Place) :
    (volume.addFile place).2.HasRowsOf volume := by
  intro number rows stored
  have files : (volume.addFile place).2.files = volume.files ++ [.bytes []] := rfl
  rw [content, files, List.getD_eq_getElem?_getD, List.getElem?_append] at stored
  split at stored
  · rw [content, List.getD_eq_getElem?_getD, stored]
  · generalize number - volume.files.length = further at stored
    cases further with
    | zero => simp at stored
    | succ further => simp at stored

/-- Opening a file to be written from the start makes no database. -/
theorem hasRowsOf_create (volume : Volume) (path : String) :
    (volume.create path).2.HasRowsOf volume := by
  have same : volume.HasRowsOf volume := hasRowsOf_of_files rfl
  unfold create
  split
  · exact same
  · dsimp only
    split
    · exact same
    · split
      · exact same
      · split
        · exact same
        · split
          · exact same
          · exact hasRowsOf_setBytes _ _ _
          · exact hasRowsOf_addFile _ _

/-- Nor does writing a whole file. -/
theorem hasRowsOf_save (volume : Volume) (path : String) (data : List UInt8) :
    (volume.save path data).2.HasRowsOf volume := by
  have created := volume.hasRowsOf_create path
  unfold save
  split
  · next number after opened =>
    rw [opened] at created
    intro other rows stored
    exact created other rows (after.hasRowsOf_setBytes number data other rows stored)
  · next fault after refused =>
    rw [refused] at created
    exact created

end Volume

namespace Sqlite

/-- Storing an entry adds its path at most. -/
theorem Database.mem_paths_replace {rows : Database} {row : FileRow} {pieces : List (List UInt8)}
    {path : String} (listed : path ∈ (rows.replace row pieces).paths) :
    path = row.path ∨ path ∈ rows.paths := by
  rw [paths_replace, List.mem_append, List.mem_singleton] at listed
  exact listed.symm.imp_right List.mem_of_mem_filter

/-- A path that no row is under has no row. -/
theorem Database.file?_of_not_mem {rows : Database} {path : String} (absent : path ∉ rows.paths) :
    rows.file? path = none := by
  rw [file?, List.find?_eq_none]
  intro row member same
  exact absent (of_decide_eq_true same ▸ List.mem_map_of_mem member)

namespace Connection

variable {connection : Connection} {volume : Volume} {rows others : Database}

/-- Looking at the rows finds those that the file then has. -/
theorem eq_of_look {table : String} {after : Volume}
    (looked : connection.look volume table = (.ok rows, after))
    (stored : after.content connection.number = .database others) : others = rows := by
  have files := connection.files_of_look volume table
  have found := content_of_look looked
  rw [looked] at files
  rw [Volume.content, files, ← Volume.content, found] at stored
  exact (Content.database.inj stored).symm

/-- Changing the rows leaves these in the file, if any. -/
theorem eq_of_change
    (stored : (connection.change volume rows).content connection.number = .database others) :
    others = rows :=
  (Content.database.inj (Volume.eq_of_content_setContent stored)).symm

/-- Finding or making the tables finds the rows that the file then has. -/
theorem eq_of_prepare {after : Volume} (prepared : connection.prepare volume = (.ok rows, after))
    (stored : after.content connection.number = .database others) : others = rows := by
  unfold prepare at prepared
  split at prepared
  · split at prepared
    · split at prepared
      · simp at prepared
      · obtain ⟨made, rfl⟩ := Prod.mk.inj prepared
        obtain rfl := Except.ok.inj made
        exact eq_of_change stored
    · simp at prepared
  · exact eq_of_look prepared stored

/-- Completing a change leaves its rows in the file, if any, whether or not it succeeds. -/
theorem eq_of_commit
    (stored : (connection.commit volume rows).2.content connection.number = .database others) :
    others = rows := by
  have written : ∀ {after : Volume}, after.files = ((volume.release connection.number).setContent
      connection.number (.database rows)).files →
      after.content connection.number = .database others → others = rows := by
    intro after files kept
    rw [Volume.content, files, ← Volume.content] at kept
    exact (Content.database.inj (Volume.eq_of_content_setContent kept)).symm
  unfold commit at stored
  cases home : connection.home with
  | none =>
    rw [home] at stored
    exact written rfl stored
  | some path =>
    rw [home] at stored
    dsimp only at stored
    have pruned : Volume.Pruned ((volume.release connection.number).setContent connection.number
      (.database rows)) _ := .removed (journal path)
    split at stored
    · next after removed =>
      rw [removed] at pruned
      exact written pruned.frame.1 stored
    · exact written rfl stored

/-- Beginning a change that lasts makes no database. -/
theorem hasRowsOf_hold (connection : Connection) (volume : Volume) :
    (connection.hold volume).HasRowsOf volume := by
  unfold hold
  split
  · exact (volume.hold connection.number).hasRowsOf_save _ _
  · exact Volume.hasRowsOf_of_files rfl

end Connection

namespace Session

/-- Every row that a session can come to see is under a path that it lists. -/
structure Lists (session : Session) (volume : Volume) : Prop where
  /-- The paths are in step with the set of them. -/
  inStep : session.archive.catalog.InStep
  /-- The rows in its file are. -/
  stored : ∀ {rows}, volume.content session.connection.number = .database rows →
    ∀ path ∈ rows.paths, path ∈ session.archive.catalog.names
  /-- The rows of its batch are. -/
  pending : ∀ {rows}, session.archive.batch = .changed rows →
    ∀ path ∈ rows.paths, path ∈ session.archive.catalog.names

variable {session : Session} {volume : Volume}

/-- The rows to be changed of a session without changes are those in its file, and looking at them
changes no contents. -/
theorem changeable_cases {result : Except SqliteError Database} {settled : Volume}
    (found : session.changeable volume = (result, settled)) :
    settled.files = volume.files ∧
      (session.archive.batch.hasChanges = false → ∀ rows, result = .ok rows →
        volume.content session.connection.number = .database rows) := by
  have files := session.connection.files_of_look volume pieceTable
  unfold changeable Connection.changeable at found
  by_cases changes : session.archive.batch.hasChanges = true
  · rw [if_pos changes] at found
    obtain ⟨-, rfl⟩ := Prod.mk.inj found
    exact ⟨rfl, fun none => by simp [changes] at none⟩
  rw [if_neg changes] at found
  split at found
  · obtain ⟨rfl, rfl⟩ := Prod.mk.inj found
    exact ⟨rfl, fun _ _ refused => nomatch refused⟩
  · rcases looked : session.connection.look volume pieceTable with ⟨seen, after⟩
    rw [looked] at found files
    cases seen with
    | error error =>
      obtain ⟨rfl, rfl⟩ := Prod.mk.inj found
      exact ⟨files, fun _ _ refused => nomatch refused⟩
    | ok rows =>
      obtain ⟨rfl, rfl⟩ := Prod.mk.inj found
      refine ⟨files, fun _ others allowed => ?_⟩
      have same : rows = others := by
        cases granted : session.connection.allowed after with
        | error error => simp [granted, Except.map] at allowed
        | ok _ => simpa [granted, Except.map] using allowed
      exact same ▸ Connection.content_of_look looked

/-- A session that is started lists the rows it finds. -/
theorem lists_of_start {file : String} {mode : Access} {sizes : PieceSizes} {after : Volume}
    (started : start volume file mode sizes = (.ok session, after)) : session.Lists after := by
  obtain ⟨connection, between, rows, -, found, rfl⟩ := start_cases started
  have same : ∀ {others}, after.content connection.number = .database others → others = rows := by
    intro others stored
    split at found
    · exact Connection.eq_of_prepare found stored
    · exact Connection.eq_of_look found stored
  exact ⟨Archive.inStep_ofDatabase .., fun stored path listed => same stored ▸ listed,
    fun same => Batch.noConfusion same⟩

namespace Lists

/-- What a session lists does not depend on files that are no databases. -/
theorem of_rows (lists : session.Lists volume) {after : Volume}
    (rows_of : after.HasRowsOf volume) : session.Lists after :=
  ⟨lists.inStep, fun stored => lists.stored (rows_of _ _ stored), lists.pending⟩

/-- The rows that a session sees are under paths that it lists. -/
theorem view (lists : session.Lists volume) {rows : Database}
    (content : session.archive.batch.hasChanges = false →
      volume.content session.connection.number = .database rows) :
    ∀ path ∈ (session.archive.view rows).paths, path ∈ session.archive.catalog.names := by
  cases batch : session.archive.batch with
  | changed changes =>
    rw [(view_of_changed batch rows).2]
    exact lists.pending batch
  | idle | begun | lost =>
    rw [batch] at content
    rw [Archive.view, batch]
    exact lists.stored (content rfl)

/-- A session with another catalog lists the rows that it sees once others are settled, if the
catalog has those and what is stored. -/
theorem settle {catalog : Catalog Unit} {committed rows : Database} {after : Volume}
    (inStep : catalog.InStep) (listed : ∀ path ∈ rows.paths, path ∈ catalog.names)
    (stored : ∀ {others}, after.content session.connection.number = .database others →
      ∀ path ∈ others.paths, path ∈ catalog.names) :
    { session with
      archive := ({ session.archive with catalog := catalog }.settle committed rows).1 }.Lists
        after := by
  cases batch : session.archive.batch with
  | idle | lost =>
    simp only [Archive.settle, batch]
    exact ⟨inStep, stored, fun same => Batch.noConfusion same⟩
  | begun | changed =>
    simp only [Archive.settle, batch]
    exact ⟨inStep, stored, fun same => Batch.changed.inj same ▸ listed⟩

/-- A write lists its path, whether it is part of a batch or not; one of which a statement is
refused leaves the rows that were seen. -/
theorem write (lists : session.Lists volume) (engine : Engine) (path : String)
    (contents : List UInt8) (compression : Compression) :
    (session.write volume engine path contents compression).2.1.Lists
      (session.write volume engine path contents compression).2.2 := by
  unfold Session.write
  cases allowed : session.archive.requireWritable with
  | error error => exact lists
  | ok _ =>
    rcases found : session.changeable volume with ⟨result, settled⟩
    obtain ⟨files, content⟩ := changeable_cases found
    have calm := lists.of_rows (Volume.hasRowsOf_of_files files)
    cases result with
    | error error => exact calm
    | ok rows =>
      have seen := lists.view fun unchanged => content unchanged rows rfl
      have held {others : Database} (stored : (session.connection.hold settled).content
          session.connection.number = .database others) :=
        calm.stored (Connection.hasRowsOf_hold _ _ _ _ stored)
      dsimp only
      have viewed : session.archive.view rows = session.archive.view rows := rfl
      rcases Archive.write_cases engine path contents compression allowed viewed with
        done | ⟨error, undone⟩
      · have listed : ∀ other ∈ ((session.archive.view rows).stored engine.compressors
            session.archive.sizes path contents compression).paths,
            other ∈ (session.archive.catalog.insert path ()).names :=
          fun other member => lists.inStep.mem_names_insert.mpr
            ((Database.mem_paths_replace member).imp_right (seen other))
        have kept {names : List String} (before : ∀ other ∈ names,
            other ∈ session.archive.catalog.names) : ∀ other ∈ names,
            other ∈ (session.archive.catalog.insert path ()).names :=
          fun other member => lists.inStep.mem_names_insert.mpr (.inr (before other member))
        rw [done]
        refine settle (lists.inStep.insert path ()) listed fun {others} stored => ?_
        -- Where the rows are is one thing outside of a batch, another in one.
        split at stored
        · exact kept (calm.stored stored)
        · split at stored
          · exact kept (held stored)
          · next unchanged =>
            rw [Connection.eq_of_change stored, Archive.snd_settle unchanged]
            exact listed
      · rw [undone]
        refine settle lists.inStep seen fun {others} stored => ?_
        split at stored
        · exact calm.stored stored
        · split at stored
          · exact held stored
          · exact calm.stored stored

/-- Beginning a batch changes no rows. -/
theorem beginBatch (lists : session.Lists volume) : session.beginBatch.2.Lists volume := by
  unfold Session.beginBatch Archive.beginBatch
  by_cases closed : session.archive.closed = true
  · rw [if_pos closed]
    exact lists
  · rw [if_neg closed]
    by_cases begins : session.archive.mode.canWrite = true ∧ session.archive.batch = .idle
    · rw [if_pos begins]
      exact ⟨lists.inStep, lists.stored, nofun⟩
    · rw [if_neg begins]
      exact lists

/-- Ending a batch stores its rows, or leaves those there were. -/
theorem endBatch (lists : session.Lists volume) :
    (session.endBatch volume).2.1.Lists (session.endBatch volume).2.2 := by
  unfold Session.endBatch
  split
  · exact lists
  unfold commit
  split
  · exact lists
  · exact ⟨lists.inStep, lists.stored, nofun⟩
  · exact lists
  · next rows batch =>
    have committed : ∀ {others}, (session.connection.commit volume rows).2.content
        session.connection.number = .database others → others = rows := Connection.eq_of_commit
    split
    · next after completed =>
      rw [completed] at committed
      exact ⟨lists.inStep, fun stored => committed stored ▸ lists.pending batch, nofun⟩
    · next error after failed =>
      rw [failed] at committed
      exact ⟨lists.inStep, fun stored => committed stored ▸ lists.pending batch, nofun⟩

/-- A read changes no rows. -/
theorem settled (lists : session.Lists volume) (path : String) :
    session.Lists (session.read volume path).2 := by
  have files : (session.committed volume).2.files = volume.files := by
    unfold committed
    split
    · rfl
    · exact session.connection.files_of_look volume fileTable
  have calm := lists.of_rows (Volume.hasRowsOf_of_files files)
  unfold Session.read
  split
  · exact lists
  · split
    · next seen => rwa [seen] at calm
    · next seen => rwa [seen] at calm

/-- A path that is not listed reads as empty, unless no path can be read. -/
theorem read (lists : session.Lists volume) {path : String}
    (unlisted : path ∉ session.archive.catalog.names) :
    (session.read volume path).1 = .ok [] ∨
      ∃ error, ∀ other, (session.read volume other).1 = .error error := by
  unfold Session.read
  by_cases closed : session.archive.closed = true
  · exact .inr ⟨_, fun other => by rw [if_pos closed]⟩
  simp only [if_neg closed]
  rcases seen : session.committed volume with ⟨result, settled⟩
  cases result with
  | error error => exact .inr ⟨_, fun other => rfl⟩
  | ok rows =>
    have content (unchanged : session.archive.batch.hasChanges = false) :
        volume.content session.connection.number = .database rows := by
      rw [committed, unchanged, if_neg Bool.false_ne_true] at seen
      exact Connection.content_of_look seen
    have absent : path ∉ (session.archive.view rows).paths :=
      fun listed => unlisted (lists.view content path listed)
    refine .inl ?_
    dsimp only
    rw [Archive.read, if_neg closed, Database.file?_of_not_mem absent]

end Lists

end Session

end Sqlite

end Trajectory
