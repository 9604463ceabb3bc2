import Trajectory.Accessor.Copy
import Trajectory.Proofs.Accessor.Lineage
import Trajectory.Proofs.Archive.Adrift
import Trajectory.Proofs.Archive.ReadOnly
/-!
# Copies from one file to another

A copy goes by the register, and writes what it reads. The register lists every path once, if no
path begins with a slash, and spells it as it is; what is read does not change while the copy goes
on, as it writes to another file; and what is written is found when the other file is opened again.
-/
namespace Trajectory

namespace Archive

variable {archive own : Archive} {volume : Volume} {told kept : Ledger}

/-- An archive keeps ledgers, unless it is adrift because journals are settled beside it. -/
def KeepsUnless (own : Archive) (settling : Bool) (volume : Volume) (told kept : Ledger) : Prop :=
  own.Keeps volume told kept ∨ settling = true ∧ own.Adrift volume

/-- What keeps ledgers still does while another archive is read. -/
theorem KeepsUnless.read {settling : Bool} (keeps : own.KeepsUnless settling volume told kept)
    (readOnly : archive.ReadOnly) (settles : archive.settles = settling) (path : String) :
    own.KeepsUnless settling (archive.read volume path).2.2 told kept := by
  obtain ⟨pruned, fixed⟩ := readOnly.pruned_read volume path
  rcases keeps with keeps | ⟨upset, adrift⟩
  · cases settling with
    | false =>
      rw [fixed settles]
      exact .inl keeps
    | true => exact (keeps.pruned pruned).imp id fun adrift => ⟨rfl, adrift⟩
  · exact .inr ⟨upset, adrift.pruned pruned⟩

/-- A write that succeeds is kept, if a header spells its path as it is. It spares all files but the
own. -/
theorem KeepsUnless.write {settling : Bool} (keeps : own.KeepsUnless settling volume told kept)
    (libraries : Libraries) (request : Request) (faithful : Tar.Header.Faithful request.path)
    {number : Nat} (at_file : own.number? = some number)
    (written : (own.write volume request libraries).1 = .ok ()) :
    let answer := own.write volume request libraries
    answer.2.1.KeepsUnless settling answer.2.2 (told ++ [(request.path, request.contents)])
        (kept ++ [(request.path, request.contents)]) ∧
      volume.Spares number answer.2.2 := by
  intro answer
  rcases keeps with keeps | ⟨upset, adrift⟩
  · obtain ⟨-, added⟩ | ⟨⟨error, refused⟩, -⟩ := keeps.write libraries request
    · rw [own.spelled_of_faithful faithful] at added
      exact ⟨.inl added, keeps.spares_write at_file request libraries⟩
    · rw [refused] at written
      contradiction
  · obtain ⟨stays, pruned⟩ := adrift.write request libraries
    exact ⟨.inr ⟨upset, stays⟩, .pruned number pruned⟩

end Archive

namespace Accessor

variable {libraries : Libraries} {source target : Accessor} {archive own : Archive}
  {volume : Volume} {told kept : Ledger}

/-- The archive of an accessor that was opened for reading is only read. -/
theorem Attained.readOnly {accessor : Accessor} (attained : accessor.Attained)
    (reads : accessor.mode = .read) (current : accessor.archive = some archive) :
    archive.ReadOnly := by
  induction attained generalizing archive with
  | opened opened =>
    obtain ⟨first, found, rfl⟩ := exists_archive_of_openUsing opened
    obtain rfl := Option.some.inj current
    have mode : Archive.effectiveMode _ _ _ = .read := reads
    rw [mode] at found
    exact (Archive.opened_of_openAs found).readOnly
  | put attained volume draft immediate libraries ih =>
    obtain ⟨first, before, -⟩ := attained.replays
    rw [put_of_some before] at current reads
    exact Option.some.inj current ▸ (ih reads before).write _ libraries
  | read attained volume path ih =>
    obtain ⟨first, before, -⟩ := attained.replays
    rw [read_of_some before] at current reads
    exact Option.some.inj current ▸ ((ih reads before).readsAs volume path).readOnly
  | beginBatch attained ih =>
    obtain ⟨first, before, -⟩ := attained.replays
    rw [beginBatch_of_some before] at current reads
    exact Option.some.inj current ▸ (ih reads before).beginBatch
  | endBatch attained volume ih =>
    obtain ⟨first, before, -⟩ := attained.replays
    rw [endBatch_of_some before] at current reads
    exact Option.some.inj current ▸ (ih reads before).endBatch

/-- Nothing is opened again in the file of an archive that is astray. -/
theorem not_reopened_of_astray {accessor reader : Accessor} {mode : Access} {after : Volume}
    (current : accessor.archive = some archive) (astray : archive.Astray volume) :
    ¬ accessor.Reopened volume mode reader after := by
  rintro ⟨known, closes, undisturbed, opened, continues, same⟩
  obtain rfl := Option.some.inj (known.symm.trans current)
  rw [close, current] at closes
  obtain ⟨-, rest⟩ := Prod.mk.inj closes
  obtain ⟨-, rfl⟩ := Prod.mk.inj rest
  obtain ⟨again, found, rfl⟩ := exists_archive_of_openUsing opened
  obtain rfl := Option.some.inj continues
  exact astray.close.not_opened undisturbed (Archive.opened_of_openAs found) same

/-- A copy under way. One accessor is only read, and gives what the contents of its file tell; the
other keeps ledgers in another file. -/
inductive Copying (given : String → Except ArchiveError (List UInt8)) (settling : Bool)
    (source target : Accessor) (volume : Volume) (told kept : Ledger) : Prop where
  /-- The archives of both, and their files. -/
  | intro {archive own : Archive} {number other : Nat} (reads : source.archive = some archive)
    (readOnly : archive.ReadOnly) (at_file : archive.number? = some number)
    (inside : number < volume.files.length)
    (gives : archive.glimpse (volume.content number) = given)
    (settles : archive.settles = settling) (writes : target.archive = some own)
    (at_other : own.number? = some other) (apart : number ≠ other)
    (keeps : own.KeepsUnless settling volume told kept) :
    Copying given settling source target volume told kept

section Copying

variable {given : String → Except ArchiveError (List UInt8)} {settling : Bool}
  {compression : Compression} {records later : List Record} {record : Record}
  {read : Accessor} {batch : Batch} {left : Volume}

/-- One record is copied: it reads as what is given, and so does every path, and what is read is
kept. The copy goes on with the records that are left. -/
theorem Copying.step (copying : Copying given settling source target volume told kept)
    (faithful : Tar.Header.Faithful record.path)
    (copied : Batch.copyRecords libraries source ⟨target⟩ volume compression (record :: later) =
      (.ok (), read, batch, left)) :
    (∀ path, (source.read volume path).1 = given path) ∧
      ∃ contents next onto between, given record.path = .ok contents ∧
        Copying given settling next onto between (told ++ [(record.path, contents)])
          (kept ++ [(record.path, contents)]) ∧
        Batch.copyRecords libraries next ⟨onto⟩ between compression later =
          (.ok (), read, batch, left) := by
  obtain @⟨archive, own, number, other, reads, readOnly, at_file, inside, rfl, rfl, writes,
    at_other, apart, keeps⟩ := copying
  have pruned := (readOnly.pruned_read volume record.path).1
  have same := readOnly.readsAs volume record.path
  have beside := keeps.read readOnly rfl record.path
  rw [Batch.copyRecords, read_of_some reads] at copied
  rcases answered : archive.read volume record.path with ⟨result, again, between⟩
  rw [answered] at copied pruned same beside
  cases result with
  | error error => simp at copied
  | ok contents =>
    have gives := readOnly.read_eq_glimpse at_file (congrArg Prod.fst answered)
    dsimp only at copied
    rw [Batch.write, put_of_some writes, Option.getD_some] at copied
    let request : Archive.Request := ⟨record.path, contents, compression, false⟩
    have written := beside.write libraries request faithful at_other
    have stays := own.number?_write between request libraries
    rcases taken : own.write between request libraries with ⟨outcome, next, after⟩
    rw [taken] at copied written stays
    cases outcome with
    | error error => simp at copied
    | ok _ =>
      obtain ⟨kept_on, spares⟩ := written rfl
      have within := Nat.lt_of_lt_of_le inside pruned.length
      -- The file that is read is left alone, so that later reads still find it as it was.
      have content : after.content number = volume.content number := by
        rw [spares.content within apart, pruned.content]
      refine ⟨fun path => ?_, contents, _, _, _, ?_, ?_, copied⟩
      · rw [read_of_some reads]
        exact gives path
      · rw [← gives, answered]
      · exact .intro rfl same.readOnly (same.number?.trans at_file)
          (Nat.lt_of_lt_of_le within spares.length) (by rw [content, same.glimpse]) same.settles
          rfl (stays.trans at_other) apart kept_on

/-- All records are copied: what is kept is what each of them reads as. -/
theorem Copying.run (copying : Copying given settling source target volume told kept)
    (faithful : ∀ record ∈ records, Tar.Header.Faithful record.path)
    (copied : Batch.copyRecords libraries source ⟨target⟩ volume compression records =
      (.ok (), read, batch, left)) :
    (records ≠ [] → ∀ path, (source.read volume path).1 = given path) ∧
      ∃ items, items.map Prod.fst = records.map Record.path ∧
        (∀ item ∈ items, given item.1 = .ok item.2) ∧
        Copying given settling read batch.accessor left (told ++ items) (kept ++ items) := by
  induction records generalizing source target volume told kept with
  | nil =>
    obtain ⟨-, rfl, rfl, rfl⟩ := copied
    refine ⟨fun some_record => absurd rfl some_record, [], rfl,
      fun item listed => absurd listed List.not_mem_nil, ?_⟩
    rwa [List.append_nil, List.append_nil]
  | cons record later ih =>
    obtain ⟨gives, contents, next, onto, between, first, goes_on, rest⟩ :=
      copying.step (faithful record List.mem_cons_self) copied
    obtain ⟨-, items, paths, others, copying⟩ :=
      ih goes_on (fun record listed => faithful record (List.mem_cons_of_mem _ listed)) rest
    rw [List.append_assoc, List.append_assoc, List.singleton_append] at copying
    refine ⟨fun _ => gives, (record.path, contents) :: items, ?_, ?_, copying⟩
    · rw [List.map_cons, List.map_cons, paths]
    · exact List.forall_mem_cons.mpr ⟨first, others⟩

end Copying

/-- A copy that succeeds begins a batch, copies every record of the register, and ends the batch. -/
theorem copyTo_cases {compression : Compression} {count : Nat}
    (copied : (source.copyTo target volume compression libraries).result = .ok count) :
    ∃ batch records read written left ended after,
      Batch.start target = .ok batch ∧ source.query Register.records = .ok records ∧
      batch.copyRecords libraries source volume compression records =
        (.ok (), read, written, left) ∧
      written.finish left = (.ok (), ended, after) ∧ count = records.length ∧
      source.copyTo target volume compression libraries = ⟨.ok count, read, ended, after⟩ := by
  unfold copyTo at copied ⊢
  cases starts : Batch.start target with
  | error fault => simp [starts] at copied
  | ok batch =>
    rw [starts] at copied
    dsimp only at copied ⊢
    cases answers : source.query Register.records with
    | error error => simp [answers] at copied
    | ok records =>
      rw [answers] at copied
      dsimp only at copied ⊢
      rcases copies : batch.copyRecords libraries source volume compression records with
        ⟨error | done, read, written, left⟩
      · simp [copies] at copied
      · rw [copies] at copied
        dsimp only at copied ⊢
        rcases ends : written.finish left with ⟨error | done, ended, after⟩
        · simp [ends, Except.map] at copied
        · rw [ends] at copied
          obtain rfl := Except.ok.inj copied
          exact ⟨batch, records, read, written, left, ended, after, rfl, rfl, copies, ends, rfl,
            rfl⟩

/-- What a whole copy leaves: as many entries as the first archive has, each once and as it reads,
that the other archive keeps unless its file is not found any more. -/
theorem copyTo_keeps {compression : Compression} {count number : Nat} (attained : source.Attained)
    (reads : source.mode = .read) (current : source.archive = some archive)
    (at_file : archive.number? = some number) (inside : number < volume.files.length)
    (plain : ∀ name ∈ archive.known, Tar.Header.Plain name ∧ name.toList.head? ≠ some '/')
    (writes : target.archive = some own) (apart : own.number? ≠ some number)
    (keeps : own.Keeps volume told kept)
    (copied : (source.copyTo target volume compression libraries).result = .ok count) :
    let after := source.copyTo target volume compression libraries
    ∃ next items, after.target.archive = some next ∧ count = items.length ∧
      (items.map Prod.fst).Perm archive.known ∧
      (∀ item ∈ items, (source.read volume item.1).1 = .ok item.2) ∧
      (next.Keeps after.volume (told ++ items) (kept ++ items) ∨
        archive.settles = true ∧ next.Astray after.volume) := by
  obtain ⟨batch, records, read, written, left, ended, last, starts, answers, copies, ends, rfl,
    whole⟩ := copyTo_cases copied
  obtain rfl := Except.ok.inj (answers.symm.trans (attained.query_eq current Register.records))
  have listed := Register.paths_records_perm (attained.replays_current current).nodup
    fun name member => (plain name member).2
  obtain ⟨begun, keepsOn⟩ := keeps.beginBatch
  rw [Batch.start, beginBatch_of_some writes, begun] at starts
  obtain rfl := Except.ok.inj starts
  obtain ⟨other, at_other⟩ : ∃ other, own.number? = some other := by
    cases keeps with
    | writing | reading | database => exact ⟨_, rfl⟩
  have distinct : number ≠ other := fun same => apart (same ▸ at_other)
  have faithful : ∀ record ∈ (Register.ofPaths archive.known).records,
      Tar.Header.Faithful record.path := fun record member =>
    Tar.Header.faithful_of_plain (plain _ (listed.subset (List.mem_map_of_mem member))).1
  have readOnly := attained.readOnly reads current
  have copying : Copying (archive.glimpse (volume.content number)) archive.settles source
      { target with archive := some own.beginBatch.2 } volume told kept :=
    .intro current readOnly at_file inside rfl rfl rfl (own.number?_beginBatch.trans at_other)
      distinct (.inl keepsOn)
  obtain ⟨gives, items, paths, given, ⟨-, -, -, -, -, -, writes, -, -, kept_on⟩⟩ :=
    copying.run faithful copies
  rw [Batch.finish, endBatch_of_some writes] at ends
  obtain ⟨done, rest⟩ := Prod.mk.inj ends
  obtain ⟨rfl, rfl⟩ := Prod.mk.inj rest
  rw [whole]
  refine ⟨_, items, rfl, ?_, paths ▸ listed, fun item member => ?_, ?_⟩
  · rw [← List.length_map Prod.fst, paths, List.length_map]
  · have some_record : (Register.ofPaths archive.known).records ≠ [] := by
      intro none
      rw [none, List.map_nil, List.map_eq_nil_iff] at paths
      rw [paths] at member
      contradiction
    rw [gives some_record, given item member]
  · rcases kept_on with keeps | ⟨upset, adrift⟩
    · exact .inl keeps.endBatch.2
    · exact .inr ⟨upset, adrift.endBatch done⟩

/-- What is opened for reading in the file of an archive that was closed reads and lists what there
was to be of it. -/
theorem Reopened.reads {accessor reader : Accessor} {base : Volume}
    (reopened : accessor.Reopened volume .read reader base)
    (current : accessor.archive = some archive) (keeps : archive.Keeps volume told kept) :
    (∀ path, (reader.read base path).1 = .ok (kept.latest path)) ∧
      ∃ listed, reader.paths = .ok listed ∧ ∀ path, path ∈ listed ↔ path ∈ kept.map Prod.fst := by
  obtain ⟨again, found, continues, -, keepsAgain, same⟩ := reopened.keeps current keeps
  obtain rfl := same rfl
  have readOnly : again.ReadOnly := by
    obtain ⟨-, -, -, opened, -, -⟩ := reopened
    obtain ⟨first, found, rfl⟩ := exists_archive_of_openUsing opened
    obtain rfl := Option.some.inj continues
    exact (Archive.opened_of_openAs found).readOnly
  refine ⟨fun path => ?_, _, reopened.attained.paths_eq continues, fun path => ?_⟩
  · rw [read_of_some continues]
    exact (keepsAgain.read path).2 (readOnly.mode_ne keepsAgain)
  · rw [keepsAgain.known_perm.mem_iff, Ledger.mem_byFirst]

/-- A copy copies everything and nothing else. From an accessor that was opened for reading, whose
paths are plain and begin with no slash, to one of another tar file or database, in any state: if
it succeeds it counts every entry. The other accessor can be closed then, and opened for reading
where it can be found, unless the copy was read over a connection that may change its database, and
so may have removed a file. Whatever is opened for reading in the same file reads every path of the
first accessor as that does, reads every other path as if it had been closed before the copy, and
lists no others than would have been listed then and those that were copied. -/
theorem copyTo_copies {takes : String → Prop} {compression : Compression} {count number : Nat}
    (attained : source.Attained) (reads : source.mode = .read)
    (current : source.archive = some archive) (at_file : archive.number? = some number)
    (inside : number < volume.files.length)
    (plain : ∀ name ∈ archive.known, Tar.Header.Plain name ∧ name.toList.head? ≠ some '/')
    (lineage : target.Lineage takes volume) (writes : target.archive = some own)
    (apart : own.number? ≠ some number)
    (copied : (source.copyTo target volume compression libraries).result = .ok count) :
    let after := source.copyTo target volume compression libraries
    source.size = .ok count ∧
    (archive.settles = false → ∃ next closed left, after.target.archive = some next ∧
      after.target.close after.volume = (.ok (), closed, left) ∧
      ∀ path, next.Findable left path →
        ∃ reader, after.target.Reopened after.volume .read reader left) ∧
    ∀ reader base, after.target.Reopened after.volume .read reader base →
      (∀ name ∈ archive.known, ∃ contents, (source.read volume name).1 = .ok contents ∧
        (reader.read base name).1 = .ok contents) ∧
      ∀ before first, target.Reopened volume .read before first →
        (∀ path ∉ archive.known, (reader.read base path).1 = (before.read first path).1) ∧
        ∃ listed held, reader.paths = .ok listed ∧ before.paths = .ok held ∧
          ∀ path, path ∈ listed ↔ path ∈ archive.known ∨ path ∈ held := by
  intro after
  obtain ⟨told, kept, keeps, -⟩ := lineage.keeps_current writes
  obtain ⟨next, items, continues, rfl, paths, given, kept_on⟩ :=
    copyTo_keeps attained reads current at_file inside plain writes apart keeps copied
  have replays := attained.replays_current current
  refine ⟨?_, fun fixed => ?_, fun reader base reopened => ?_⟩
  · rw [size, Accessor.current, current]
    dsimp only
    rw [Archive.size, replays.requireOpen, ← paths.length_eq, List.length_map]
  · rcases kept_on with keeps | ⟨upset, -⟩
    · obtain ⟨left, closes, -⟩ := close_of_keeps continues keeps
      exact ⟨next, _, left, continues, closes,
        fun path found => reopened_of_findable continues keeps closes found⟩
    · rw [fixed] at upset
      contradiction
  · rcases kept_on with keepsAll | ⟨-, astray⟩
    · obtain ⟨reading, listed, lists, member⟩ := reopened.reads continues keepsAll
      refine ⟨fun name of_source => ?_, fun before first earlier => ?_⟩
      · obtain ⟨item, among, rfl⟩ := List.mem_map.mp (paths.mem_iff.mpr of_source)
        refine ⟨item.2, given item among, ?_⟩
        rw [reading, Ledger.latest_append_of_nodup (paths.nodup_iff.mpr replays.nodup) among]
      · obtain ⟨readBefore, held, heldBefore, memberBefore⟩ := earlier.reads writes keeps
        refine ⟨fun path elsewhere => ?_, listed, held, lists, heldBefore, fun path => ?_⟩
        · rw [reading, readBefore, Ledger.latest_append_of_not_mem]
          exact fun among => elsewhere (paths.mem_iff.mp among)
        · rw [member, List.map_append, List.mem_append, paths.mem_iff, memberBefore, or_comm]
    · exact absurd reopened (not_reopened_of_astray continues astray)

/-- A database for which a session starts is opened for reading. -/
theorem openUsing_read_sqlite {config : Config} {after : Volume} {path : String}
    {session : Sqlite.Session} (kind : config.kind.getD (.ofPath path) = .sqlite)
    (started : Sqlite.Session.start volume path .read config.sizes = (.ok session, after)) :
    openUsing config volume path .read =
      ⟨.ok (ofArchive path .read config.compression (.sqlite session)), after, none⟩ := by
  have mode : Archive.effectiveMode volume path .read = .read := rfl
  rw [openUsing, mode, kind, Archive.openAs, Archive.openSqlite, Archive.startSqlite, started]
  rfl

/-- The frames of two types are copied from one database to another, in which they are compressed
and which holds something else, and are read there after that is closed. -/
theorem copyTo_copies_database :
    let frames : List (String × List UInt8) := [("frames/1/x", [7]), ("frames/2/y", [8, 8])]
    ∃ (source target : Accessor) (volume : Volume) (reader : Accessor) (base : Volume),
      source.Attained ∧ source.mode = .read ∧ target.Lineage (fun _ => True) volume ∧
      source.paths = .ok (frames.map Prod.fst) ∧ target.paths = .ok ["b"] ∧
      let after := source.copyTo target volume .slow
      after.result = .ok 2 ∧ after.target.Reopened after.volume .read reader base ∧
        (∀ frame ∈ frames, (reader.read base frame.1).1 = .ok frame.2) ∧
        (reader.read base "b").1 = .ok [1] := by
  intro frames
  let catalog (names : List String) : Catalog Unit := .ofList (names.map fun name => (name, ()))
  let session (file : String) (number : Nat) (mode : Access) (catalog : Catalog Unit) :
      Sqlite.Session :=
    ⟨file, ⟨number, some file, mode.canWrite⟩, ⟨mode, .standard, catalog, .idle, false⟩⟩
  let found := session "s.sqlite" 1 .read (.ofNames ["frames/1/x", "frames/2/y"])
  let again := session "t.sqlite" 0 .read (.ofNames ["b"])
  let source : Accessor := .ofArchive "s.sqlite" .read .fast (.sqlite found)
  let target (names : List String) : Accessor :=
    .ofArchive "t.sqlite" .write .fast (.sqlite (session "t.sqlite" 0 .write (catalog names)))
  let rows : Sqlite.Database := ⟨[⟨"frames/1/x", 1, 1, 0⟩, ⟨"frames/2/y", 2, 2, 0⟩],
    [⟨"frames/1/x", [7], 0⟩, ⟨"frames/2/y", [8, 8], 0⟩], by decide⟩
  let held : Sqlite.Database := ⟨[⟨"b", 1, 1, 0⟩], [⟨"b", [1], 0⟩], by decide⟩
  let alone (rows : Sqlite.Database) : Volume :=
    ⟨[(["t.sqlite"], .file 0)], [.database rows], [], 0⟩
  let volume : Volume := ⟨[(["t.sqlite"], .file 0), (["s.sqlite"], .file 1)],
    [.database held, .database rows], [], 0⟩
  have attained : source.Attained :=
    .opened (@openUsing_read_sqlite volume .standard volume "s.sqlite" found (by decide +kernel)
      (by decide +kernel))
  have lineage : (target ["b"]).Lineage (fun _ => True) volume := by
    have created : openUsing .standard (.empty 0) "t.sqlite" .write =
        ⟨.ok (target []), alone .empty, none⟩ := rfl
    have new : ∀ rows, (Volume.empty 0).content 0 ≠ .database rows := by
      intro rows
      simp [Volume.content, Volume.empty]
    have stored : (target []).put (alone .empty) ⟨"b", [1], some .none⟩ true =
        (.ok (), target ["b"], alone held) := by
      decide +kernel
    have beside : ∀ home, some "t.sqlite" = some home →
        volume.openFile home = (alone held).openFile home ∧
          volume.find (Sqlite.journal home) = (alone held).find (Sqlite.journal home) := by
      intro home same
      obtain rfl := Option.some.inj same
      decide +kernel
    have start : (target []).Lineage (fun _ => True) (alone .empty) :=
      .created (Volume.sound_empty 0) created rfl new
    have written := start.put ⟨"b", [1], some .none⟩ true .literal trivial
    rw [stored] at written
    exact .elsewhere written rfl ⟨by decide, rfl, rfl, beside⟩
  -- The target as it would be opened without the copy.
  have before : (target ["b"]).Reopened volume .read
      (.ofArchive "t.sqlite" .read .fast (.sqlite again)) volume := by
    have closed : (target ["b"]).close volume =
        (.ok (), { target ["b"] with archive := none }, volume) := by
      decide +kernel
    have opened := @openUsing_read_sqlite volume .standard volume "t.sqlite" again
      (by decide +kernel) (by decide +kernel)
    exact .intro rfl closed ⟨Nat.le_refl _, rfl, rfl, fun _ _ => ⟨rfl, rfl⟩⟩ opened rfl ⟨rfl, rfl⟩
  have copied : (source.copyTo (target ["b"]) volume .slow).result = .ok 2 := by decide +kernel
  have current : (source.copyTo (target ["b"]) volume .slow).target.archive =
      (target ["b", "frames/1/x", "frames/2/y"]).archive := by
    decide +kernel
  have given : ∀ frame ∈ frames, (source.read volume frame.1).1 = .ok frame.2 := by decide +kernel
  obtain ⟨-, closes, reads⟩ := copyTo_copies attained rfl rfl rfl (by decide) (by decide +kernel)
    lineage rfl (by decide) copied
  obtain ⟨next, closed, left, continues, -, opens⟩ := closes rfl
  obtain rfl := Option.some.inj (current.symm.trans continues)
  obtain ⟨reader, reopened⟩ := opens "t.sqlite" ⟨rfl, Option.some_ne_none _, _, rfl⟩
  obtain ⟨among, others⟩ := reads reader left reopened
  refine ⟨source, target ["b"], volume, reader, left, attained, rfl, lineage, rfl, rfl, copied,
    reopened, fun frame member => ?_, ?_⟩
  · obtain ⟨contents, here, there⟩ := among frame.1 (List.mem_map_of_mem member)
    rw [there, ← here, given frame member]
  · have kept := (others _ _ before).1 "b" (by decide +kernel)
    rw [kept]
    decide +kernel

end Accessor

end Trajectory
