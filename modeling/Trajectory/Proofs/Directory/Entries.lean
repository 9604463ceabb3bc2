import Trajectory.Proofs.Directory.Names
/-!
# Entries of a directory

An archive that is written in a directory which did not exist before. Every entry that was written
is read from the file in which it was written last, under whichever of the paths of that file;
entries in other files are not touched. The files are enumerated when the directory is opened
again, each under the name by which it is found.
-/
namespace Trajectory.Directory

open Volume (below)

/-- An archive in a directory under way, with the writes that it took. -/
structure Course where
  /-- The archive. -/
  archive : Archive
  /-- The volume. -/
  volume : Volume
  /-- The writes that succeeded, in order. -/
  taken : Ledger
  deriving DecidableEq, Repr

namespace Course

/-- The archive after a write. -/
def write (course : Course) (path : String) (contents : List UInt8) : Course :=
  match course.archive.write course.volume path contents with
  | (.ok (), archive, volume) => ⟨archive, volume, course.taken ++ [(path, contents)]⟩
  | (.error _, archive, volume) => ⟨archive, volume, course.taken⟩

/-- The archive after several writes in order. -/
def run (course : Course) (writes : Ledger) : Course :=
  writes.foldl (fun course (path, contents) => course.write path contents) course

/-- The paths that were written. -/
def paths (course : Course) : List String := course.taken.map (·.1)

/-- The writes under the names by which the entries are enumerated. -/
def spelled (course : Course) : Ledger :=
  course.taken.map fun (path, contents) => (entryName path, contents)

/-- The writes under the names by which the entries are found. -/
def found (course : Course) : Ledger :=
  course.taken.map fun (path, contents) => (foundName path, contents)

end Course

variable {archive : Archive} {volume : Volume} {place : Place}

/-- Make the directories that lead to a path. -/
def makeAbove (volume : Volume) (path : String) : Except IoError Unit × Volume :=
  match Volume.above (Volume.segments path).reverse with
  | some outer => volume.makeAll outer
  | none => (.ok (), volume)

/-- They are made where nothing stood. -/
theorem paves_makeAbove (volume : Volume) (path : String) :
    volume.Paves (makeAbove volume path).2 := by
  rw [makeAbove]
  cases Volume.above (Volume.segments path).reverse with
  | none => exact .refl volume
  | some outer => exact .makeAll volume outer

/-- A write makes the directories that lead to its file, and saves that. -/
theorem Archive.write_of_target (isOpen : archive.closed = false) (writes : archive.mode ≠ .read)
    {path target : String} (taken : target? archive.root path = some target) (volume : Volume)
    (contents : List UInt8) :
    archive.write volume path contents =
      match makeAbove volume target with
      | (.error fault, after) => (.error (.io fault), archive, after)
      | (.ok (), after) =>
        match after.save target contents with
        | (.error fault, after) => (.error (.io fault), archive, after)
        | (.ok (), after) =>
          (.ok (), { archive with catalog := archive.catalog.insert (entryName path) () },
            after) := by
  rw [Archive.write, if_neg (Bool.not_eq_true _ ▸ isOpen), if_neg writes, taken]
  rfl

/-- A write that fails may make directories. One that succeeds saves the file of its path. -/
theorem Archive.write_cases (isOpen : archive.closed = false) (writes : archive.mode ≠ .read)
    (volume : Volume) (path : String) (contents : List UInt8) :
    (∃ error after, archive.write volume path contents = (.error error, archive, after) ∧
      volume.Paves after) ∨
      ∃ target between here name number after,
        archive.write volume path contents =
          (.ok (), { archive with catalog := archive.catalog.insert (entryName path) () },
            after) ∧
        target? archive.root path = some target ∧ volume.Paves between ∧
        between.Leads target here name ∧ between.Saves (here ++ [name]) number contents after := by
  cases taken : target? archive.root path with
  | none =>
    refine .inl ⟨.invalidPath (.refused path), volume, ?_, .refl volume⟩
    rw [Archive.write, isOpen, if_neg Bool.false_ne_true, if_neg writes, taken]
  | some target =>
    have written := Archive.write_of_target isOpen writes taken volume contents
    have paves := paves_makeAbove volume target
    rcases made : makeAbove volume target with ⟨fault | done, between⟩
    · rw [made] at written paves
      exact .inl ⟨_, between, written, paves⟩
    · rw [made] at written paves
      dsimp only at written
      rcases between.save_cases target contents with
        ⟨fault, failed⟩ | ⟨here, name, number, after, saved, leads, saves⟩
      · rw [failed] at written
        exact .inl ⟨_, between, written, paves⟩
      · rw [saved] at written
        exact .inr ⟨target, between, here, name, number, after, written, rfl, paves, leads, saves⟩

namespace Course

/-- An archive holds in its directory what it has taken. -/
structure Holds (course : Course) (root : String) (place : Place) : Prop where
  /-- It is open. -/
  isOpen : course.archive.closed = false
  /-- It may write. -/
  writes : course.archive.mode ≠ .read
  /-- It is the archive in the directory. -/
  rooted : course.archive.root = root
  /-- The directory is there. -/
  directory : course.volume.find root = .ok (place, .directory)
  /-- The paths that it enumerates are in step with the set of them. -/
  inStep : course.archive.catalog.InStep
  /-- It enumerates the paths that were written, without the slashes at their front. -/
  names : course.archive.catalog.names = course.spelled.byFirst
  /-- The files in the directory are those that were written. -/
  stores : course.volume.Stores place course.found
  /-- Every path that was written leads to its file. -/
  leads : ∀ path ∈ course.paths, ∃ target here name,
    target? root path = some target ∧ course.volume.Leads target here name ∧
      here ++ [name] = below place (foundName path)

namespace Holds

variable {course : Course} {root : String}

/-- Directories that are made change nothing of it. -/
theorem paves (holds : course.Holds root place) {after : Volume}
    (paves : course.volume.Paves after) :
    Holds ⟨course.archive, after, course.taken⟩ root place where
  isOpen := holds.isOpen
  writes := holds.writes
  rooted := holds.rooted
  directory := Volume.find_directory_congr (fun _ => paves.directory) holds.directory
  inStep := holds.inStep
  names := holds.names
  stores := holds.stores.paves paves
  leads path among := by
    obtain ⟨target, here, name, taken, leads, stands⟩ := holds.leads path among
    exact ⟨target, here, name, taken, leads.congr fun _ => paves.directory, stands⟩

/-- A file that is saved is held. -/
theorem saves (holds : course.Holds root place) {path target name : String} {here : Place}
    {contents : List UInt8} {number : Nat} {after : Volume}
    (taken : target? root path = some target) (leads : course.volume.Leads target here name)
    (saves : course.volume.Saves (here ++ [name]) number contents after) :
    Holds ⟨{ course.archive with catalog := course.archive.catalog.insert (entryName path) () },
      after, course.taken ++ [(path, contents)]⟩ root place := by
  have walked := (Volume.find_eq_ok_iff.mp holds.directory).2.1
  have stands := place_of_target walked taken leads
  have leads_after {other : String} {there : Place} {last : String}
      (before : course.volume.Leads other there last) : after.Leads other there last :=
    before.congr fun _ => saves.directory
  refine ⟨holds.isOpen, holds.writes, holds.rooted, ?_, holds.inStep.insert .., ?_, ?_,
    fun other among => ?_⟩
  · exact Volume.find_directory_congr (fun _ => saves.directory) holds.directory
  · rw [spelled, List.map_append, List.map_singleton, Ledger.byFirst_append_singleton]
    rw [holds.inStep.names_insert, holds.names]
    rfl
  · rw [found, List.map_append, List.map_singleton]
    exact holds.stores.saves (stands ▸ saves)
  · rw [paths, List.map_append, List.mem_append, List.map_singleton, List.mem_singleton] at among
    rcases among with before | rfl
    · obtain ⟨target_before, there, last, taken_before, leads_before, stands_before⟩ :=
        holds.leads other before
      exact ⟨_, _, _, taken_before, leads_after leads_before, stands_before⟩
    · exact ⟨_, _, _, taken, leads_after leads, stands⟩

/-- A write keeps it so, whether it succeeds or not. -/
theorem write (holds : course.Holds root place) (path : String) (contents : List UInt8) :
    (course.write path contents).Holds root place := by
  rcases Archive.write_cases holds.isOpen holds.writes course.volume path contents with
    ⟨error, after, failed, paves⟩ |
      ⟨target, between, here, name, number, after, written, taken, paves, leads, saves⟩
  · rw [Course.write, failed]
    exact holds.paves paves
  · rw [Course.write, written]
    exact (holds.paves paves).saves (holds.rooted ▸ taken) leads saves

/-- So do several writes. -/
theorem run (holds : course.Holds root place) (writes : Ledger) :
    (course.run writes).Holds root place := by
  induction writes generalizing course with
  | nil => exact holds
  | cons write later ih => exact ih (holds.write write.1 write.2)

/-- A path that was written reads as what was written last under the name by which it is found. -/
theorem read (holds : course.Holds root place) {path : String} (among : path ∈ course.paths) :
    course.archive.read course.volume path = .ok (course.found.latest (foundName path)) := by
  obtain ⟨target, here, name, taken, leads, stands⟩ := holds.leads path among
  have written : foundName path ∈ course.found.map (·.1) := by
    obtain ⟨write, member, rfl⟩ := List.mem_map.mp among
    exact List.mem_map.mpr ⟨_, List.mem_map_of_mem member, rfl⟩
  obtain ⟨number, standing, content⟩ := holds.stores.stored _ written
  rw [Archive.read, holds.isOpen, if_neg Bool.false_ne_true, holds.rooted, taken]
  dsimp only
  rw [Volume.load, Volume.openFile, leads.find, stands, standing]
  dsimp only
  rw [Volume.bytes_of_content content]

/-- A write does not change what is read from another file. -/
theorem read_write_of_ne (holds : course.Holds root place) {path other : String}
    (among : path ∈ course.paths) (apart : foundName path ≠ foundName other)
    (contents : List UInt8) :
    (course.write other contents).archive.read (course.write other contents).volume path =
      course.archive.read course.volume path := by
  have taken : (course.write other contents).taken = course.taken ∨
      (course.write other contents).taken = course.taken ++ [(other, contents)] := by
    rw [Course.write]
    split
    · exact .inr rfl
    · exact .inl rfl
  have still : path ∈ (course.write other contents).paths ∧
      (course.write other contents).found.latest (foundName path) =
        course.found.latest (foundName path) := by
    unfold paths found
    rcases taken with same | longer
    · rw [same]
      exact ⟨among, rfl⟩
    · rw [longer, List.map_append, List.map_append, List.map_singleton, List.map_singleton,
        Ledger.latest_append_singleton, if_neg apart]
      exact ⟨List.mem_append_left _ among, rfl⟩
  rw [(holds.write other contents).read still.1, still.2, holds.read among]

end Holds

end Course

/-- The slashes at the front of a path do not matter to reading. -/
theorem Archive.read_entryName (archive : Archive) (volume : Volume) (path : String) :
    archive.read volume (entryName path) = archive.read volume path := by
  rw [Archive.read, Archive.read, target?_entryName]

/-- A directory that is opened to be written is made where it is missing, and the archive
enumerates nothing. -/
theorem made_of_openRoot {root : String} {after : Volume} (named : root ≠ "")
    (opened : openRoot volume root .write = (.ok archive, after)) :
    archive = ⟨root, .write, .empty, false⟩ ∧ volume.Paves after ∧
      ∃ place, after.find root = .ok (place, .directory) := by
  unfold openRoot at opened
  dsimp only at opened
  split at opened
  · simp at opened
  · rw [if_neg (by simp)] at opened
    have paves := Volume.Paves.makeAll volume (Volume.segments root).reverse
    split at opened
    · next left made =>
      obtain ⟨result, rfl⟩ := Prod.mk.inj opened
      refine ⟨(Except.ok.inj result).symm, ?_, Volume.find_of_makeDirectories named made⟩
      rw [Volume.makeDirectories] at made
      rw [made] at paves
      exact paves
    · simp at opened

/-- A directory that is there can be opened for reading. -/
theorem openRoot_read_of_find {root : String}
    (found : volume.find root = .ok (place, .directory)) :
    openRoot volume root .read =
      (.ok ⟨root, .read, .ofList ((fileNames volume place).map fun name => (name, ())), false⟩,
        volume) := by
  have directory : volume.isDirectory root = true := by
    rw [Volume.isDirectory, found]
  unfold openRoot
  dsimp only
  rw [if_neg fun misses => misses.2 directory, if_pos (.inl rfl), found]

/-- The writes to a directory that did not exist before go to files of their own, by the names
under which they are found: without slashes at the front, empty segments and single dots. Every
path that was written reads as what was written last under its name, whatever was written under
other names; the archive enumerates the paths as they were spelled, and the directory, opened again
for reading, the names, and gives the same for every path. As long as every path is spelled as it is
found, these are the same. -/
theorem entries_stand_apart {after : Volume} {root : String} (sound : volume.Sound)
    (named : root ≠ "") (opened : openRoot volume root .write = (.ok archive, after))
    (new : ∀ place, after.find root = .ok (place, .directory) →
      ∀ entry ∈ volume.nodes, ¬place <+: entry.1) (writes : Ledger) :
    let course := (Course.mk archive after []).run writes
    course.archive.catalog.names = course.spelled.byFirst ∧
      (∀ path, path ∈ course.paths ∨ path ∈ course.archive.catalog.names →
        course.archive.read course.volume path = .ok (course.found.latest (foundName path))) ∧
      (∀ path ∈ course.paths, ∀ other contents, foundName path ≠ foundName other →
        (course.write other contents).archive.read (course.write other contents).volume path =
          course.archive.read course.volume path) ∧
      ∃ reader, openRoot course.volume root .read = (.ok reader, course.volume) ∧
        (∀ name, name ∈ reader.catalog.names ↔ name ∈ course.found.map (·.1)) ∧
        (∀ path, reader.read course.volume path = course.archive.read course.volume path) ∧
        ((∀ path ∈ course.paths, foundName path = entryName path) →
          (∀ path ∈ course.paths,
            course.archive.read course.volume path =
              .ok (course.spelled.latest (entryName path))) ∧
          ∀ name, name ∈ reader.catalog.names ↔ name ∈ course.archive.catalog.names) := by
  intro course
  obtain ⟨rfl, paves, place, found⟩ := made_of_openRoot named opened
  have start : Course.Holds ⟨⟨root, .write, .empty, false⟩, after, []⟩ root place :=
    ⟨rfl, by simp, rfl, found, .empty, rfl, (Volume.stores_nil sound (new place found)).paves paves,
      by simp [Course.paths]⟩
  have holds : course.Holds root place := start.run writes
  have reader_names (name : String) :
      name ∈ (Catalog.ofList ((fileNames course.volume place).map fun name => (name, ()))).names ↔
        name ∈ course.found.map (·.1) := by
    have same : Prod.fst ∘ (fun name : String => (name, ())) = id := rfl
    rw [Catalog.names_ofList, List.mem_eraseDups, List.map_map, same, List.map_id,
      mem_fileNames holds.stores]
  refine ⟨holds.names, fun path known => ?_, fun path among other contents apart =>
    holds.read_write_of_ne among apart contents, _, openRoot_read_of_find holds.directory,
    reader_names, fun path => ?_, fun same => ?_⟩
  · rcases known with among | listed
    · exact holds.read among
    · rw [holds.names, Ledger.mem_byFirst, Course.spelled, List.map_map] at listed
      obtain ⟨write, member, rfl⟩ := List.mem_map.mp listed
      show course.archive.read course.volume (entryName write.1) =
        .ok (course.found.latest (foundName (entryName write.1)))
      rw [Archive.read_entryName, foundName_entryName]
      exact holds.read (List.mem_map_of_mem member)
  · rw [Archive.read, Archive.read, holds.isOpen, holds.rooted]
  · have ledgers : course.found = course.spelled :=
      List.map_congr_left fun write member =>
        congrArg (·, write.2) (same write.1 (List.mem_map_of_mem member))
    refine ⟨fun path among => ?_, fun name => ?_⟩
    · rw [holds.read among, same path among, ledgers]
    · rw [reader_names, ledgers, holds.names, Ledger.mem_byFirst]

/-- Two files, one of them written under two paths. -/
theorem entries_stand_apart_two :
    ∃ course : Course,
      course = (Course.mk ⟨"d/", .write, .empty, false⟩ ⟨[(["d"], .directory)], [], [], 0⟩ []).run
          [("a/b", [1]), ("c", [2]), ("/a/./b", [3])] ∧
        course.archive.catalog.names = ["a/b", "c", "a/./b"] ∧
        course.archive.read course.volume "a/b" = .ok [3] ∧
        course.archive.read course.volume "c" = .ok [2] ∧
        ∃ reader, openRoot course.volume "d/" .read = (.ok reader, course.volume) ∧
          ∀ name, name ∈ reader.catalog.names ↔ name = "a/b" ∨ name = "c" := by
  have opened : openRoot (.empty 0) "d/" .write =
      (.ok ⟨"d/", .write, .empty, false⟩, ⟨[(["d"], .directory)], [], [], 0⟩) := by
    decide +kernel
  obtain ⟨names, reads, -, reader, again, listed, -⟩ :=
    entries_stand_apart (Volume.sound_empty 0) (by decide) opened (by simp [Volume.empty])
      [("a/b", [1]), ("c", [2]), ("/a/./b", [3])]
  refine ⟨_, rfl, names.trans (by decide +kernel), ?_, ?_, reader, again, fun name => ?_⟩
  · exact (reads "a/b" (.inl (by decide +kernel))).trans (by decide +kernel)
  · exact (reads "c" (.inl (by decide +kernel))).trans (by decide +kernel)
  · have found : ((Course.mk ⟨"d/", .write, .empty, false⟩
        ⟨[(["d"], .directory)], [], [], 0⟩ []).run
          [("a/b", [1]), ("c", [2]), ("/a/./b", [3])]).found.byFirst = ["a/b", "c"] := by
      decide +kernel
    rw [listed, ← Ledger.mem_byFirst, found]
    simp

/-- Two paths of the same file are enumerated as two entries, but what is written under one is lost
when the other is written. -/
theorem spellings_share_file :
    let course := (Course.mk ⟨"d/", .write, .empty, false⟩
      ⟨[(["d"], .directory)], [], [], 0⟩ []).run
      [("a/b", [1]), ("a//b", [2])]
    openRoot (.empty 0) "d/" .write =
        (.ok ⟨"d/", .write, .empty, false⟩, ⟨[(["d"], .directory)], [], [], 0⟩) ∧
      course.taken = [("a/b", [1]), ("a//b", [2])] ∧
      course.archive.catalog.names = ["a/b", "a//b"] ∧
      course.archive.read course.volume "a/b" = .ok [2] := by
  decide +kernel

end Trajectory.Directory
