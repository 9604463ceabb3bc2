import Trajectory.Proofs.Directory.Confinement
/-!
# Reading what is not there

The ways in which there can be no file at a path, each with the fault that opening one there has: a
name is missing in a directory, a file stands where a directory should be, a name is too long, or
the whole path leads to a directory. An archive in a directory reads as empty only where a name is
missing, and at the paths that it does not take; everywhere else it gives the fault.
-/
namespace Trajectory.Volume

variable {volume : Volume} {base names : List String} {place here there : Place}
  {path name : String} {fault : IoError}

/-- Why the segments of a path lead from a directory to no file, and the fault of it. -/
inductive Miss (volume : Volume) (place : Place) (names : List String) : IoError → Prop where
  /-- A directory on the way has no entry of the name. -/
  | absent {before after : List String} {name : String} {here : Place}
    (parts : names = before ++ name :: after) (walked : volume.walk place before = .ok here)
    (directory : volume.nodeAt here = some .directory) (plain : Plain name)
    (vacant : volume.nodeAt (here ++ [name]) = none) : Miss volume place names .notFound
  /-- A file stands on the way. -/
  | through {before after : List String} {name : String} {here : Place} {number : Nat}
    (parts : names = before ++ name :: after) (walked : volume.walk place before = .ok here)
    (file : volume.nodeAt here = some (.file number)) : Miss volume place names .notDirectory
  /-- A name that is too long is looked for in a directory on the way. -/
  | long {before after : List String} {name : String} {here : Place}
    (parts : names = before ++ name :: after) (walked : volume.walk place before = .ok here)
    (directory : volume.nodeAt here = some .directory)
    (long : segmentLimit < name.utf8ByteSize) : Miss volume place names .nameTooLong
  /-- A directory stands at the end. -/
  | directory {here : Place} (walked : volume.walk place names = .ok here)
    (directory : volume.nodeAt here = some .directory) : Miss volume place names .isDirectory

/-- A walk fails at the first segment that cannot be passed. -/
theorem walk_eq_error_iff : volume.walk here names = .error fault ↔
    ∃ before name after there, names = before ++ name :: after ∧
      volume.walk here before = .ok there ∧ volume.enter there name = .error fault := by
  induction names generalizing here with
  | nil => simp [walk]
  | cons segment later ih =>
    rw [walk]
    cases entered : volume.enter here segment with
    | error other =>
      constructor
      · rintro ⟨⟩
        exact ⟨[], segment, later, here, rfl, rfl, entered⟩
      · rintro ⟨_ | ⟨first, before⟩, name, after, there, parts, walked, failed⟩
        · obtain ⟨rfl, -⟩ := List.cons.inj parts
          obtain rfl := Except.ok.inj walked
          exact entered.symm.trans failed
        · obtain ⟨rfl, -⟩ := List.cons.inj parts
          simp [walk, entered] at walked
    | ok middle =>
      dsimp only
      rw [ih]
      constructor
      · rintro ⟨before, name, after, there, rfl, walked, failed⟩
        exact ⟨segment :: before, name, after, there, rfl, by rw [walk, entered]; exact walked,
          failed⟩
      · rintro ⟨_ | ⟨first, before⟩, name, after, there, parts, walked, failed⟩
        · obtain ⟨rfl, -⟩ := List.cons.inj parts
          obtain rfl := Except.ok.inj walked
          rw [entered] at failed
          contradiction
        · obtain ⟨rfl, rfl⟩ := List.cons.inj parts
          rw [walk, entered] at walked
          exact ⟨before, name, after, there, rfl, walked, failed⟩

/-- Why a segment that does not go up cannot be passed. -/
theorem enter_eq_error_iff (present : volume.nodeAt here ≠ none) (staying : name ≠ "..") :
    volume.enter here name = .error fault ↔
      (∃ number, volume.nodeAt here = some (.file number)) ∧ fault = .notDirectory ∨
      volume.nodeAt here = some .directory ∧
        (segmentLimit < name.utf8ByteSize ∧ fault = .nameTooLong ∨
          Plain name ∧ volume.nodeAt (here ++ [name]) = none ∧ fault = .notFound) := by
  cases standing : volume.nodeAt here with
  | none => exact absurd standing present
  | some node =>
    cases node with
    | file number => simp [enter, standing, eq_comm]
    | directory =>
      by_cases plain : Plain name
      · have short := Nat.not_lt.mpr plain.short
        rw [enter_of_plain standing plain]
        cases vacant : volume.nodeAt (here ++ [name]) with
        | none => simp [short, plain, eq_comm]
        | some node => simp [short]
      · rw [enter, standing]
        dsimp only
        by_cases stays : name = "" ∨ name = "."
        · have short : ¬ segmentLimit < name.utf8ByteSize := by
            rcases stays with rfl | rfl <;> decide
          rw [if_pos stays]
          simp [short, plain]
        · have long : segmentLimit < name.utf8ByteSize :=
            Nat.not_le.mp fun short => plain ⟨stays, staying, short⟩
          rw [if_neg stays, if_neg staying, if_pos long]
          simp [long, plain, eq_comm]

/-- A walk that does not go up stays where something stands. -/
theorem present_of_walk (present : volume.nodeAt here ≠ none) (staying : ".." ∉ names)
    (walked : volume.walk here names = .ok there) : volume.nodeAt there ≠ none := by
  induction names generalizing here with
  | nil => exact Except.ok.inj walked ▸ present
  | cons segment later ih =>
    rw [List.mem_cons, not_or] at staying
    rw [walk] at walked
    cases entered : volume.enter here segment with
    | error fault => simp [entered] at walked
    | ok middle =>
      rw [entered] at walked
      refine ih ?_ staying.2 walked
      rcases (enter_eq_ok_iff.mp entered).2 with ⟨-, rfl⟩ | ⟨up, -⟩ | ⟨-, -, there⟩
      · exact present
      · exact absurd up.symm staying.1
      · exact there

/-- A file is missed on the way exactly if the walk fails, with the same fault. -/
theorem miss_iff (directory : volume.nodeAt place = some .directory) (staying : ".." ∉ names) :
    volume.Miss place names fault ↔ volume.walk place names = .error fault ∨
      fault = .isDirectory ∧ ∃ here, volume.walk place names = .ok here ∧
        volume.nodeAt here = some .directory := by
  constructor
  · intro miss
    have fails {before after : List String} {name : String} {here : Place} {fault : IoError}
        (parts : names = before ++ name :: after) (walked : volume.walk place before = .ok here)
        (failed : volume.enter here name = .error fault) :
        volume.walk place names = .error fault :=
      walk_eq_error_iff.mpr ⟨before, name, after, here, parts, walked, failed⟩
    have ahead {before after : List String} {name : String}
        (parts : names = before ++ name :: after) : name ≠ ".." := by
      rintro rfl
      exact staying (parts ▸ List.mem_append_right _ List.mem_cons_self)
    cases miss with
    | absent parts walked standing plain vacant =>
      refine .inl (fails parts walked ?_)
      exact (enter_eq_error_iff (by simp [standing]) (ahead parts)).mpr
        (.inr ⟨standing, .inr ⟨plain, vacant, rfl⟩⟩)
    | through parts walked standing =>
      refine .inl (fails parts walked ?_)
      exact (enter_eq_error_iff (by simp [standing]) (ahead parts)).mpr
        (.inl ⟨⟨_, standing⟩, rfl⟩)
    | long parts walked standing long =>
      refine .inl (fails parts walked ?_)
      exact (enter_eq_error_iff (by simp [standing]) (ahead parts)).mpr
        (.inr ⟨standing, .inl ⟨long, rfl⟩⟩)
    | directory walked standing => exact .inr ⟨rfl, _, walked, standing⟩
  · rintro (failed | ⟨rfl, here, walked, standing⟩)
    · obtain ⟨before, name, after, here, parts, walked, failed⟩ := walk_eq_error_iff.mp failed
      rw [parts, List.mem_append, List.mem_cons, not_or, not_or] at staying
      have present : volume.nodeAt here ≠ none :=
        present_of_walk (by simp [directory]) staying.1 walked
      rcases (enter_eq_error_iff present (Ne.symm staying.2.1)).mp failed with
        ⟨⟨number, file⟩, rfl⟩ | ⟨standing, ⟨long, rfl⟩ | ⟨plain, vacant, rfl⟩⟩
      · exact .through parts walked file
      · exact .long parts walked standing long
      · exact .absent parts walked standing plain vacant
    · exact .directory walked standing

/-- Why no file is found at a path through a directory: the path cannot be looked up, or its
segments lead from there to none. -/
def Lacks (volume : Volume) (place : Place) (path : String) (names : List String)
    (fault : IoError) : Prop :=
  checkPath path = .error fault ∨ checkPath path = .ok () ∧ volume.Miss place names fault

/-- A file that is lacking is exactly one that cannot be opened, with the same fault. -/
theorem lacks_iff (based : volume.Based base place) (parts : segments path = base ++ names)
    (staying : ".." ∉ names) :
    volume.Lacks place path names fault ↔ volume.openFile path = .error fault := by
  unfold Lacks openFile find
  cases checkPath path with
  | error other => simp [eq_comm]
  | ok =>
    rw [miss_iff based.directory staying, parts, based.walk]
    cases walked : volume.walk place names with
    | error other => simp [eq_comm]
    | ok here =>
      have present := present_of_walk (by simp [based.directory]) staying walked
      cases standing : volume.nodeAt here with
      | none => exact absurd standing present
      | some node => cases node <;> simp [standing, eq_comm]

end Trajectory.Volume

namespace Trajectory.Directory

open Volume (Lacks segments)

variable {before volume : Volume} {place : Place} {root path target : String} {mode : Access}
  {archive : Archive}

/-- A file that is lacking reads as empty if a name of it is missing, and as the fault otherwise. -/
theorem Archive.read_of_lacks {fault : IoError} (isOpen : archive.closed = false)
    (based : volume.Based (segments archive.root) place)
    (taken : target? archive.root path = some target)
    (lacks : volume.Lacks place target (segments (entryName path)) fault) :
    archive.read volume path = if fault = .notFound then .ok [] else .error (.io fault) := by
  obtain ⟨parts, staying⟩ := segments_target taken
  have failed := (Volume.lacks_iff (based_ground based) parts staying).mp lacks
  rw [Archive.read, isOpen, if_neg Bool.false_ne_true, taken]
  dsimp only
  rw [Volume.load, failed]
  split
  · contradiction
  · next same =>
    obtain rfl := Except.error.inj same
    rfl
  · next other distinct same =>
    obtain rfl := Except.error.inj same
    rw [if_neg distinct]

/-- Where no file is found one is lacking. -/
theorem exists_lacks (based : volume.Based (segments root) place)
    (taken : target? root path = some target)
    (lost : ∀ there number, volume.find target ≠ .ok (there, .file number)) :
    ∃ fault, volume.Lacks place target (segments (entryName path)) fault := by
  obtain ⟨parts, staying⟩ := segments_target taken
  cases opened : volume.openFile target with
  | error fault => exact ⟨fault, (Volume.lacks_iff (based_ground based) parts staying).mpr opened⟩
  | ok number =>
    obtain ⟨there, found⟩ := Volume.find_of_openFile opened
    exact absurd found (lost there number)

/-- Reading at a path at which no file is stored, whatever was done before. It reads as empty
exactly if the path is not taken or a name is missing in a directory on its way; where it leads to a
directory, or through a file, or cannot be looked up, reading fails with the fault of that. -/
theorem read_of_missing (libraries : Libraries)
    (opened : openRoot before root mode = (.ok archive, volume)) (calls : List Archive.Call)
    (running : .close ∉ calls) :
    ∃ place inner left,
      (Trajectory.Archive.directory archive).run libraries volume calls =
        (.directory inner, left) ∧
      left.Based (segments root) place ∧
      ∀ path, (∀ target there number, target? root path = some target →
          left.find target ≠ .ok (there, .file number)) →
        (inner.read left path = .ok [] ↔ target? root path = none ∨
          ∃ target, target? root path = some target ∧
            left.Lacks place target (segments (entryName path)) .notFound) ∧
        ∀ target, target? root path = some target →
          (∃ fault, left.Lacks place target (segments (entryName path)) fault) ∧
          ∀ fault, left.Lacks place target (segments (entryName path)) fault →
            fault ≠ .notFound → inner.read left path = .error (.io fault) := by
  obtain ⟨rfl, rfl, isOpen, place, based⟩ := based_of_openRoot opened
  obtain ⟨inner, ended, rooted, -, closed⟩ := run_frame libraries archive volume calls
  have inner_open : inner.closed = false := (closed running).trans isOpen
  have stays := based.within (run_twins libraries archive (.refl based) calls).2.2
  refine ⟨place, inner, _, Prod.ext ended rfl, stays, fun path lost => ?_⟩
  rw [← rooted] at stays lost ⊢
  have reads {target : String} {fault : IoError} (taken : target? inner.root path = some target)
      (lacks : Lacks _ place target (segments (entryName path)) fault) :=
    Archive.read_of_lacks inner_open stays taken lacks
  refine ⟨⟨fun empty => ?_, ?_⟩, fun target taken =>
    ⟨exists_lacks stays taken fun there number => lost target there number taken,
      fun fault lacks distinct => (reads taken lacks).trans (if_neg distinct)⟩⟩
  · cases taken : target? inner.root path with
    | none => exact .inl rfl
    | some target =>
      refine .inr ⟨target, rfl, ?_⟩
      obtain ⟨fault, lacks⟩ := exists_lacks stays taken fun there number =>
        lost target there number taken
      by_cases missing : fault = .notFound
      · exact missing ▸ lacks
      · rw [reads taken lacks, if_neg missing] at empty
        contradiction
  · rintro (refused | ⟨target, taken, lacks⟩)
    · exact (Archive.refuses inner_open _ refused).1
    · exact reads taken lacks

/-- A volume with one entry of an archive, in a group of its own. -/
def grouped : Volume :=
  ⟨[(["d"], .directory), (["d", "a"], .directory), (["d", "a", "b"], .file 0)], [.bytes [1]], [], 0⟩

/-- Writing the entry leaves that. -/
theorem run_grouped :
    openRoot (.empty 0) "d" .write =
        (.ok ⟨"d", .write, .empty, false⟩, ⟨[(["d"], .directory)], [], [], 0⟩) ∧
      (Trajectory.Archive.directory ⟨"d", .write, .empty, false⟩).run .literal
          ⟨[(["d"], .directory)], [], [], 0⟩ [.write ⟨"a/b", [1], .none, true⟩] =
        (.directory ⟨"d", .write, Catalog.empty.insert "a/b" (), false⟩, grouped) := by
  decide +kernel

/-- The group is no file. -/
theorem find_grouped {there : Place} {number : Nat} (taken : target? "d" "a" = some target) :
    grouped.find target ≠ .ok (there, .file number) := by
  have group : target? "d" "a" = some "d/a" := by decide +kernel
  have found : grouped.find "d/a" = .ok (["d", "a"], .directory) := by decide +kernel
  obtain rfl := Option.some.inj (group.symm.trans taken)
  rw [found]
  simp

/-- The group of an entry is a directory, and reading there reports that. -/
theorem read_of_missing_group :
    ∃ inner left,
      (Trajectory.Archive.directory ⟨"d", .write, .empty, false⟩).run .literal
          ⟨[(["d"], .directory)], [], [], 0⟩ [.write ⟨"a/b", [1], .none, true⟩] =
        (.directory inner, left) ∧
      inner.read left "a" = .error (.io .isDirectory) := by
  obtain ⟨opened, stored⟩ := run_grouped
  obtain ⟨place, inner, left, ran, based, reads⟩ :=
    read_of_missing .literal opened [.write ⟨"a/b", [1], .none, true⟩] (by decide)
  refine ⟨inner, left, ran, ?_⟩
  have taken : target? "d" "a" = some "d/a" := by decide +kernel
  obtain ⟨-, rfl⟩ := Prod.mk.inj (ran.symm.trans stored)
  obtain ⟨-, faults⟩ := reads "a" fun target there number taken => find_grouped taken
  have there : place = ["d"] := by
    have walked : grouped.walk [] (segments "d") = .ok ["d"] := by decide +kernel
    exact Except.ok.inj (based.walked.symm.trans walked)
  have entered : grouped.walk ["d"] (segments (entryName "a")) = .ok ["d", "a"] := by
    decide +kernel
  have lacks : grouped.Lacks place "d/a" (segments (entryName "a")) .isDirectory :=
    .inr ⟨by decide +kernel, .directory (there ▸ entered) (by decide +kernel)⟩
  exact (faults "d/a" taken).2 _ lacks (by decide)

/-- Not every path at which no file is stored reads as empty: the group of an entry does not. -/
theorem group_not_read_as_empty :
    ¬ ∀ {before volume left : Volume} {root : String} {mode : Access} {archive inner : Archive}
        {calls : List Archive.Call} (path : String),
      openRoot before root mode = (.ok archive, volume) →
      (Trajectory.Archive.directory archive).run .literal volume calls = (.directory inner, left) →
      inner.closed = false →
      (∀ target there number, target? root path = some target →
        left.find target ≠ .ok (there, .file number)) →
      inner.read left path = .ok [] := by
  intro soft
  obtain ⟨opened, stored⟩ := run_grouped
  have empty := soft "a" opened stored rfl fun _ _ _ taken => find_grouped taken
  have reported : Archive.read ⟨"d", .write, Catalog.empty.insert "a/b" (), false⟩ grouped "a" =
      .error (.io .isDirectory) := by
    decide +kernel
  rw [reported] at empty
  contradiction

end Trajectory.Directory
