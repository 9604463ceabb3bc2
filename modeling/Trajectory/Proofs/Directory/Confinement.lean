import Trajectory.Proofs.Archive.Calls
import Trajectory.Proofs.Directory.Components
import Trajectory.Proofs.Directory.Entries
import Trajectory.Proofs.Volume.Confined
/-!
# A directory is not left

Whatever is asked of an archive in a directory, and under whichever paths, nothing outside the
directory is made, changed or read. Reading is told by its effect: in another volume with the same
tree in the directory, and anything else outside of it, all answers are the same.
-/
namespace Trajectory.Directory

open Volume (Based Confined Guided Twins Within segments)

variable {volume before left right other : Volume} {place there : Place}
  {root path target : String} {mode : Access} {archive : Archive}

/-! ## The directory of an archive -/

/-- The segments before the name of an entry lead to the directory. -/
theorem based_ground (based : volume.Based (segments root) place) :
    volume.Based (ground root) place :=
  ⟨walk_ground based.walked, based.directory⟩

/-- They do so in twins. -/
theorem twins_ground (twins : Twins (segments root) place left right) :
    Twins (ground root) place left right :=
  ⟨based_ground twins.one, based_ground twins.another, twins.nodes, twins.count, twins.content⟩

/-- An archive that was opened is the one of its directory, which is there. -/
theorem based_of_openRoot (opened : openRoot before root mode = (.ok archive, volume)) :
    archive.root = root ∧ archive.mode = mode ∧ archive.closed = false ∧
      ∃ place, volume.Based (segments root) place := by
  unfold openRoot at opened
  dsimp only at opened
  split at opened
  · simp at opened
  · split at opened
    · obtain ⟨scanned, rfl⟩ := Prod.mk.inj opened
      split at scanned
      · next place found =>
        obtain ⟨-, walked, directory⟩ := Volume.find_eq_ok_iff.mp found
        obtain rfl := Except.ok.inj scanned
        exact ⟨rfl, rfl, rfl, place, walked, directory⟩
      · contradiction
    · split at opened
      · next after made =>
        obtain ⟨same, rfl⟩ := Prod.mk.inj opened
        obtain rfl := Except.ok.inj same
        refine ⟨rfl, rfl, rfl, ?_⟩
        by_cases unnamed : root = ""
        · exact ⟨[], by rw [unnamed]; rfl, rfl⟩
        · obtain ⟨place, found⟩ := Volume.find_of_makeDirectories unnamed made
          obtain ⟨-, walked, directory⟩ := Volume.find_eq_ok_iff.mp found
          exact ⟨place, walked, directory⟩
      · simp at opened

/-! ## Paths that are taken -/

/-- The segments of the file of an entry go on from those of the directory and do not go up. -/
theorem segments_target (taken : target? root path = some target) :
    segments target = ground root ++ segments (entryName path) ∧
      ".." ∉ segments (entryName path) := by
  obtain ⟨⟨-, -, staying⟩, rfl⟩ := target?_eq_some_iff.mp taken
  exact ⟨segments_join root (entryName path), staying⟩

/-- The path of the file of an entry is guided by the directory. -/
theorem guided_target (taken : target? root path = some target) :
    Guided (ground root) (segments target) :=
  .inr ⟨_, segments_target taken⟩

/-- Whatever is found at the file of an entry stands under the names that are kept of its path. -/
theorem place_of_find {node : Node} (based : volume.Based (segments root) place)
    (taken : target? root path = some target) (found : volume.find target = .ok (there, node)) :
    there = place ++ keptSegments path := by
  obtain ⟨parts, staying⟩ := segments_target taken
  have walked := (Volume.find_eq_ok_iff.mp found).2.1
  rw [parts, (based_ground based).walk] at walked
  exact Volume.walk_of_staying staying walked

/-! ## Calls -/

/-- Making the directories that lead to the file of an entry is confined. -/
theorem confined_makeAbove (taken : target? root path = some target) :
    Confined (ground root) place fun volume => makeAbove volume target := by
  unfold makeAbove
  cases found : Volume.above (segments target).reverse with
  | none => exact Volume.confined_const _ _
  | some outer =>
    have leads := Volume.prefix_of_above found
    rw [List.reverse_reverse] at leads
    refine Volume.confined_makeAll ((guided_target taken).part leads) fun segment among => ?_
    exact Volume.slash_not_mem_segments (leads.subset (List.mem_reverse.mpr among))

/-- Writing an entry is confined. -/
theorem Archive.confined_write (archive : Archive) (path : String) (contents : List UInt8) :
    Confined (ground archive.root) place fun volume =>
      let outcome := archive.write volume path contents
      ((outcome.1, outcome.2.1), outcome.2.2) := by
  by_cases closed : archive.closed = true
  · simp only [Archive.write, if_pos closed]
    exact Volume.confined_const _ _
  by_cases reads : archive.mode = .read
  · simp only [Archive.write, if_neg closed, if_pos reads]
    exact Volume.confined_const _ _
  cases taken : target? archive.root path with
  | none =>
    simp only [Archive.write, if_neg closed, if_neg reads, taken]
    exact Volume.confined_const _ _
  | some target =>
    intro left right twins
    have isOpen : archive.closed = false := by simpa using closed
    simp only [archive.write_of_target isOpen reads taken]
    obtain ⟨result, one, another, above, above', above_twins, above_within⟩ :=
      (confined_makeAbove taken).outcome twins
    rw [above, above']
    cases result with
    | error fault => exact ⟨rfl, above_twins, above_within⟩
    | ok done =>
      obtain ⟨saved, one_saved, another_saved, save, save', save_twins, save_within⟩ :=
        (Volume.confined_save (guided_target taken) contents).outcome above_twins
      dsimp only
      rw [save, save']
      cases saved with
      | error fault => exact ⟨rfl, save_twins, above_within.trans save_within⟩
      | ok done => exact ⟨rfl, save_twins, above_within.trans save_within⟩

/-- Twins read the same. -/
theorem Archive.read_twins (twins : Twins (ground archive.root) place left right) (path : String) :
    archive.read right path = archive.read left path := by
  unfold Archive.read
  cases taken : target? archive.root path with
  | none => rfl
  | some target =>
    obtain ⟨parts, staying⟩ := segments_target taken
    dsimp only
    rw [twins.load parts staying]

/-- A write leaves the archive what it is, but for what it enumerates. -/
theorem Archive.write_frame (archive : Archive) (volume : Volume) (path : String)
    (contents : List UInt8) : ∃ catalog,
      (archive.write volume path contents).2.1 = { archive with catalog := catalog } := by
  unfold Archive.write
  split
  · exact ⟨_, rfl⟩
  · split
    · exact ⟨_, rfl⟩
    · split
      · exact ⟨_, rfl⟩
      · dsimp only
        split
        · exact ⟨_, rfl⟩
        · split
          · exact ⟨_, rfl⟩
          · exact ⟨_, rfl⟩

/-- Every call is confined. -/
theorem confined_perform (libraries : Libraries) (archive : Archive) (call : Archive.Call) :
    Confined (ground archive.root) place fun volume =>
      let outcome := (Trajectory.Archive.directory archive).perform libraries volume call
      ((outcome.1, outcome.2.1), outcome.2.2) := by
  cases call with
  | write request =>
    intro left right twins
    obtain ⟨same, written_twins, within⟩ :=
      archive.confined_write request.path request.contents left right twins
    obtain ⟨result, after⟩ := Prod.mk.inj same
    refine ⟨Prod.ext ?_ ?_, written_twins, within⟩
    · exact congrArg Archive.Answer.done result
    · exact congrArg Trajectory.Archive.directory after
  | read path =>
    intro left right twins
    refine ⟨Prod.ext ?_ rfl, twins, .refl left place⟩
    exact congrArg Archive.Answer.contents (archive.read_twins twins path)
  | _ => exact fun left _ twins => ⟨rfl, twins, .refl left place⟩

/-- An archive in a directory stays one, in the same directory and the same mode; it is open until
it is closed. -/
theorem perform_frame (libraries : Libraries) (archive : Archive) (volume : Volume)
    (call : Archive.Call) :
    ∃ inner,
      ((Trajectory.Archive.directory archive).perform libraries volume call).2.1 =
        .directory inner ∧
      inner.root = archive.root ∧ inner.mode = archive.mode ∧
        (call ≠ .close → inner.closed = archive.closed) := by
  cases call with
  | write request =>
    obtain ⟨catalog, after⟩ := archive.write_frame volume request.path request.contents
    exact ⟨_, congrArg Trajectory.Archive.directory after, rfl, rfl, fun _ => rfl⟩
  | close => exact ⟨_, rfl, rfl, rfl, fun other => absurd rfl other⟩
  | _ => exact ⟨_, rfl, rfl, rfl, fun _ => rfl⟩

/-- So is every run of calls. -/
theorem confined_run (libraries : Libraries) (archive : Archive) (calls : List Archive.Call) :
    Confined (ground archive.root) place fun volume =>
      (Trajectory.Archive.directory archive).run libraries volume calls := by
  induction calls generalizing archive with
  | nil => exact Volume.confined_const _ _
  | cons call later ih =>
    have first : Confined (ground archive.root) place _ := confined_perform libraries archive call
    refine first.bind (fun outcome volume => outcome.2.run libraries volume later) fun volume => ?_
    obtain ⟨inner, after, rooted, -, -⟩ := perform_frame libraries archive volume call
    dsimp only
    rw [after, ← rooted]
    exact ih inner

/-- It stays so in every run. -/
theorem run_frame (libraries : Libraries) (archive : Archive) (volume : Volume)
    (calls : List Archive.Call) :
    ∃ inner,
      ((Trajectory.Archive.directory archive).run libraries volume calls).1 = .directory inner ∧
      inner.root = archive.root ∧ inner.mode = archive.mode ∧
        (.close ∉ calls → inner.closed = archive.closed) := by
  induction calls generalizing archive volume with
  | nil => exact ⟨archive, rfl, rfl, rfl, fun _ => rfl⟩
  | cons call later ih =>
    obtain ⟨next, after, rooted, mode, closed⟩ := perform_frame libraries archive volume call
    obtain ⟨inner, ended, later_rooted, later_mode, later_closed⟩ :=
      ih next ((Trajectory.Archive.directory archive).perform libraries volume call).2.2
    rw [← after] at ended
    refine ⟨inner, ended, later_rooted.trans rooted, later_mode.trans mode, fun kept => ?_⟩
    rw [List.mem_cons, not_or] at kept
    exact (later_closed kept.2).trans (closed (Ne.symm kept.1))

/-! ## Runs -/

/-- The same calls of an archive leave twins of twins, and change nothing outside. -/
theorem run_twins (libraries : Libraries) (archive : Archive)
    (twins : Twins (segments archive.root) place left right) (calls : List Archive.Call) :
    let ended := (Trajectory.Archive.directory archive).run libraries left calls
    let ended' := (Trajectory.Archive.directory archive).run libraries right calls
    ended'.1 = ended.1 ∧ Twins (segments archive.root) place ended.2 ended'.2 ∧
      left.Within place ended.2 := by
  have grounded := twins_ground twins
  have confined : Confined (ground archive.root) place _ := confined_run libraries archive calls
  obtain ⟨same, after, within⟩ := confined left right grounded
  have within' := (confined right left grounded.symm).2.2
  exact ⟨same, ⟨twins.one.within within, twins.another.within within', after.nodes, after.count,
    after.content⟩, within⟩

/-- Twins answer the same. -/
theorem perform_twins (libraries : Libraries) (archive : Archive)
    (twins : Twins (segments archive.root) place left right) (call : Archive.Call) :
    ((Trajectory.Archive.directory archive).perform libraries right call).1 =
      ((Trajectory.Archive.directory archive).perform libraries left call).1 :=
  (Prod.mk.inj (confined_perform libraries archive call left right (twins_ground twins)).1).1

/-- A path is taken exactly if it is a proper one: it has a name, it does not start with a dot, and
it does not go up. -/
theorem isSome_target?_iff (root path : String) : (target? root path).isSome ↔
    entryName path ≠ "" ∧
      (∀ first ∈ (segments (entryName path)).head?, first ≠ "." ∧ first ≠ "..") ∧
      ".." ∉ segments (entryName path) := by
  rw [isSome_target?, staysBelow, decide_eq_true_iff]
  refine and_congr_right fun some_char => and_congr_left fun staying => ?_
  obtain ⟨first, later, parts, -⟩ := segments_entryName some_char
  rw [parts, List.mem_cons, not_or] at staying
  rw [parts, List.head?_cons]
  constructor
  · rintro dot _ ⟨⟩
    exact ⟨fun same => dot (congrArg some same), Ne.symm staying.1⟩
  · intro proper same
    exact (proper first rfl).1 (Option.some.inj same)

/-- The file of an entry that is written stands under the names that are kept of its path. -/
theorem Archive.stands_of_write {after : Volume} {archive' : Archive} {contents : List UInt8}
    (based : volume.Based (segments archive.root) place)
    (written : archive.write volume path contents = (.ok (), archive', after)) :
    ∃ number, after.nodeAt (place ++ keptSegments path) = some (.file number) := by
  by_cases closed : archive.closed = true
  · simp [Archive.write, closed] at written
  by_cases reads : archive.mode = .read
  · simp [Archive.write, closed, reads] at written
  have isOpen : archive.closed = false := by simpa using closed
  rcases Archive.write_cases isOpen reads volume path contents with
    ⟨error, between, failed, -⟩ |
      ⟨target, between, here, name, number, saved, done, taken, paves, leads, saves⟩
  · rw [failed] at written
    simp at written
  · obtain ⟨-, same⟩ := Prod.mk.inj (done.symm.trans written)
    obtain ⟨-, rfl⟩ := Prod.mk.inj same
    have walked : between.walk [] (segments archive.root) = .ok place :=
      Volume.walk_congr (fun _ => paves.directory) based.walked based.directory
    have stands := place_of_target walked taken leads
    rw [Volume.below, segments_foundName (keptSegments_ne_nil taken)] at stands
    exact ⟨number, stands ▸ saves.node⟩

/-- A path that is not taken reads as empty and is refused when it is written, which changes
nothing. -/
theorem Archive.refuses (isOpen : archive.closed = false) (volume : Volume)
    (refused : target? archive.root path = none) : archive.read volume path = .ok [] ∧
      ∀ contents, archive.write volume path contents =
        (.error (if archive.mode = .read then .invalidMode .readOnly
          else .invalidPath (.refused path)), archive, volume) := by
  constructor
  · rw [Archive.read, isOpen, if_neg Bool.false_ne_true, refused]
  · intro contents
    rw [Archive.write, isOpen, if_neg Bool.false_ne_true]
    split
    · rfl
    · rw [refused]

/-- An archive that was opened in a directory. Which paths are taken is told from their segments, or
just as well from their components, and the file of one that is taken stands below the directory
under the segments that are kept. Whatever is asked of the archive, nothing outside the directory is
made or changed, and no answer depends on what there is outside: in a twin the same calls have the
same answers, and leave a twin. A path that is not taken reads as empty and is refused when it is
written, which changes nothing. -/
theorem calls_stay_inside (libraries : Libraries)
    (opened : openRoot before root mode = (.ok archive, volume)) :
    (∀ path,
      ((target? root path).isSome ↔ entryName path ≠ "" ∧
        (∀ first ∈ (segments (entryName path)).head?, first ≠ "." ∧ first ≠ "..") ∧
        ".." ∉ segments (entryName path)) ∧
      ((target? root path).isSome ↔ entryName path ≠ "" ∧
        ∀ component ∈ components (entryName path), ∃ name, component = .named name)) ∧
    ∃ place, volume.Based (segments root) place ∧
      (∀ path target, target? root path = some target →
        Volume.Inside place (place ++ keptSegments path) ∧
        components target = components root ++ (keptSegments path).map .named) ∧
      ∀ calls, ∃ inner left,
        (Trajectory.Archive.directory archive).run libraries volume calls =
          (.directory inner, left) ∧
        volume.Within place left ∧
        (∀ other, Twins (segments root) place volume other → ∃ right,
          (Trajectory.Archive.directory archive).run libraries other calls =
            (.directory inner, right) ∧
          Twins (segments root) place left right ∧
          ∀ call, ((Trajectory.Archive.directory inner).perform libraries right call).1 =
            ((Trajectory.Archive.directory inner).perform libraries left call).1) ∧
        (∀ path target, target? root path = some target → ∀ there node,
          left.find target = .ok (there, node) → there = place ++ keptSegments path) ∧
        (∀ path contents next after, inner.write left path contents = (.ok (), next, after) →
          ∃ number, after.nodeAt (place ++ keptSegments path) = some (.file number)) ∧
        (.close ∉ calls → ∀ path, target? root path = none →
          inner.read left path = .ok [] ∧ ∀ contents, inner.write left path contents =
            (.error (if mode = .read then .invalidMode .readOnly
              else .invalidPath (.refused path)), inner, left)) := by
  obtain ⟨rfl, rfl, isOpen, place, based⟩ := based_of_openRoot opened
  refine ⟨fun path => ⟨isSome_target?_iff _ path, ?_⟩, place, based, fun path target taken => ?_,
    fun calls => ?_⟩
  · rw [isSome_target?]
    exact staysBelow_iff path
  · refine ⟨⟨List.prefix_append _ _, ?_⟩, components_target taken⟩
    exact fun same => keptSegments_ne_nil taken (List.append_right_eq_self.mp same)
  · obtain ⟨inner, ended, rooted, same_mode, closed⟩ := run_frame libraries archive volume calls
    have within := (run_twins libraries archive (.refl based) calls).2.2
    have stays := based.within within
    refine ⟨inner, _, Prod.ext ended rfl, within, fun other twins => ?_,
      fun path target taken there node => place_of_find stays taken, fun path contents next after =>
        Archive.stands_of_write (rooted ▸ stays), fun kept path refused => ?_⟩
    · obtain ⟨same, twins_after, -⟩ := run_twins libraries archive twins calls
      refine ⟨_, Prod.ext (same.trans ended) rfl, twins_after, fun call => ?_⟩
      exact perform_twins libraries inner (rooted ▸ twins_after) call
    · have inner_open : inner.closed = false := (closed kept).trans isOpen
      have refuses := Archive.refuses inner_open
        ((Trajectory.Archive.directory archive).run libraries volume calls).2 (rooted ▸ refused)
      rw [same_mode] at refuses
      exact refuses

/-- A file beside the directory is kept, whatever is written. -/
theorem calls_stay_inside_beside :
    openRoot ⟨[(["secret"], .file 0)], [.bytes [7]], [], 0⟩ "d" .write =
        (.ok ⟨"d", .write, .empty, false⟩,
          ⟨[(["secret"], .file 0), (["d"], .directory)], [.bytes [7]], [], 0⟩) ∧
      ∃ inner left,
        (Trajectory.Archive.directory ⟨"d", .write, .empty, false⟩).run .literal
            ⟨[(["secret"], .file 0), (["d"], .directory)], [.bytes [7]], [], 0⟩
            [.write ⟨"a//./b", [1], .none, true⟩, .write ⟨"../secret", [2], .none, true⟩] =
          (.directory inner, left) ∧
        left.nodeAt ["secret"] = some (.file 0) ∧ left.content 0 = .bytes [7] ∧
        inner.read left "../secret" = .ok [] := by
  have opened : openRoot ⟨[(["secret"], .file 0)], [.bytes [7]], [], 0⟩ "d" .write =
      (.ok ⟨"d", .write, .empty, false⟩,
        ⟨[(["secret"], .file 0), (["d"], .directory)], [.bytes [7]], [], 0⟩) := by
    decide +kernel
  obtain ⟨-, place, based, -, runs⟩ := calls_stay_inside .literal opened
  obtain ⟨inner, left, ran, within, -, -, -, refuses⟩ :=
    runs [.write ⟨"a//./b", [1], .none, true⟩, .write ⟨"../secret", [2], .none, true⟩]
  have there : place = ["d"] := by
    have walked := based.walked
    have same : Volume.walk ⟨[(["secret"], .file 0), (["d"], .directory)], [.bytes [7]], [], 0⟩ []
        (segments "d") = .ok ["d"] := by decide +kernel
    exact Except.ok.inj (walked.symm.trans same)
  subst there
  refine ⟨opened, inner, left, ran, ?_, ?_, ?_⟩
  · rw [within.nodes (by simp [Volume.Inside])]
    decide
  · rw [within.content (by decide) fun other inside standing => ?_]
    · decide
    · obtain ⟨⟨rest, rfl⟩, -⟩ := inside
      have listed := Volume.mem_of_nodeAt standing
      simp at listed
  · exact (refuses (by decide) "../secret" (by decide +kernel)).1

end Trajectory.Directory
