import Trajectory.Proofs.Volume.Files
/-!
# Growth of the tree

What saving a file and making directories leave of a volume. A file that is saved keeps its place
and its number, or is new, and all else stays as it was.
-/
namespace Trajectory.Volume

variable {volume after : Volume} {here : Place} {path name : String} {number : Nat}
  {data : List UInt8}

/-- Something is found at a path if it stands where the segments lead. -/
theorem find_eq_ok_iff {place : Place} {node : Node} :
    volume.find path = .ok (place, node) ↔ checkPath path = .ok () ∧
      volume.walk [] (segments path) = .ok place ∧ volume.nodeAt place = some node := by
  unfold find
  cases checkPath path with
  | error fault => simp
  | ok done =>
    cases walked : volume.walk [] (segments path) with
    | error fault => simp
    | ok other =>
      dsimp only
      cases standing : volume.nodeAt other with
      | none =>
        refine ⟨fun found => by contradiction, ?_⟩
        rintro ⟨-, same, node⟩
        rw [← Except.ok.inj same, standing] at node
        contradiction
      | some found =>
        constructor
        · intro same
          obtain ⟨rfl, rfl⟩ := Prod.mk.inj (Except.ok.inj same)
          exact ⟨rfl, rfl, standing⟩
        · rintro ⟨-, same, node⟩
          obtain rfl := Except.ok.inj same
          rw [standing] at node
          rw [Option.some.inj node]

/-- A directory is found where it was as long as no directory is lost. -/
theorem find_directory_congr {place : Place}
    (kept : ∀ place, volume.nodeAt place = some .directory → after.nodeAt place = some .directory)
    (found : volume.find path = .ok (place, .directory)) :
    after.find path = .ok (place, .directory) := by
  obtain ⟨checked, walked, directory⟩ := find_eq_ok_iff.mp found
  exact find_eq_ok_iff.mpr ⟨checked, walk_congr kept walked directory, kept place directory⟩

/-- The file of a number stands at a place and has been given bytes; nothing else changed. -/
structure Saves (volume : Volume) (place : Place) (number : Nat) (data : List UInt8)
    (after : Volume) : Prop where
  /-- The file stood there, or is new. -/
  before : volume.nodeAt place = some (.file number) ∨
    volume.nodeAt place = none ∧ number = volume.files.length
  /-- The file stands there. -/
  node : after.nodeAt place = some (.file number)
  /-- Everything else stands where it did. -/
  nodes : ∀ other, other ≠ place → after.nodeAt other = volume.nodeAt other
  /-- Nothing else is listed. -/
  listed : ∀ entry ∈ after.nodes, entry ∈ volume.nodes ∨ entry = (place, .file number)
  /-- The file exists, where every file that stands somewhere does. -/
  inside : volume.Sound → number < after.files.length
  /-- The file has the bytes, if it exists. -/
  content : number < after.files.length → after.content number = .bytes data
  /-- No file is lost, and the others have the contents that they had. -/
  spares : volume.Spares number after
  /-- The same files are held. -/
  held : after.held = volume.held

namespace Saves

variable {place : Place}

/-- A directory stays one. -/
theorem directory (saves : volume.Saves place number data after) {other : Place}
    (directory : volume.nodeAt other = some .directory) :
    after.nodeAt other = some .directory := by
  rw [saves.nodes other, directory]
  rintro rfl
  rcases saves.before with standing | ⟨absent, -⟩
  · simp [standing] at directory
  · simp [absent] at directory

/-- A volume stays sound. -/
theorem sound (saves : volume.Saves place number data after) (sound : volume.Sound) :
    after.Sound := by
  intro other found standing
  by_cases same : other = place
  · rw [same, saves.node] at standing
    obtain rfl := Node.file.inj (Option.some.inj standing)
    exact saves.inside sound
  · rw [saves.nodes other same] at standing
    exact Nat.lt_of_lt_of_le (sound standing) saves.spares.length

/-- A file that is saved where nothing stood is new, which spares all that there were. -/
theorem spares_of_absent (saves : volume.Saves place number data after)
    (absent : volume.nodeAt place = none) (other : Nat) : volume.Spares other after := by
  rcases saves.before with standing | ⟨-, rfl⟩
  · simp [absent] at standing
  · exact ⟨saves.spares.length, fun inside _ =>
      saves.spares.content inside (Nat.ne_of_lt inside)⟩

/-- A file that stood elsewhere has another number, if the file stood nowhere else. -/
theorem ne_of_ne (saves : volume.Saves place number data after) (sound : volume.Sound)
    (alone : volume.nodeAt place = some (.file number) → ∀ other,
      volume.nodeAt other = some (.file number) → other = place)
    {other : Place} {found : Nat} (distinct : other ≠ place)
    (standing : volume.nodeAt other = some (.file found)) : found ≠ number := by
  rintro rfl
  rcases saves.before with there | ⟨-, rfl⟩
  · exact distinct (alone there other standing)
  · exact absurd (sound standing) (Nat.lt_irrefl _)

end Saves

/-- A file that was opened to be written from the start, and given bytes, is saved, if what
opening it left stands as it should. -/
theorem saves_of_create {place : Place} {between : Volume}
    (created : volume.create path = (.ok number, between))
    (before : volume.nodeAt place = some (.file number) ∨
      volume.nodeAt place = none ∧ number = volume.files.length)
    (node : between.nodeAt place = some (.file number))
    (nodes : ∀ other, other ≠ place → between.nodeAt other = volume.nodeAt other)
    (listed : ∀ entry ∈ between.nodes, entry ∈ volume.nodes ∨ entry = (place, .file number))
    (spares : volume.Spares number between) (held : between.held = volume.held)
    (data : List UInt8) : volume.Saves place number data (between.setBytes number data) := by
  obtain ⟨same, holds, files⟩ := between.frame_setBytes number data
  refine ⟨before, ?_, fun other distinct => ?_, fun entry among => ?_, fun sound => ?_,
    fun inside => ?_, ?_, holds.trans held⟩
  · rw [nodeAt_congr same, node]
  · rw [nodeAt_congr same, nodes other distinct]
  · exact listed entry (same ▸ among)
  · rw [files]
    exact inside_of_create sound created
  · rw [files] at inside
    exact content_setBytes inside (content_of_create created inside) data
  · exact spares.trans (.setBytes between number data)

/-- Where no directory stands a file is saved. -/
theorem Leads.saves (leads : volume.Leads path here name)
    (undirected : volume.nodeAt (here ++ [name]) ≠ some .directory) (data : List UInt8) :
    ∃ number, (volume.save path data).1 = .ok () ∧
      volume.Saves (here ++ [name]) number data (volume.save path data).2 := by
  have created := leads.create
  cases standing : volume.nodeAt (here ++ [name]) with
  | none =>
    rw [standing] at created
    rw [Volume.save, created]
    refine ⟨volume.files.length, rfl, ?_⟩
    refine saves_of_create created (.inr ⟨standing, rfl⟩) ?_ (fun other distinct => ?_)
      (fun entry among => ?_) (.addFile volume _ _) rfl data
    · rw [nodeAt_addFile, standing, Option.none_or, if_pos rfl]
    · rw [nodeAt_addFile, if_neg distinct, Option.or_none]
    · exact (List.mem_append.mp among).imp_right List.mem_singleton.mp
  | some node =>
    cases node with
    | directory => exact absurd standing undirected
    | file number =>
      rw [standing] at created
      rw [Volume.save, created]
      obtain ⟨nodes, held, -⟩ := volume.frame_setBytes number []
      refine ⟨number, rfl, ?_⟩
      refine saves_of_create created (.inl standing) ?_ (fun other _ => nodeAt_congr nodes other)
        (fun entry among => .inl (nodes ▸ among)) (.setBytes volume number []) held data
      rw [nodeAt_congr nodes, standing]

/-- A file that cannot be opened to be written changes nothing. -/
theorem create_error {fault : IoError} (refused : volume.create path = (.error fault, after)) :
    after = volume := by
  unfold Volume.create at refused
  split at refused
  · exact (Prod.mk.inj refused).2.symm
  · dsimp only at refused
    split at refused
    · exact (Prod.mk.inj refused).2.symm
    · split at refused
      · exact (Prod.mk.inj refused).2.symm
      · split at refused
        · exact (Prod.mk.inj refused).2.symm
        · split at refused
          · exact (Prod.mk.inj refused).2.symm
          · simp at refused
          · simp at refused

/-- A file is saved where its path leads, or nothing changes. -/
theorem save_cases (volume : Volume) (path : String) (data : List UInt8) :
    (∃ fault, volume.save path data = (.error fault, volume)) ∨
      ∃ here name number after, volume.save path data = (.ok (), after) ∧
        volume.Leads path here name ∧ volume.Saves (here ++ [name]) number data after := by
  rcases created : volume.create path with ⟨fault | number, between⟩
  · refine .inl ⟨fault, ?_⟩
    rw [Volume.save, created, create_error created]
  · obtain ⟨here, name, leads⟩ := leads_of_create created
    have undirected : volume.nodeAt (here ++ [name]) ≠ some .directory := by
      intro directory
      rw [leads.create, directory] at created
      simp at created
    obtain ⟨number, saved, saves⟩ := leads.saves undirected data
    exact .inr ⟨here, name, number, _, Prod.ext saved rfl, leads, saves⟩

/-- Empty segments stay in a directory. -/
theorem walk_blanks {blanks : List String} (directory : volume.nodeAt here = some .directory)
    (empty : ∀ blank ∈ blanks, blank = "") : volume.walk here blanks = .ok here := by
  induction blanks with
  | nil => rfl
  | cons blank rest ih =>
    have stays : volume.enter here blank = .ok here :=
      enter_eq_ok_iff.mpr ⟨directory, .inl ⟨.inl (empty blank List.mem_cons_self), rfl⟩⟩
    rw [walk, stays]
    exact ih fun other among => empty other (List.mem_cons_of_mem _ among)

/-- A directory is made in the one that its path leads to, where nothing stood, or nothing
changes. -/
theorem makeDirectory_cases (volume : Volume) (path : String) :
    (∃ fault, volume.makeDirectory path = (.error fault, volume)) ∨
      ∃ outer last blanks here, checkPath path = .ok () ∧ segments path = outer ++ last :: blanks ∧
        (∀ blank ∈ blanks, blank = "") ∧ volume.walk [] outer = .ok here ∧
        volume.nodeAt here = some .directory ∧ Plain last ∧
        volume.nodeAt (here ++ [last]) = none ∧ volume.makeDirectory path =
          (.ok (), { volume with nodes := volume.nodes ++ [(here ++ [last], .directory)] }) := by
  unfold makeDirectory
  cases checked : checkPath path with
  | error fault => exact .inl ⟨fault, rfl⟩
  | ok =>
    rcases splitted : splitLast path with ⟨outer, last, slashes⟩
    dsimp only
    cases parent : volume.parentDirectory outer with
    | error fault => exact .inl ⟨fault, rfl⟩
    | ok here =>
      dsimp only
      split
      · exact .inl ⟨_, rfl⟩
      · next special =>
        split
        · exact .inl ⟨_, rfl⟩
        · next short =>
          split
          · exact .inl ⟨_, rfl⟩
          · next vacant =>
            simp only [not_or] at special
            obtain ⟨blanks, parts, empty⟩ := segments_of_splitLast splitted special.1
            obtain ⟨walked, standing⟩ := walk_of_parentDirectory parent
            exact .inr ⟨outer, last, blanks, here, rfl, parts, empty, walked, standing,
              ⟨not_or.mpr ⟨special.1, special.2.1⟩, special.2.2, Nat.not_lt.mp short⟩,
              Option.not_isSome_iff_eq_none.mp vacant, rfl⟩

/-- Directories have been made where nothing stood; nothing else changed. -/
structure Paves (volume after : Volume) : Prop where
  /-- What stands somewhere stood there, or is a directory that was made. -/
  nodes : ∀ place, after.nodeAt place = volume.nodeAt place ∨
    volume.nodeAt place = none ∧ after.nodeAt place = some .directory
  /-- No file is listed that was not. -/
  listed : ∀ place number, (place, Node.file number) ∈ after.nodes →
    (place, Node.file number) ∈ volume.nodes
  /-- No file changed. -/
  files : after.files = volume.files

namespace Paves

/-- Nothing was made. -/
theorem refl (volume : Volume) : volume.Paves volume :=
  ⟨fun _ => .inl rfl, fun _ _ among => among, rfl⟩

/-- What is made in two steps is made. -/
theorem trans {between : Volume} (first : volume.Paves between) (second : between.Paves after) :
    volume.Paves after := by
  refine ⟨fun place => ?_, fun place number among => ?_, second.files.trans first.files⟩
  · rcases second.nodes place with same | ⟨absent, made⟩
    · rw [same]
      exact first.nodes place
    · rcases first.nodes place with same | ⟨absent_first, made_first⟩
      · exact .inr ⟨same ▸ absent, made⟩
      · exact .inr ⟨absent_first, made⟩
  · exact first.listed place number (second.listed place number among)

/-- A directory stays one. -/
theorem directory (paves : volume.Paves after) {place : Place}
    (directory : volume.nodeAt place = some .directory) :
    after.nodeAt place = some .directory := by
  rcases paves.nodes place with same | ⟨absent, -⟩
  · rw [same, directory]
  · simp [absent] at directory

/-- The files stand where they stood. -/
theorem file_iff (paves : volume.Paves after) {place : Place} {number : Nat} :
    after.nodeAt place = some (.file number) ↔ volume.nodeAt place = some (.file number) := by
  rcases paves.nodes place with same | ⟨absent, made⟩
  · rw [same]
  · simp [absent, made]

/-- A volume stays sound. -/
theorem sound (paves : volume.Paves after) (sound : volume.Sound) : after.Sound := by
  intro place number standing
  rw [paves.files]
  exact sound (paves.file_iff.mp standing)

/-- The files keep their contents. -/
theorem content (paves : volume.Paves after) (number : Nat) :
    after.content number = volume.content number := by
  rw [Volume.content, Volume.content, paves.files]

/-- A directory that is made is made where nothing stood. -/
theorem makeDirectory (volume : Volume) (path : String) :
    volume.Paves (volume.makeDirectory path).2 := by
  rcases volume.makeDirectory_cases path with
    ⟨fault, failed⟩ | ⟨outer, last, blanks, here, -, -, -, -, -, -, absent, made⟩
  · rw [failed]
    exact refl volume
  · rw [made]
    refine ⟨fun place => ?_, fun place number among => ?_, rfl⟩
    · rw [nodeAt_concat]
      by_cases same : place = here ++ [last]
      · rw [same, absent, Option.none_or, if_pos rfl]
        exact .inr ⟨rfl, rfl⟩
      · rw [if_neg same, Option.or_none]
        exact .inl rfl
    · rcases List.mem_append.mp among with there | made
      · exact there
      · simp at made

/-- So are those above it that are missing. -/
theorem makeAll (volume : Volume) (reversed : List String) :
    volume.Paves (volume.makeAll reversed).2 := by
  induction count : reversed.length using Nat.strongRecOn generalizing reversed with
  | ind count ih =>
    have single := makeDirectory volume (joined reversed.reverse)
    rw [Volume.makeAll]
    split
    · exact refl volume
    · split
      · next after made =>
        rw [made] at single
        exact single
      · split
        · exact refl volume
        · next outer found =>
          have shorter := count ▸ length_above found
          have above := ih _ shorter outer rfl
          split
          · next fault after failed =>
            rw [failed] at above
            exact above
          · next after reached =>
            rw [reached] at above
            have last := makeDirectory after (joined reversed.reverse)
            split
            · next made made_last =>
              rw [made_last] at last
              exact above.trans last
            · exact above
      · exact refl volume

end Paves

/-! ## Making directories -/

section

variable {reversed outer : List String} {fault : IoError}

/-- The directory above is on the way. -/
theorem prefix_of_above (found : above reversed = some outer) :
    outer.reverse <+: reversed.reverse := by
  have kept := List.dropWhile_suffix isBlank (l := reversed)
  unfold above at found
  split at found
  · contradiction
  · next last rest listed =>
    obtain rfl := Option.some.inj found
    have rest_kept := List.dropWhile_suffix isBlank (l := rest)
    rw [listed] at kept
    exact List.reverse_prefix.mpr ((rest_kept.trans (List.suffix_cons last rest)).trans kept)

/-- The directory above the first is there. -/
theorem makeAll_of_unnamed (unnamed : joined reversed.reverse = "") :
    volume.makeAll reversed = (.ok (), volume) := by
  rw [makeAll.eq_def]
  simp only [if_pos unnamed]

/-- A directory that can be made is made. -/
theorem makeAll_of_made (named : joined reversed.reverse ≠ "")
    (made : volume.makeDirectory (joined reversed.reverse) = (.ok (), after)) :
    volume.makeAll reversed = (.ok (), after) := by
  rw [makeAll.eq_def]
  simp only [if_neg named, made]

/-- One that cannot be made has to be there. -/
theorem makeAll_of_error (named : joined reversed.reverse ≠ "")
    (failed : volume.makeDirectory (joined reversed.reverse) = (.error fault, after))
    (other : fault ≠ .notFound) : volume.makeAll reversed =
      (if volume.isDirectory (joined reversed.reverse) then .ok () else .error fault, volume) := by
  rw [makeAll.eq_def]
  simp only [if_neg named, failed]

/-- Where there is no directory above it is not made. -/
theorem makeAll_of_above_none (named : joined reversed.reverse ≠ "")
    (failed : volume.makeDirectory (joined reversed.reverse) = (.error .notFound, after))
    (first : above reversed = none) : volume.makeAll reversed = (.error .notFound, volume) := by
  rw [makeAll.eq_def]
  simp only [if_neg named, failed]
  split
  · rfl
  · next found => simp [first] at found

/-- Where the directory above is missing that is made first. -/
theorem makeAll_of_above (named : joined reversed.reverse ≠ "")
    (failed : volume.makeDirectory (joined reversed.reverse) = (.error .notFound, after))
    (found : above reversed = some outer) : volume.makeAll reversed =
      match volume.makeAll outer with
      | (.error fault, after) => (.error fault, after)
      | (.ok (), after) =>
        match after.makeDirectory (joined reversed.reverse) with
        | (.ok (), made) => (.ok (), made)
        | (.error fault, _) =>
          (if after.isDirectory (joined reversed.reverse) then .ok () else .error fault,
            after) := by
  rw [makeAll.eq_def]
  simp only [if_neg named, failed]
  split
  · next first => simp [first] at found
  · next other same =>
    obtain rfl := Option.some.inj (same.symm.trans found)
    rfl

end

/-- A directory that was made is found. -/
theorem find_of_makeDirectory (made : volume.makeDirectory path = (.ok (), after)) :
    ∃ place, after.find path = .ok (place, .directory) := by
  have paves := Paves.makeDirectory volume path
  rw [made] at paves
  rcases volume.makeDirectory_cases path with ⟨fault, failed⟩ |
    ⟨outer, last, blanks, here, checked, parts, empty, walked, standing, plain, absent, made'⟩
  · simp [failed] at made
  · obtain ⟨-, same⟩ := Prod.mk.inj (made'.symm.trans made)
    have stands : after.nodeAt (here ++ [last]) = some .directory := by
      rw [← same, nodeAt_concat, if_pos rfl, absent, Option.none_or]
    have above := paves.directory standing
    refine ⟨here ++ [last], find_eq_ok_iff.mpr ⟨checked, ?_, stands⟩⟩
    rw [parts, walk_append, walk_congr (fun _ => paves.directory) walked standing]
    show after.walk here (last :: blanks) = .ok (here ++ [last])
    rw [walk, enter_of_plain above plain, stands]
    exact walk_blanks stands empty

/-- So is one that was made with those above it that were missing. -/
theorem find_of_makeDirectories (named : path ≠ "")
    (made : volume.makeDirectories path = (.ok (), after)) :
    ∃ place, after.find path = .ok (place, .directory) := by
  have of_isDirectory {other : Volume} (directory : other.isDirectory path = true) :
      ∃ place, other.find path = .ok (place, .directory) := by
    unfold isDirectory at directory
    split at directory
    · next place found => exact ⟨place, found⟩
    · contradiction
  rw [makeDirectories, Volume.makeAll, List.reverse_reverse, joined_segments, if_neg named] at made
  split at made
  · next single made_single =>
    obtain rfl := (Prod.mk.inj made).2
    exact find_of_makeDirectory made_single
  · split at made
    · simp at made
    · split at made
      · simp at made
      · next reached _ =>
        split at made
        · next last made_last =>
          obtain rfl := (Prod.mk.inj made).2
          exact find_of_makeDirectory made_last
        · obtain ⟨result, rfl⟩ := Prod.mk.inj made
          split at result
          · next directory => exact of_isDirectory directory
          · contradiction
  · obtain ⟨result, rfl⟩ := Prod.mk.inj made
    split at result
    · next directory => exact of_isDirectory directory
    · contradiction

end Trajectory.Volume
