import Trajectory.Proofs.Volume.Stores
/-!
# Inside a directory

What it means that a change stays within a directory, and that two volumes are alike inside one.
Walks that do not go up from a directory stay inside, so that volumes which are alike there agree on
everything that is found on such walks; and changes within the directory, made in both, leave them
alike.
-/
namespace Trajectory.Volume

variable {volume left right between after : Volume} {base names segs : List String}
  {place here there other : Place} {path name : String}

/-- A place is strictly inside another. -/
def Inside (place other : Place) : Prop := place <+: other ∧ other ≠ place

/-- An entry of a directory at or inside a place is inside it. -/
theorem inside_concat (leads : place <+: here) (name : String) : Inside place (here ++ [name]) := by
  refine ⟨leads.trans (List.prefix_append here [name]), fun same => ?_⟩
  have shorter := leads.length_le
  have length := congrArg List.length same
  rw [List.length_append, List.length_singleton] at length
  omega

/-- Nothing outside a directory is made or changed: what does not stand inside stands as it did, and
a file that stands nowhere inside has the contents that it had. -/
structure Within (volume : Volume) (place : Place) (after : Volume) : Prop where
  /-- What stands anywhere else stands there as it did. -/
  nodes : ∀ {other}, ¬ Inside place other → after.nodeAt other = volume.nodeAt other
  /-- A directory stays one. -/
  directory : ∀ {other}, volume.nodeAt other = some .directory →
    after.nodeAt other = some .directory
  /-- No file is lost. -/
  length : volume.files.length ≤ after.files.length
  /-- A file that stands nowhere inside has the contents that it had. -/
  content : ∀ {number}, number < volume.files.length →
    (∀ other, Inside place other → volume.nodeAt other ≠ some (.file number)) →
    after.content number = volume.content number
  /-- A file that stands inside stood inside, or is new. -/
  origin : ∀ {other number}, Inside place other → after.nodeAt other = some (.file number) →
    number < volume.files.length →
    ∃ before, Inside place before ∧ volume.nodeAt before = some (.file number)

namespace Within

/-- What changes nothing stays within every directory. -/
theorem refl (volume : Volume) (place : Place) : volume.Within place volume where
  nodes _ := rfl
  directory standing := standing
  length := Nat.le_refl _
  content _ _ := rfl
  origin inside standing _ := ⟨_, inside, standing⟩

/-- Two changes within a directory are one. -/
theorem trans (first : volume.Within place between) (second : between.Within place after) :
    volume.Within place after where
  nodes outside := (second.nodes outside).trans (first.nodes outside)
  directory standing := second.directory (first.directory standing)
  length := Nat.le_trans first.length second.length
  content := by
    intro number present nowhere
    have still : ∀ other, Inside place other → between.nodeAt other ≠ some (.file number) := by
      intro other inside standing
      obtain ⟨before, within, stood⟩ := first.origin inside standing present
      exact nowhere before within stood
    have kept := second.content (Nat.lt_of_lt_of_le present first.length) still
    rw [kept, first.content present nowhere]
  origin := by
    intro other number inside standing present
    obtain ⟨middle, within, stood⟩ :=
      second.origin inside standing (Nat.lt_of_lt_of_le present first.length)
    exact first.origin within stood present

/-- A directory that is made inside another, where nothing stood. -/
theorem makeDirectory (inside : Inside place other) (absent : volume.nodeAt other = none) :
    volume.Within place { volume with nodes := volume.nodes ++ [(other, .directory)] } := by
  have nodes {place' : Place} (distinct : place' ≠ other) :
      nodeAt { volume with nodes := volume.nodes ++ [(other, .directory)] } place' =
        volume.nodeAt place' := by
    rw [nodeAt_concat, if_neg distinct, Option.or_none]
  refine ⟨fun outside => nodes ?_, fun standing => ?_, Nat.le_refl _, fun _ _ => rfl,
    fun within standing _ => ?_⟩
  · rintro rfl
    exact outside inside
  · rw [nodeAt_concat, standing, Option.some_or]
  · refine ⟨_, within, ?_⟩
    rw [← standing]
    refine (nodes ?_).symm
    rintro rfl
    simp [nodeAt_concat, absent] at standing

/-- A file that is added inside a directory, where nothing stood. -/
theorem addFile (inside : Inside place other) (absent : volume.nodeAt other = none) :
    volume.Within place (volume.addFile other).2 := by
  have nodes {place' : Place} (distinct : place' ≠ other) :
      (volume.addFile other).2.nodeAt place' = volume.nodeAt place' := by
    rw [nodeAt_addFile, if_neg distinct, Option.or_none]
  refine ⟨fun outside => nodes ?_, fun standing => ?_, (Spares.addFile volume 0 other).length,
    fun {number} _ _ => content_addFile volume other number,
    fun {place' number} within standing present => ?_⟩
  · rintro rfl
    exact outside inside
  · rw [nodeAt_addFile, standing, Option.some_or]
  · refine ⟨_, within, ?_⟩
    rw [← standing]
    refine (nodes ?_).symm
    rintro rfl
    rw [nodeAt_addFile, absent, Option.none_or, if_pos rfl] at standing
    have same : volume.files.length = number := Node.file.inj (Option.some.inj standing)
    omega

/-- A file that stands inside a directory is given bytes. -/
theorem setBytes {number : Nat} (inside : Inside place other)
    (standing : volume.nodeAt other = some (.file number)) (data : List UInt8) :
    volume.Within place (volume.setBytes number data) := by
  obtain ⟨nodes, -, length⟩ := volume.frame_setBytes number data
  refine ⟨fun _ => nodeAt_congr nodes _, fun there => ?_, Nat.le_of_eq length.symm,
    fun {found} present nowhere => ?_, fun within found _ => ⟨_, within, ?_⟩⟩
  · rw [nodeAt_congr nodes, there]
  · have distinct : found ≠ number := by
      rintro rfl
      exact nowhere other inside standing
    exact (Spares.setBytes volume number data).content present distinct
  · rw [← nodeAt_congr nodes, found]

end Within

/-! ## Volumes with the same tree inside -/

/-- A path of segments leads to a directory. -/
structure Based (volume : Volume) (base : List String) (place : Place) : Prop where
  /-- It leads to the place. -/
  walked : volume.walk [] base = .ok place
  /-- A directory stands there. -/
  directory : volume.nodeAt place = some .directory

/-- A directory stays where it is. -/
theorem Based.within (based : volume.Based base place) (within : volume.Within there after) :
    after.Based base place :=
  ⟨walk_congr (fun _ => within.directory) based.walked based.directory,
    within.directory based.directory⟩

/-- Every part of the way to a directory leads to a directory. -/
theorem Based.part (based : volume.Based base place) (leads : segs <+: base) :
    ∃ here, volume.Based segs here := by
  obtain ⟨rest, rfl⟩ := leads
  have walked := based.walked
  rw [walk_append] at walked
  cases first : volume.walk [] segs with
  | error fault => simp [first, Except.bind] at walked
  | ok here =>
    rw [first] at walked
    exact ⟨here, first, directory_of_walk walked based.directory⟩

/-- A segment that does not go up stays inside. -/
theorem prefix_of_enter (leads : place <+: here) (staying : name ≠ "..")
    (entered : volume.enter here name = .ok there) : place <+: there := by
  rcases (enter_eq_ok_iff.mp entered).2 with ⟨-, rfl⟩ | ⟨up, -⟩ | ⟨-, rfl, -⟩
  · exact leads
  · exact absurd up staying
  · exact leads.trans (List.prefix_append here [name])

/-- So does a walk that never goes up. -/
theorem prefix_of_walk (leads : place <+: here) (staying : ".." ∉ names)
    (walked : volume.walk here names = .ok there) : place <+: there := by
  rw [walk_of_staying staying walked]
  exact leads.trans (List.prefix_append _ _)

namespace Based

/-- A path that goes on after the segments of a directory is walked on from there. -/
theorem walk (based : volume.Based base place) (rest : List String) :
    volume.walk [] (base ++ rest) = volume.walk place rest := by
  rw [walk_append, based.walked]
  rfl

/-- The directory that such a path leads to is at or inside the one it goes on from. -/
theorem prefix_of_parentDirectory (based : volume.Based base place) (staying : ".." ∉ names)
    (parent : volume.parentDirectory (base ++ names) = .ok here) : place <+: here := by
  have walked := (walk_of_parentDirectory parent).1
  rw [based.walk] at walked
  exact prefix_of_walk List.prefix_rfl staying walked

/-- What is found at a path on the way to a directory is a directory. -/
theorem find (based : volume.Based base place) (before : segments path <+: base)
    (checked : checkPath path = .ok ()) : ∃ here, volume.find path = .ok (here, .directory) := by
  obtain ⟨here, walked, standing⟩ := based.part before
  exact ⟨here, find_eq_ok_iff.mpr ⟨checked, walked, standing⟩⟩

end Based

/-- Two volumes in which a path of segments leads to the same directory, with the same files inside
it under the same names. Whatever else they hold may differ, but for how many files there are. -/
structure Twins (base : List String) (place : Place) (left right : Volume) : Prop where
  /-- The path leads to the directory in the one. -/
  one : left.Based base place
  /-- It does in the other. -/
  another : right.Based base place
  /-- The same stands inside. -/
  nodes : ∀ {other}, Inside place other → right.nodeAt other = left.nodeAt other
  /-- There are as many files. -/
  count : right.files.length = left.files.length
  /-- The files inside have the same contents. -/
  content : ∀ {other number}, Inside place other → left.nodeAt other = some (.file number) →
    right.content number = left.content number

namespace Twins

/-- A volume is its own twin. -/
theorem refl (based : volume.Based base place) : Twins base place volume volume :=
  ⟨based, based, fun _ => rfl, rfl, fun _ _ => rfl⟩

/-- The two may be exchanged. -/
theorem symm (twins : Twins base place left right) : Twins base place right left where
  one := twins.another
  another := twins.one
  nodes inside := (twins.nodes inside).symm
  count := twins.count.symm
  content inside standing :=
    (twins.content inside (twins.nodes inside ▸ standing)).symm

/-- The same stands at the directory and inside. -/
theorem nodeAt (twins : Twins base place left right) (leads : place <+: here) :
    right.nodeAt here = left.nodeAt here := by
  by_cases same : here = place
  · rw [same, twins.one.directory, twins.another.directory]
  · exact twins.nodes ⟨leads, same⟩

/-- The same segments are passed, with the same outcome. -/
theorem enter (twins : Twins base place left right) (leads : place <+: here) (name : String) :
    right.enter here name = left.enter here name := by
  rw [Volume.enter, Volume.enter, twins.nodeAt leads,
    twins.nodeAt (leads.trans (List.prefix_append here [name]))]

/-- A walk that never goes up is the same. -/
theorem walk (twins : Twins base place left right) (leads : place <+: here)
    (staying : ".." ∉ names) : right.walk here names = left.walk here names := by
  induction names generalizing here with
  | nil => rfl
  | cons segment rest ih =>
    rw [List.mem_cons, not_or] at staying
    rw [Volume.walk, Volume.walk, twins.enter leads]
    cases entered : left.enter here segment with
    | error fault => rfl
    | ok middle => exact ih (prefix_of_enter leads (Ne.symm staying.1) entered) staying.2

/-- Twins agree on the directory that such a path leads to. -/
theorem parentDirectory (twins : Twins base place left right) (staying : ".." ∉ names) :
    right.parentDirectory (base ++ names) = left.parentDirectory (base ++ names) := by
  have walks := twins.walk List.prefix_rfl staying
  rw [Volume.parentDirectory, Volume.parentDirectory, twins.one.walk, twins.another.walk, walks]
  cases walked : left.walk place names with
  | error fault => rfl
  | ok there =>
    dsimp only
    rw [twins.nodeAt (prefix_of_walk List.prefix_rfl staying walked)]

/-- Twins agree on what is found at a path that goes on from the directory. -/
theorem find (twins : Twins base place left right) (parts : segments path = base ++ names)
    (staying : ".." ∉ names) : right.find path = left.find path := by
  have walks := twins.walk List.prefix_rfl staying
  rw [Volume.find, Volume.find, parts, twins.one.walk, twins.another.walk, walks]
  cases checkPath path with
  | error fault => rfl
  | ok =>
    cases walked : left.walk place names with
    | error fault => rfl
    | ok there =>
      dsimp only
      rw [twins.nodeAt (prefix_of_walk List.prefix_rfl staying walked)]

/-- Twins agree on the contents of the file at a path that goes on from the directory. -/
theorem load (twins : Twins base place left right) (parts : segments path = base ++ names)
    (staying : ".." ∉ names) : right.load path = left.load path := by
  unfold Volume.load openFile
  rw [twins.find parts staying]
  rcases found : left.find path with fault | ⟨there, _ | number⟩
  · rfl
  · rfl
  · obtain ⟨-, walked, standing⟩ := find_eq_ok_iff.mp found
    rw [parts, twins.one.walk] at walked
    have inside : Inside place there := by
      refine ⟨prefix_of_walk List.prefix_rfl staying walked, ?_⟩
      rintro rfl
      simp [twins.one.directory] at standing
    dsimp only
    rw [bytes, bytes, twins.content inside standing]

/-- Twins that change within the directory are twins if they are alike inside afterwards. -/
theorem within {left' right' : Volume} (twins : Twins base place left right)
    (one : left.Within place left') (another : right.Within place right')
    (nodes : ∀ {other}, Inside place other → right'.nodeAt other = left'.nodeAt other)
    (count : right'.files.length = left'.files.length)
    (content : ∀ {other number}, Inside place other → left'.nodeAt other = some (.file number) →
      right'.content number = left'.content number) : Twins base place left' right' :=
  ⟨twins.one.within one, twins.another.within another, nodes, count, content⟩

/-- A directory is made in both. -/
theorem makeDirectory (twins : Twins base place left right) (inside : Inside place other)
    (absent : left.nodeAt other = none) :
    Twins base place { left with nodes := left.nodes ++ [(other, .directory)] }
      { right with nodes := right.nodes ++ [(other, .directory)] } := by
  have absent_right := (twins.nodes inside).trans absent
  refine twins.within (.makeDirectory inside absent) (.makeDirectory inside absent_right)
    (fun within => ?_) twins.count fun {there number} within standing => ?_
  · rw [nodeAt_concat, nodeAt_concat, twins.nodes within]
  · have distinct : there ≠ other := by
      rintro rfl
      simp [nodeAt_concat, absent] at standing
    rw [nodeAt_concat, if_neg distinct, Option.or_none] at standing
    exact twins.content within standing

/-- A file is added to both. -/
theorem addFile (twins : Twins base place left right) (inside : Inside place other)
    (absent : left.nodeAt other = none) :
    Twins base place (left.addFile other).2 (right.addFile other).2 := by
  have absent_right := (twins.nodes inside).trans absent
  have longer (volume : Volume) :
      (volume.addFile other).2.files.length = volume.files.length + 1 := List.length_append
  refine twins.within (.addFile inside absent) (.addFile inside absent_right)
    (fun within => ?_) ?_ fun {there number} within standing => ?_
  · rw [nodeAt_addFile, nodeAt_addFile, twins.nodes within, twins.count]
  · rw [longer, longer, twins.count]
  · rw [content_addFile, content_addFile]
    by_cases same : there = other
    · rw [same, nodeAt_addFile, absent, Option.none_or, if_pos rfl] at standing
      obtain rfl := Node.file.inj (Option.some.inj standing)
      rw [content_of_le (Nat.le_refl _), content_of_le (Nat.le_of_eq twins.count)]
    · rw [nodeAt_addFile, if_neg same, Option.or_none] at standing
      exact twins.content within standing

/-- A file that stands inside is given the same bytes in both. -/
theorem setBytes {number : Nat} (twins : Twins base place left right) (inside : Inside place other)
    (standing : left.nodeAt other = some (.file number)) (data : List UInt8) :
    Twins base place (left.setBytes number data) (right.setBytes number data) := by
  have standing_right := (twins.nodes inside).trans standing
  obtain ⟨nodes, -, length⟩ := left.frame_setBytes number data
  obtain ⟨nodes_right, -, length_right⟩ := right.frame_setBytes number data
  refine twins.within (.setBytes inside standing data) (.setBytes inside standing_right data)
    (fun within => ?_) ?_ fun {there found} within stands => ?_
  · rw [nodeAt_congr nodes, nodeAt_congr nodes_right, twins.nodes within]
  · rw [length, length_right, twins.count]
  · rw [nodeAt_congr nodes] at stands
    have same := twins.content within stands
    have given (content : Content) :
        (right.setContent number content).content found =
          (left.setContent number content).content found :=
      content_setContent_congr twins.count same number content
    unfold Volume.setBytes
    rw [twins.content inside standing]
    split
    · exact given _
    · split
      · exact same
      · exact given _

end Twins

end Trajectory.Volume
