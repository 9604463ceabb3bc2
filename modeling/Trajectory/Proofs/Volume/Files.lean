import Trajectory.Proofs.Volume.Path
/-!
# Contents of files

What a change of one file leaves of the others. New files are numbered behind those there are, so a
file that is added has the number of no other. A file that is found was found before, as long as
nothing has been added to the tree.
-/
namespace Trajectory.Volume

variable {volume between after : Volume} {number : Nat}

/-- A file of plain bytes has these bytes. -/
theorem bytes_of_content {data : List UInt8} (content : volume.content number = .bytes data) :
    volume.bytes number = data := by
  rw [bytes, content]
  rfl

/-- A file of plain bytes that is given others has those. -/
theorem content_setBytes {data : List UInt8} (inside : number < volume.files.length)
    (content : volume.content number = .bytes data) (bytes : List UInt8) :
    (volume.setBytes number bytes).content number = .bytes bytes := by
  rw [setBytes, content]
  exact content_setContent inside _

/-- A file that was opened to be written from the start is a new one, or one that was there and has
been emptied. -/
theorem create_cases {path : String} (created : volume.create path = (.ok number, after)) :
    number = volume.files.length ∧ after.files = volume.files ++ [.bytes []] ∨
      ∃ place, volume.nodeAt place = some (.file number) ∧ after = volume.setBytes number [] := by
  obtain ⟨here, name, leads⟩ := leads_of_create created
  rw [leads.create] at created
  cases node : volume.nodeAt (here ++ [name]) with
  | none =>
    rw [node] at created
    obtain ⟨same, rfl⟩ := Prod.mk.inj created
    exact .inl ⟨(Except.ok.inj same).symm, rfl⟩
  | some standing =>
    rw [node] at created
    cases standing with
    | directory => simp at created
    | file other =>
      obtain ⟨same, rfl⟩ := Prod.mk.inj created
      obtain rfl := Except.ok.inj same
      exact .inr ⟨_, node, rfl⟩

/-- A file that was opened to be written from the start exists. -/
theorem inside_of_create {path : String} (sound : volume.Sound)
    (created : volume.create path = (.ok number, after)) : number < after.files.length := by
  obtain ⟨rfl, files⟩ | ⟨place, node, rfl⟩ := create_cases created
  · rw [files, List.length_append]
    exact Nat.lt_succ_self _
  · rw [(volume.frame_setBytes number []).2.2]
    exact sound node

/-- A file that was opened to be written from the start is empty. -/
theorem content_of_create {path : String} (created : volume.create path = (.ok number, after))
    (inside : number < after.files.length) : after.content number = .bytes [] := by
  obtain ⟨rfl, files⟩ | ⟨place, node, rfl⟩ := create_cases created
  · rw [Volume.content, files, List.getD_eq_getElem?_getD, List.getElem?_concat_length,
      Option.getD_some]
  · rw [(volume.frame_setBytes number []).2.2] at inside
    unfold setBytes
    split
    · exact content_setContent inside _
    · next rows _ =>
      have longer : (Content.database rows).toBytes.isPrefixOf [] = false := rfl
      rw [longer, if_neg Bool.false_ne_true]
      exact content_setContent inside _

/-- A file is found where it was found in a tree that stands in all of its places. -/
theorem find_congr {path : String} {place : Place} {other : Volume}
    (kept : ∀ place node, other.nodeAt place = some node → volume.nodeAt place = some node)
    (found : other.find path = .ok (place, .file number)) :
    volume.find path = .ok (place, .file number) := by
  obtain ⟨here, name, leads, rfl, node⟩ := leads_of_find found
  rw [(leads.congr fun place directory => kept place _ directory).find, kept _ _ node]

/-- No file is lost when one is removed. -/
theorem Pruned.length {other : Volume} (pruned : volume.Pruned other) :
    volume.files.length ≤ other.files.length :=
  Nat.le_of_eq (congrArg List.length pruned.frame.1).symm

/-- Every file keeps its contents when one is removed. -/
theorem Pruned.content {other : Volume} (pruned : volume.Pruned other) (number : Nat) :
    other.content number = volume.content number := by
  rw [Volume.content, Volume.content, pruned.frame.1]

/-- A file that is found after another may have been removed was found before. -/
theorem Pruned.find {path : String} {place : Place} {other : Volume} (pruned : volume.Pruned other)
    (found : other.find path = .ok (place, .file number)) :
    volume.find path = .ok (place, .file number) := by
  refine find_congr (fun place node standing => ?_) found
  rw [← standing]
  refine ((pruned.nodeAt place).resolve_left fun gone => ?_).symm
  rw [gone] at standing
  contradiction

/-- A file that is found can be opened. -/
theorem openFile_of_find {path : String} {place : Place}
    (found : volume.find path = .ok (place, .file number)) : volume.openFile path = .ok number := by
  rw [openFile, found]

/-- A file that was removed was found. -/
theorem find_of_remove {path : String} (removed : volume.remove path = (.ok (), after)) :
    ∃ place number, volume.find path = .ok (place, .file number) := by
  unfold remove at removed
  split at removed
  · simp at removed
  · simp at removed
  · next place number found => exact ⟨place, number, found⟩

/-- Other files keep their contents when one is given new ones. -/
theorem content_setContent_of_ne {other : Nat} (distinct : other ≠ number) (content : Content) :
    (volume.setContent number content).content other = volume.content other := by
  rw [setContent, Volume.content, Volume.content, List.getD_eq_getElem?_getD,
    List.getD_eq_getElem?_getD, List.getElem?_set_ne distinct.symm]

/-- A file that is added changes no contents: it is as empty as one that there is not. -/
theorem content_addFile (volume : Volume) (place : Place) (number : Nat) :
    (volume.addFile place).2.content number = volume.content number := by
  have files : (volume.addFile place).2.files = volume.files ++ [.bytes []] := rfl
  rw [content, content, files, List.getD_eq_getElem?_getD, List.getD_eq_getElem?_getD]
  by_cases before : number < volume.files.length
  · rw [List.getElem?_append_left before]
  · have behind := Nat.not_lt.mp before
    rw [List.getElem?_append_right behind, List.getElem?_eq_none behind, Option.getD_none]
    cases number - volume.files.length <;> rfl

/-- A file that there is not is empty. -/
theorem content_of_le (behind : volume.files.length ≤ number) :
    volume.content number = .bytes [] := by
  rw [content, List.getD_eq_getElem?_getD, List.getElem?_eq_none behind, Option.getD_none]

/-- A file has the same contents in two volumes with as many files after one of the files is given
the same contents in both. -/
theorem content_setContent_congr {left right : Volume} {found : Nat}
    (count : right.files.length = left.files.length)
    (same : right.content found = left.content found) (number : Nat) (content : Content) :
    (right.setContent number content).content found =
      (left.setContent number content).content found := by
  by_cases distinct : found ≠ number
  · rw [content_setContent_of_ne distinct, content_setContent_of_ne distinct, same]
  · obtain rfl := Decidable.not_not.mp distinct
    by_cases inside : found < left.files.length
    · rw [content_setContent inside, content_setContent (count ▸ inside)]
    · have behind := Nat.not_lt.mp inside
      have none_left : (left.setContent found content).files.length ≤ found := by
        rw [setContent, List.length_set]
        exact behind
      have none_right : (right.setContent found content).files.length ≤ found := by
        rw [setContent, List.length_set, count]
        exact behind
      rw [content_of_le none_left, content_of_le none_right]

/-- A volume spares all files but one: no file is lost, and those that there were have the contents
that they had. -/
structure Spares (volume : Volume) (number : Nat) (after : Volume) : Prop where
  /-- No file is lost. -/
  length : volume.files.length ≤ after.files.length
  /-- The others have the contents that they had. -/
  content : ∀ {other}, other < volume.files.length → other ≠ number →
    after.content other = volume.content other

namespace Spares

/-- What changes no files spares all. -/
theorem of_files (number : Nat) (same : after.files = volume.files) :
    volume.Spares number after :=
  ⟨Nat.le_of_eq (congrArg List.length same).symm, fun _ _ => by
    rw [Volume.content, Volume.content, same]⟩

/-- What changes nothing spares all files. -/
theorem refl (volume : Volume) (number : Nat) : volume.Spares number volume := of_files number rfl

/-- What is spared twice is spared. -/
theorem trans (first : volume.Spares number between) (second : between.Spares number after) :
    volume.Spares number after := by
  refine ⟨Nat.le_trans first.length second.length, fun inside distinct => ?_⟩
  rw [second.content (Nat.lt_of_lt_of_le inside first.length) distinct,
    first.content inside distinct]

/-- A file that is given contents spares the others. -/
theorem setContent (volume : Volume) (number : Nat) (content : Content) :
    volume.Spares number (volume.setContent number content) :=
  ⟨Nat.le_of_eq List.length_set.symm, fun _ distinct => content_setContent_of_ne distinct content⟩

/-- A file that is given bytes spares the others. -/
theorem setBytes (volume : Volume) (number : Nat) (data : List UInt8) :
    volume.Spares number (volume.setBytes number data) := by
  unfold Volume.setBytes
  split
  · exact setContent volume number _
  · split
    · exact refl volume number
    · exact setContent volume number _

/-- A file that is added spares all others. -/
theorem addFile (volume : Volume) (number : Nat) (place : Place) :
    volume.Spares number (volume.addFile place).2 := by
  have files : (volume.addFile place).2.files = volume.files ++ [.bytes []] := rfl
  refine ⟨?_, fun inside _ => ?_⟩
  · rw [files, List.length_append]
    exact Nat.le_add_right _ _
  · rw [Volume.content, Volume.content, files, List.getD_eq_getElem?_getD,
      List.getD_eq_getElem?_getD, List.getElem?_append_left inside]

/-- A file that is removed keeps its contents, and so do all others. -/
theorem pruned (number : Nat) (pruned : volume.Pruned after) : volume.Spares number after :=
  of_files number pruned.frame.1

end Spares

end Trajectory.Volume
