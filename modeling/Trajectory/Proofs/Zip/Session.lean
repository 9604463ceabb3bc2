import Mathlib.Data.List.Forall2
import Trajectory.Proofs.Zip.Completed
import Trajectory.Zip.Archive
/-!
# What a session leaves

A session puts its entries behind what the file held, and completes the file behind the last of
them. Up to there the file stays as it is, so that every entry, old or new, rests in the front of
the completed file with the contents it has, and is found there when the file is opened again.
-/
namespace Trajectory

namespace Bytes

/-- Bytes that reach to the end of a file take the place of its end. -/
theorem overwrite_to_end {data bytes : List UInt8} {offset : Nat} (within : offset ≤ data.length)
    (covers : data.length ≤ offset + bytes.length) :
    overwrite data offset bytes = data.take offset ++ bytes := by
  by_cases none : bytes = []
  · subst none
    rw [overwrite_nil, List.append_nil]
    exact (List.take_of_length_le covers).symm
  · rw [overwrite, if_neg (by simpa using none), Nat.sub_eq_zero_of_le within,
      List.drop_of_length_le covers, List.append_nil]
    rfl

/-- A file begins with what it was up to where something was written, and that. -/
theorem prefix_of_overwrite (data : List UInt8) (offset : Nat) {bytes : List UInt8}
    (some_byte : bytes ≠ []) : resize data offset ++ bytes <+: overwrite data offset bytes := by
  rw [← resize_overwrite, resize_of_le (le_length_overwrite data offset some_byte)]
  exact List.take_prefix _ _

/-- What is written inside a file, behind a front of it, keeps the front and the length. -/
theorem overwrite_behind {front data bytes : List UInt8} {offset : Nat} (kept : front <+: data)
    (behind : front.length ≤ offset) (inside : offset + bytes.length ≤ data.length)
    (some_byte : bytes ≠ []) :
    front <+: overwrite data offset bytes ∧ (overwrite data offset bytes).length = data.length :=
  ⟨prefix_overwrite kept behind bytes,
    (length_overwrite data offset some_byte).trans (Nat.max_eq_left inside)⟩

end Bytes

namespace Zip

open Bytes (At)

/-! ## Completing a file -/

/-- A second end record is as long wherever the directory starts. -/
theorem length_wideEnd (count size start : Nat) (data : List UInt8) :
    (wideEnd count size start data).length = wideEndLength + data.length + locatorLength := by
  simp only [wideEnd, List.length_append, LittleEndian.length_encode, wideEndLength, locatorLength]

section Ending

variable (entries : List Entry) (remark : Remark)

/-- What follows the front of a completed file is the directory and the end records. -/
theorem ending_eq (start : Nat) : ending entries remark start = directory entries ++
    (second entries remark start ++
      endRecord entries.length (directory entries).length start remark.comment) := by
  rw [← List.append_assoc]
  rfl

/-- The end record is part of what follows. -/
theorem le_length_ending (start : Nat) :
    endLength + remark.comment.length ≤ (ending entries remark start).length := by
  rw [ending_eq, List.length_append, List.length_append, length_endRecord]
  omega

/-- What follows is not shorter further behind. -/
theorem length_ending_mono {start later : Nat} (behind : start ≤ later) :
    (ending entries remark start).length ≤ (ending entries remark later).length := by
  have second_mono : (second entries remark start).length ≤
      (second entries remark later).length := by
    unfold second
    by_cases wide : TakesWide entries remark start
    · have wide_later : TakesWide entries remark later := by
        obtain many | large | kept := wide
        · exact .inl many
        · exact .inr (.inl (by omega))
        · exact .inr (.inr kept)
      rw [if_pos wide, if_pos wide_later]
      exact Nat.le_of_eq ((length_wideEnd ..).trans (length_wideEnd ..).symm)
    · rw [if_neg wide]
      exact Nat.zero_le _
  rw [ending_eq, ending_eq]
  simp only [List.length_append, length_endRecord]
  omega

/-- An ending that reaches to the end of a file completes it behind what stays. -/
theorem overwrite_ending {file : List UInt8} {start : Nat} (inside : start ≤ file.length)
    (covers : file.length ≤ start + (ending entries remark start).length) :
    Bytes.overwrite file start (ending entries remark start) =
      completed (file.take start) entries remark := by
  rw [Bytes.overwrite_to_end inside covers, completed, List.length_take_of_le inside]

/-- A directory that is voided at its place, and written once more at the end of the file, completes
the file behind a front that begins as the file does up to the first place. -/
theorem moved_ending {front written : List UInt8} {position : Nat} (place : front.length = position)
    (kept : front <+: written)
    (longer : position + (ending entries remark position).length < written.length) :
    let last := ending entries remark position
    let voided := Bytes.overwrite (Bytes.overwrite written position (Bytes.zeros 4))
      (position + last.length - endLength - remark.comment.length) (Bytes.zeros 4)
    let start := written.length - last.length
    front <+: voided.take start ∧
      Bytes.overwrite voided start (ending entries remark start) =
        completed (voided.take start) entries remark := by
  intro last voided start
  have longer : position + last.length < written.length := longer
  have long : 22 + remark.comment.length ≤ last.length := le_length_ending entries remark position
  have four : Bytes.zeros 4 ≠ [] := List.cons_ne_nil _ _
  obtain ⟨kept_once, length_once⟩ := Bytes.overwrite_behind kept (Nat.le_of_eq place)
    (by rw [Bytes.length_zeros]; omega) four
  obtain ⟨kept_twice, length_twice⟩ := @Bytes.overwrite_behind _ _ _
    (position + last.length - 22 - remark.comment.length) kept_once (by omega)
    (by rw [Bytes.length_zeros]; omega) four
  have length_voided : voided.length = written.length := length_twice.trans length_once
  have further : position ≤ start := by omega
  have mono : last.length ≤ (ending entries remark start).length :=
    length_ending_mono entries remark further
  have inside : start ≤ voided.length := by omega
  have covers : voided.length ≤ start + (ending entries remark start).length := by omega
  exact ⟨List.prefix_take_iff.mpr ⟨kept_twice, by omega⟩,
    overwrite_ending entries remark inside covers⟩

end Ending

/-- A session completes the file behind a front that begins as the file does, up to where the
directory would go. -/
theorem Session.complete_eq (session : Session) (file : List UInt8) :
    ∃ front, Bytes.resize file session.position <+: front ∧
      session.complete file = completed front session.entries session.remark := by
  let last := ending session.entries session.remark session.position
  have long : endLength + session.remark.comment.length ≤ last.length :=
    le_length_ending session.entries session.remark session.position
  have some_byte : last ≠ [] := by
    intro none
    rw [none, endLength, List.length_nil] at long
    omega
  let written := Bytes.overwrite file session.position last
  have begins : Bytes.resize file session.position ++ last <+: written :=
    Bytes.prefix_of_overwrite file session.position some_byte
  have front := Bytes.length_resize file session.position
  unfold Session.complete
  dsimp only
  split
  · next longer =>
    have kept : Bytes.resize file session.position <+: written :=
      (List.prefix_append _ _).trans begins
    exact ⟨_, moved_ending session.entries session.remark front kept longer⟩
  · next full =>
    have full : ¬ session.position + last.length < written.length := full
    refine ⟨Bytes.resize file session.position, List.prefix_rfl, ?_⟩
    rw [completed, front]
    exact (begins.eq_of_length_le (by rw [List.length_append, front]; omega)).symm

/-! ## Entries in the front of a file -/

/-- What holding an entry gives. -/
theorem hold_cases {file : List UInt8} {entry : Entry} {held : Held}
    (found : hold file entry = .ok held) :
    held.entry = entry ∧ entry.offset + localLength ≤ held.start := by
  unfold hold at found
  dsimp only at found
  split at found
  · split at found
    · obtain rfl := Except.ok.inj found
      exact ⟨rfl, by dsimp only; omega⟩
    · contradiction
  · contradiction

variable {file other : List UInt8} {entry again : Entry} {start : Nat}

/-- A local record is found wherever its bytes are the same, for any entry at the same place. -/
theorem hold_of_slice
    (slice : (other.drop entry.offset).take localLength = (file.drop entry.offset).take localLength)
    (same : again.offset = entry.offset) (found : hold file entry = .ok ⟨entry, start⟩) :
    hold other again = .ok ⟨again, start⟩ := by
  unfold hold at found ⊢
  rw [same, slice]
  dsimp only at found ⊢
  split at found
  · split at found
    · next marked =>
      rw [if_pos marked]
      exact congrArg Except.ok (congrArg (Held.mk again) (Held.mk.inj (Except.ok.inj found)).2)
    · contradiction
  · contradiction

/-- The contents of an entry depend on its stored bytes and on what they are read by. -/
theorem contents_of_slice
    (slice : (other.drop start).take entry.length = (file.drop start).take entry.length)
    (same : again.bare = entry.bare) :
    Archive.contents other ⟨again, start⟩ = Archive.contents file ⟨entry, start⟩ := by
  obtain ⟨-, -, method, checksum, length, -, -, -, -, encrypted, sealed⟩ := Entry.mk.inj same
  unfold Archive.contents
  simp only [method, checksum, length, encrypted, sealed, slice]

/-- An entry rests in the front of a file: its local record leads to stored bytes there that have
certain contents, and it is read back from its directory record. -/
structure Entry.Rests (front : List UInt8) (entry : Entry)
    (result : Except ArchiveError (List UInt8)) : Prop where
  /-- Its stored bytes are there. -/
  held : ∃ start, hold front entry = .ok ⟨entry, start⟩ ∧ start + entry.length ≤ front.length ∧
    Archive.contents front ⟨entry, start⟩ = result
  /-- It is read back. -/
  rereads : entry.Rereads

namespace Entry.Rests

variable {front : List UInt8} {result : Except ArchiveError (List UInt8)}

/-- It is found again, with its contents, wherever the file goes on in the same way. -/
theorem found_again (rests : entry.Rests front result) (kept : front <+: file)
    (same : again.bare = entry.bare) :
    ∃ start, hold file again = .ok ⟨again, start⟩ ∧ start + entry.length ≤ front.length ∧
      Archive.contents file ⟨again, start⟩ = result := by
  obtain ⟨start, found, inside, contents⟩ := rests.held
  have behind : entry.offset + localLength ≤ start := (hold_cases found).2
  have offset : again.offset = entry.offset := (Entry.mk.inj same).2.2.2.2.2.2.1
  exact ⟨start, hold_of_slice (Bytes.slice_of_prefix kept (by omega)) offset found, inside,
    (contents_of_slice (Bytes.slice_of_prefix kept inside) same).trans contents⟩

/-- It rests in every front that begins with this one. -/
theorem mono (rests : entry.Rests front result) (kept : front <+: file) :
    entry.Rests file result := by
  obtain ⟨start, found, inside, contents⟩ := rests.found_again kept rfl
  exact ⟨⟨start, found, Nat.le_trans inside kept.length_le, contents⟩, rests.rereads⟩

/-- Its local record is in the front. -/
theorem offset_lt (rests : entry.Rests front result) : entry.offset < front.length := by
  obtain ⟨start, found, inside, -⟩ := rests.held
  have behind : entry.offset + localLength ≤ start := (hold_cases found).2
  rw [localLength] at behind
  omega

end Entry.Rests

/-- The contents of a new entry are extracted from its stored bytes, wherever these are. -/
theorem contents_ofContents (deflater : Deflate.Deflater) (compression : Compression)
    (path : String) {contents file : List UInt8} (offset : Nat) {start : Nat} :
    let options := Options.ofCompression compression
    let stored := options.pack deflater contents
    (file.drop start).take stored.length = stored →
      Archive.contents file ⟨.ofContents path options contents stored offset, start⟩ =
        .ok contents := by
  intro options stored bytes
  let entry := Entry.ofContents path options contents stored offset
  have known_method : ¬ (entry.method ≠ plain ∧ entry.method ≠ deflated) := fun other =>
    (Options.method_ofCompression compression).elim other.1 other.2
  have unencrypted : ¬ entry.encrypted = true := Bool.false_ne_true
  have unsealed : ¬ entry.sealed = true := Bool.false_ne_true
  have unpacked : unpack? entry.method stored = some contents := unpack?_pack options deflater _
  have check : ¬ (Crc32.check contents).toNat ≠ entry.checksum := not_not.mpr rfl
  unfold Archive.contents
  dsimp only
  rw [show (Entry.ofContents path options contents stored offset).length = stored.length from rfl,
    bytes, if_neg unencrypted, if_neg known_method, if_neg unsealed, unpacked]
  exact if_neg check

/-- A new entry rests in the file that it was put behind, with the contents that were stored. -/
theorem Entry.rests_ofContents (deflater : Deflate.Deflater) (compression : Compression)
    {path : String} {contents front : List UInt8} :
    let options := Options.ofCompression compression
    let stored := options.pack deflater contents
    let entry := Entry.ofContents path options contents stored front.length
    (Utf8.encode path).length < 256 ^ 2 → Told contents.length stored.length →
      contents.length < 256 ^ 8 → stored.length < 256 ^ 8 → front.length < 256 ^ 8 →
      entry.Rests (front ++ entry.localRecord stored) (.ok contents) := by
  intro options stored entry path_lt told contents_lt stored_lt front_lt
  let widths := [4, 2, 2, 2, 2, 2, 4, 4, 4, 2, 2]
  let values := [localMark, version, entry.flags, entry.method, 0, 0x0021, entry.checksum,
    min entry.length full32, min entry.size full32, entry.storedName.length, entry.extra.length]
  have layout : entry.localRecord stored =
      numbers widths values ++ (entry.storedName ++ (entry.extra ++ stored)) := by
    simp only [Entry.localRecord, Entry.shared, numbers, widths, values, List.append_assoc,
      List.nil_append]
  have fixed : (numbers widths values).length = localLength := length_numbers rfl
  have found : At (front ++ entry.localRecord stored) front.length
      (numbers widths values ++ (entry.storedName ++ (entry.extra ++ stored))) :=
    ⟨front, [], by rw [layout, List.append_nil], rfl⟩
  have record := found.left.slice
  have behind := found.right.right.right
  rw [fixed] at record behind
  have extra_lt : entry.extra.length < 256 ^ 2 := by
    have wide : entry.extra = wideSizes contents.length stored.length front.length :=
      if_pos (Options.wide_ofCompression compression)
    rw [wide]
    exact Nat.lt_of_le_of_lt (Entry.length_wideSizes_le ..) (by decide)
  have number := number?_of_numbers (Bytes.at_of_eq (rfl : numbers widths values = _))
  have mark := number 0 4 0 localMark rfl rfl rfl (by decide)
  have name := number 9 2 26 entry.storedName.length rfl rfl rfl path_lt
  have extra := number 10 2 28 entry.extra.length rfl rfl rfl extra_lt
  have place : entry.offset = front.length := rfl
  refine ⟨⟨entry.offset + localLength + entry.storedName.length + entry.extra.length, ?_,
    behind.le_length, ?_⟩,
    Entry.rereads_ofContents compression path_lt told contents_lt stored_lt front_lt⟩
  · rw [hold, place, record, mark, name, extra]
    exact if_pos rfl
  · exact contents_ofContents deflater compression path _ behind.slice

/-! ## The shelf of an archive -/

/-- The name of an entry, and its contents. -/
def Held.item (file : List UInt8) (held : Held) : String × Except ArchiveError (List UInt8) :=
  (held.entry.name, Archive.contents file held)

/-- What an archive reads: the names of its entries, each with its contents. -/
def Archive.shelf (archive : Archive) (file : List UInt8) :
    List (String × Except ArchiveError (List UInt8)) := archive.stored.map (·.item file)

/-- An archive that can read reads from its shelf, and any other path as empty. -/
theorem Archive.read_eq {archive : Archive} (isOpen : archive.closed = false)
    (reads : archive.mode ≠ .write) (file : List UInt8) (path : String) :
    archive.read file path = ((archive.shelf file).lookup path).getD (.ok []) := by
  rw [Archive.read, if_neg (by rw [isOpen]; exact Bool.false_ne_true), if_neg reads, Archive.shelf]
  induction archive.stored with
  | nil => rfl
  | cons held later ih =>
    rw [List.find?_cons, List.map_cons, Held.item, List.lookup_cons]
    by_cases same : held.entry.name = path
    · simp [same]
    · have distinct : (path == held.entry.name) = false := by simpa using Ne.symm same
      simp [same, distinct, ih]

/-- Entries rest in the front of a file, with the names and contents of a shelf. -/
def Shelved (front : List UInt8) : List Entry → List (String × Except ArchiveError (List UInt8)) →
    Prop :=
  List.Forall₂ fun entry item => entry.name = item.1 ∧ entry.Rests front item.2

namespace Shelved

variable {front file : List UInt8} {entries again : List Entry}
  {shelf : List (String × Except ArchiveError (List UInt8))}

/-- They rest in every front that begins with this one. -/
theorem mono (shelved : Shelved front entries shelf) (kept : front <+: file) :
    Shelved file entries shelf :=
  List.Forall₂.imp (fun _ _ rests => ⟨rests.1, rests.2.mono kept⟩) shelved

/-- One more entry is one more item. -/
theorem append_singleton (shelved : Shelved front entries shelf) {entry : Entry}
    {result : Except ArchiveError (List UInt8)} (rests : entry.Rests front result) :
    Shelved front (entries ++ [entry]) (shelf ++ [(entry.name, result)]) :=
  List.rel_append shelved (.cons ⟨rfl, rests⟩ .nil)

/-- Each of them rests there. -/
theorem rests (shelved : Shelved front entries shelf) {entry : Entry} (member : entry ∈ entries) :
    ∃ result, entry.Rests front result := by
  induction shelved with
  | nil => exact absurd member List.not_mem_nil
  | @cons first item _ _ here _ ih =>
    rcases List.mem_cons.mp member with rfl | further
    · exact ⟨item.2, here.2⟩
    · exact ih further

/-- Their names are those on the shelf. -/
theorem names (shelved : Shelved front entries shelf) :
    entries.map (·.name) = shelf.map (·.1) := by
  induction shelved with
  | nil => rfl
  | cons first later ih => rw [List.map_cons, List.map_cons, first.1, ih]

/-- They are all found again, wherever the file goes on in the same way. -/
theorem holdAll (shelved : Shelved front entries shelf) (kept : front <+: file)
    (same : again.map Entry.bare = entries.map Entry.bare) :
    ∃ stored, Zip.holdAll file again = .ok stored ∧ stored.map (·.item file) = shelf := by
  induction shelved generalizing again with
  | nil =>
    obtain rfl := List.map_eq_nil_iff.mp same
    exact ⟨[], rfl, rfl⟩
  | @cons entry item later items here _ ih =>
    obtain ⟨first, others, rfl, same_first, same_others⟩ := List.map_eq_cons_iff.mp same
    obtain ⟨start, found, -, contents⟩ := here.2.found_again kept same_first
    obtain ⟨stored, held, shelf⟩ := ih same_others
    have name : first.name = item.1 := (Entry.mk.inj same_first).1.trans here.1
    refine ⟨⟨first, start⟩ :: stored, ?_, ?_⟩
    · rw [Zip.holdAll, found, held]
    · rw [List.map_cons, shelf, Held.item, contents, name]

end Shelved

end Zip

end Trajectory
