import Mathlib.Data.List.Nodup
import Trajectory.Proofs.Zip.Record
/-!
# Reading a completed file

A completed file ends with the directory of its entries, which is found from its end: no mark behind
the end record leads to a directory, the end record leads to the directory, by the second one where
its numbers do not fit, and the directory lists the entries again.
-/
namespace Trajectory

namespace Zip

open Bytes (At)

/-! ## Marks -/

section Marks

variable {mark : Nat}

/-- What was found before is listed behind what is found. -/
theorem marks_eq (first : Nat) (found : List Nat) (data : List UInt8) :
    marks mark first found data = marks mark first [] data ++ found := by
  induction data generalizing first found with
  | nil => rfl
  | cons byte rest ih =>
    have step (found : List Nat) : marks mark first found (byte :: rest) =
        marks mark (first + 1)
          (if LittleEndian.read? 4 (byte :: rest) = some mark then first :: found else found)
          rest := rfl
    rw [step, step, ih, ih (first + 1) (ite ..)]
    split
    · rw [List.append_assoc, List.singleton_append]
    · rw [List.append_nil]

/-- A mark at the front is found last. -/
theorem marks_cons (first : Nat) (byte : UInt8) (rest : List UInt8) :
    marks mark first [] (byte :: rest) = marks mark (first + 1) [] rest ++
      if number? 4 (byte :: rest) 0 = some mark then [first] else [] := by
  rw [marks, marks_eq]
  rfl

/-- Only positions of the mark are found. -/
theorem exists_of_mem_marks {first position : Nat} {data : List UInt8}
    (member : position ∈ marks mark first [] data) :
    ∃ behind, position = first + behind ∧ number? 4 data behind = some mark := by
  induction data generalizing first with
  | nil => exact absurd member List.not_mem_nil
  | cons byte rest ih =>
    rw [marks_cons, List.mem_append] at member
    rcases member with later | here
    · obtain ⟨behind, rfl, found⟩ := ih later
      exact ⟨behind + 1, by omega, found⟩
    · split at here
      · next marked => exact ⟨0, List.mem_singleton.mp here, marked⟩
      · exact absurd here List.not_mem_nil

/-- A mark is found, those behind it before it. -/
theorem marks_of_mark {first behind : Nat} {data : List UInt8}
    (marked : number? 4 data behind = some mark) :
    ∃ later earlier, marks mark first [] data = later ++ (first + behind) :: earlier ∧
      (behind = 0 → earlier = []) ∧
      ∀ position ∈ later, ∃ further, position = first + further ∧ behind < further ∧
        number? 4 data further = some mark := by
  induction data generalizing first behind with
  | nil => simp [number?, LittleEndian.read?] at marked
  | cons byte rest ih =>
    rw [marks_cons]
    cases behind with
    | zero =>
      rw [if_pos marked]
      refine ⟨_, [], rfl, fun _ => rfl, fun position member => ?_⟩
      obtain ⟨further, rfl, found⟩ := exists_of_mem_marks member
      exact ⟨further + 1, by omega, Nat.succ_pos _, found⟩
    | succ behind =>
      -- A mark at the front comes after all others, so it goes with the earlier ones.
      obtain ⟨later, earlier, found, -, behind_it⟩ := @ih (first + 1) behind marked
      rw [found, List.append_assoc, List.cons_append]
      refine ⟨later, _, by rw [Nat.add_right_comm]; rfl,
        fun none => absurd none (Nat.succ_ne_zero _), fun position member => ?_⟩
      obtain ⟨further, rfl, beyond, number⟩ := behind_it position member
      exact ⟨further + 1, by omega, Nat.succ_lt_succ beyond, number⟩

/-- The first mark between two positions is the one at the first of them. -/
theorem marksBetween_of_mark {file : List UInt8} {start stop : Nat}
    (marked : number? 4 file start = some mark) (room : start + 4 ≤ stop) :
    ∃ later, marksBetween mark start stop file = start :: later := by
  have same : number? 4 ((file.take stop).drop start) 0 = some mark := by
    rw [number?, LittleEndian.read?] at marked ⊢
    rw [List.drop_zero, List.drop_take, List.take_take, Nat.min_eq_left (by omega)]
    exact marked
  obtain ⟨later, earlier, found, last, -⟩ := @marks_of_mark mark start 0 _ same
  rw [marksBetween, found, last rfl, List.reverse_append]
  exact ⟨later.reverse, rfl⟩

end Marks

/-! ## The end record that leads to the directory -/

/-- A position leads to a directory if there is an end record that does. -/
def Leads (file : List UInt8) (position : Nat) (listing : Listing) : Prop :=
  ∃ record found, endRecordAt file position = .ok record ∧
    location file position record = .ok found ∧ found.listing? file = some listing

/-- The first position that leads to a directory decides. -/
theorem findListing_of_leads {file : List UInt8} {later earlier : List Nat} {position : Nat}
    {listing : Listing} (leads : Leads file position listing)
    (nowhere : ∀ other ∈ later, ∀ listing, ¬ Leads file other listing) (kept : Option ZipError) :
    findListing file kept (later ++ position :: earlier) = .ok listing := by
  induction later generalizing kept with
  | nil =>
    obtain ⟨record, found, read, located, lists⟩ := leads
    rw [List.nil_append, findListing, read]
    dsimp only
    rw [located]
    dsimp only
    rw [lists]
  | cons other later ih =>
    have further := ih fun another member => nowhere another (List.mem_cons_of_mem _ member)
    have here := nowhere other (List.mem_cons_self ..)
    rw [List.cons_append, findListing]
    split
    · exact further _
    · next record read =>
      split
      · exact further _
      · next found located =>
        split
        · next listing lists => exact absurd ⟨record, found, read, located, lists⟩ (here listing)
        · exact further _

/-- The directory of a file is the one that its last end record leads to. -/
theorem listing_of_leads {file : List UInt8} {position : Nat} {listing : Listing}
    (marked : number? 4 file position = some endMark) (leads : Leads file position listing)
    (last : ∀ later, position < later → number? 4 file later = some endMark →
      ∀ listing, ¬ Leads file later listing) :
    Zip.listing file = .ok listing := by
  obtain ⟨later, earlier, found, -, behind⟩ := @marks_of_mark endMark 0 position file marked
  rw [Zip.listing, found, Nat.zero_add]
  refine findListing_of_leads leads (fun other member => ?_) none
  obtain ⟨further, rfl, beyond, number⟩ := behind other member
  rw [Nat.zero_add]
  exact last further beyond number

/-! ## The directory -/

/-- The records of a directory are read back as its entries, as far as their contents depend on
them. -/
theorem records?_directory {location : Location} (still : location.shift = 0)
    {entries : List Entry} (rereads : ∀ entry ∈ entries, entry.Rereads)
    (before : ∀ entry ∈ entries, entry.offset < location.start) (rest : List UInt8)
    (position : Nat) :
    ∃ again stop,
      location.records? entries.length (directory entries ++ rest) position = some (again, stop) ∧
        again.map Entry.bare = entries.map Entry.bare := by
  induction entries generalizing position with
  | nil => exact ⟨[], position, rfl, rfl⟩
  | cons entry later ih =>
    obtain ⟨again, listed, same⟩ := rereads entry (List.mem_cons_self ..)
    have whole : directory (entry :: later) ++ rest =
        entry.directoryRecord ++ (directory later ++ rest) := List.append_assoc ..
    have offset : again.offset = entry.offset := (Entry.mk.inj same).2.2.2.2.2.2.1
    have inside : again.offset < location.start :=
      offset ▸ before entry (List.mem_cons_self ..)
    obtain ⟨others, stop, read, alike⟩ :=
      ih (fun other member => rereads other (List.mem_cons_of_mem _ member))
        (fun other member => before other (List.mem_cons_of_mem _ member))
        (position + entry.directoryRecord.length)
    refine ⟨again :: others, stop, ?_, by rw [List.map_cons, List.map_cons, same, alike]⟩
    rw [whole, List.length_cons, Location.records?, listed?_append listed]
    simp only [Option.bind_eq_bind, Option.bind_some, still, Nat.add_zero, if_pos inside,
      List.drop_left' rfl, read]

/-- The names of entries that are alike are the same. -/
theorem map_name_of_bare {entries others : List Entry}
    (same : entries.map Entry.bare = others.map Entry.bare) :
    entries.map (·.name) = others.map (·.name) := by
  have names := congrArg (List.map Entry.name) same
  rwa [List.map_map, List.map_map] at names

/-- The names of entries with one put in: its own goes to the end if it is new. -/
theorem map_name_placeIn (entry : Entry) (entries : List Entry) :
    (entry.placeIn entries).map (·.name) =
      if entry.name ∈ entries.map (·.name) then entries.map (·.name)
      else entries.map (·.name) ++ [entry.name] := by
  induction entries with
  | nil => rfl
  | cons other rest ih =>
    rw [Entry.placeIn]
    by_cases same : other.name = entry.name
    · have listed : entry.name ∈ (other :: rest).map (·.name) := same ▸ List.mem_cons_self ..
      rw [if_pos same, if_pos listed, List.map_cons, List.map_cons, same]
    · have further : entry.name ∈ (other :: rest).map (·.name) ↔ entry.name ∈ rest.map (·.name) :=
        List.mem_cons.trans (or_iff_right (Ne.symm same))
      simp only [if_neg same, List.map_cons, ih, ← further]
      split <;> rfl

/-- An entry of a new name is put at the end. -/
theorem placeIn_of_not_mem {entry : Entry} {entries : List Entry}
    (new : entry.name ∉ entries.map (·.name)) : entry.placeIn entries = entries ++ [entry] := by
  induction entries with
  | nil => rfl
  | cons other rest ih =>
    rw [List.map_cons, List.mem_cons, not_or] at new
    rw [Entry.placeIn, if_neg (Ne.symm new.1), ih new.2, List.cons_append]

/-- Entries that are put in one after the other have distinct names. -/
theorem nodup_foldl_placeIn {before : List Entry} (distinct : (before.map (·.name)).Nodup)
    (entries : List Entry) :
    ((entries.foldl (fun before entry => entry.placeIn before) before).map (·.name)).Nodup := by
  induction entries generalizing before with
  | nil => exact distinct
  | cons entry rest ih =>
    refine ih ?_
    rw [map_name_placeIn]
    split
    · exact distinct
    · next new => exact List.concat_eq_append ▸ distinct.concat new

/-- Each name is there once. -/
theorem nodup_distinct (entries : List Entry) : ((distinct entries).map (·.name)).Nodup :=
  @nodup_foldl_placeIn [] List.nodup_nil entries

/-- Entries of new, distinct names that are put in one after the other stand behind those there
were. -/
theorem foldl_placeIn_of_nodup {before entries : List Entry}
    (distinct : ((before ++ entries).map (·.name)).Nodup) :
    entries.foldl (fun before entry => entry.placeIn before) before = before ++ entries := by
  induction entries generalizing before with
  | nil => exact (List.append_nil before).symm
  | cons entry rest ih =>
    rw [List.append_cons] at distinct
    have new : entry.name ∉ before.map (·.name) := by
      rw [List.map_append, List.map_append] at distinct
      exact fun listed => (List.nodup_append.mp (List.nodup_append.mp distinct).1).2.2 _ listed _
        (List.mem_singleton_self _) rfl
    rw [List.foldl_cons, placeIn_of_not_mem new, ih distinct, ← List.append_cons]

/-- Entries of distinct names stay as they are. -/
theorem distinct_of_nodup {entries : List Entry} (names : (entries.map (·.name)).Nodup) :
    distinct entries = entries := foldl_placeIn_of_nodup names

/-- A directory of entries with distinct names lists them. -/
theorem exists_listing? {location : Location} {file : List UInt8} {entries : List Entry}
    {rest : List UInt8} (consistent : location.consistent = true)
    (count : location.count = entries.length)
    (there : entries ≠ [] → location.shift = 0 ∧
      file.drop location.start = directory entries ++ rest)
    (rereads : ∀ entry ∈ entries, entry.Rereads)
    (before : ∀ entry ∈ entries, entry.offset < location.start)
    (distinct : (entries.map (·.name)).Nodup) :
    ∃ listing, location.listing? file = some listing ∧
      listing.entries.map Entry.bare = entries.map Entry.bare := by
  have read : ∃ again stop,
      location.records? location.count (file.drop location.start) location.start =
        some (again, stop) ∧ again.map Entry.bare = entries.map Entry.bare := by
    cases entries with
    | nil =>
      rw [count]
      exact ⟨[], location.start, rfl, rfl⟩
    | cons first later =>
      obtain ⟨still, same⟩ := there (List.cons_ne_nil _ _)
      rw [count, same]
      exact records?_directory still rereads before rest location.start
  obtain ⟨again, stop, read, same⟩ := read
  have names : (again.map (·.name)).Nodup := (map_name_of_bare same) ▸ distinct
  refine ⟨⟨again, stop, location.remark⟩, ?_, same⟩
  rw [Location.listing?, if_pos consistent, read]
  dsimp only
  rw [distinct_of_nodup names]

/-! ## End records -/

/-- An end record has some length, and its comment. -/
theorem length_endRecord (count size start : Nat) (comment : List UInt8) :
    (endRecord count size start comment).length = endLength + comment.length := by
  simp only [endRecord, List.length_append, LittleEndian.length_encode, endLength]

/-- An end record that is read is inside the file. -/
theorem le_length_of_endRecordAt {file : List UInt8} {position : Nat} {record : EndRecord}
    (read : endRecordAt file position = .ok record) : position + endLength ≤ file.length := by
  unfold endRecordAt at read
  dsimp only at read
  split at read
  · next last =>
    rw [number?_eq, Option.map_eq_some_iff] at last
    obtain ⟨run, slice, -⟩ := last
    have inside := Bytes.le_length_of_slice? slice (by decide)
    rw [List.length_take, List.length_drop, endLength] at inside
    rw [endLength]
    omega
  · contradiction

/-- An end record is read back from where it is. -/
theorem endRecordAt_of_at {file comment : List UInt8} {position count size start : Nat}
    (found : At file position (endRecord count size start comment))
    (comment_lt : comment.length < 256 ^ 2) :
    number? 4 file position = some endMark ∧
      endRecordAt file position =
        .ok ⟨0, 0, min count full16, min count full16, min start full32, comment⟩ := by
  let widths := [4, 2, 2, 2, 2, 4, 4, 2]
  let values := [endMark, 0, 0, min count full16, min count full16, min size full32,
    min start full32, comment.length]
  have layout : endRecord count size start comment = numbers widths values ++ comment := by
    simp only [endRecord, numbers, widths, values, List.append_assoc, List.nil_append]
  have fixed : (numbers widths values).length = endLength := length_numbers rfl
  rw [layout] at found
  have record := found.left.slice
  have behind := found.right.slice? rfl
  rw [fixed] at record behind
  have number := number?_of_numbers (Bytes.at_of_eq (rfl : numbers widths values = _))
  refine ⟨number?_of_numbers found.left 0 4 position endMark rfl rfl rfl (by decide), ?_⟩
  rw [endRecordAt, record, number 1 2 4 0 rfl rfl rfl (by decide),
    number 2 2 6 0 rfl rfl rfl (by decide), number 3 2 8 _ rfl rfl rfl (min_full16_lt count),
    number 4 2 10 _ rfl rfl rfl (min_full16_lt count),
    number 6 4 16 _ rfl rfl rfl (min_full32_lt start), number 7 2 20 _ rfl rfl rfl comment_lt]
  dsimp only
  rw [behind]

/-- A locator is read back from where it is, when something is kept elsewhere. -/
theorem locator?_of_at {file : List UInt8} {position offset : Nat} {record : EndRecord}
    (found : At file position (numbers [4, 4, 8, 4] [locatorMark, 0, offset, 1]))
    (offset_lt : offset < 256 ^ 8)
    (elsewhere : record.count = full16 ∨ record.offset = full32) :
    locator? file (position + locatorLength) record = some ⟨0, offset, 1⟩ := by
  have number := number?_of_numbers found
  have mark := number 0 4 position locatorMark rfl rfl rfl (by decide)
  have applies : (record.count = full16 ∨ record.offset = full32) ∧
      locatorLength ≤ position + locatorLength := ⟨elsewhere, Nat.le_add_left ..⟩
  rw [locator?, if_pos applies, Nat.add_sub_cancel]
  dsimp only
  rw [mark, number 1 4 (position + 4) 0 rfl rfl rfl (by decide),
    number 2 8 (position + 8) offset rfl rfl rfl offset_lt,
    number 3 4 (position + 16) 1 rfl rfl rfl (by decide)]
  rfl

/-- Without its mark there is no locator. -/
theorem locator?_of_unmarked {file : List UInt8} {position : Nat}
    (unmarked : number? 4 file (position - locatorLength) ≠ some locatorMark)
    (record : EndRecord) : locator? file position record = none := by
  rw [locator?]
  split
  · dsimp only
    rw [Option.bind_eq_bind, Option.bind_eq_none_iff]
    intro mark read
    have other : mark ≠ locatorMark := fun same => unmarked (same ▸ read)
    simp [other]
  · rfl

/-- The location that a second end record tells. -/
theorem wideLocation_of_at {file comment data : List UInt8} {count size start : Nat}
    (found : At file (start + size) (numbers [4, 8, 2, 2, 4, 4, 8, 8, 8, 8]
      [wideEndMark, wideEndLength - wideEndHead + data.length, version, version, 0, 0, count, count,
        size, start] ++ data))
    (data_lt : wideEndLength + data.length < 256 ^ 8) (count_lt : count < 256 ^ 8)
    (start_lt : start < 256 ^ 8) (room : count * directoryLength ≤ size) :
    ∃ found, wideLocation file comment ⟨0, start + size, 1⟩
        (start + size + (wideEndLength + data.length)) (start + size) = .ok found ∧
      found.count = count ∧ found.start = start ∧ found.shift = 0 ∧ found.consistent = true := by
  let widths := [4, 8, 2, 2, 4, 4, 8, 8, 8, 8]
  let values := [wideEndMark, wideEndLength - wideEndHead + data.length, version, version, 0, 0,
    count, count, size, start]
  have fixed : (numbers widths values).length = wideEndLength := length_numbers rfl
  have record : (file.drop (start + size)).take wideEndLength = numbers widths values := by
    have slice := found.left.slice
    rwa [fixed] at slice
  have number := number?_of_numbers (Bytes.at_of_eq (rfl : numbers widths values = _))
  have head : wideEndLength - wideEndHead + data.length + wideEndHead =
      wideEndLength + data.length := by
    simp only [wideEndLength, wideEndHead]
    omega
  have head_lt : wideEndLength - wideEndHead + data.length < 256 ^ 8 := by omega
  rw [wideLocation, record, number 1 8 4 _ rfl rfl rfl head_lt,
    number 2 2 12 version rfl rfl rfl (by decide), number 3 2 14 version rfl rfl rfl (by decide),
    number 4 4 16 0 rfl rfl rfl (by decide), number 5 4 20 0 rfl rfl rfl (by decide),
    number 6 8 24 count rfl rfl rfl count_lt, number 7 8 32 count rfl rfl rfl count_lt,
    number 9 8 48 start rfl rfl rfl start_lt]
  dsimp only
  rw [head, Nat.add_sub_cancel_left, if_neg (by omega), if_neg (Nat.lt_irrefl _),
    if_neg (not_not.mpr rfl), if_neg (not_not.mpr rfl), if_neg (by omega)]
  exact ⟨_, rfl, rfl, by dsimp only; omega, by dsimp only; omega,
    decide_eq_true ⟨rfl, Nat.le_refl _, Nat.le_refl _⟩⟩

/-! ## The end of a file -/

/-- Each record of a directory takes some bytes. -/
theorem le_length_directory (entries : List Entry) :
    entries.length * directoryLength ≤ (directory entries).length := by
  induction entries with
  | nil => exact Nat.zero_le _
  | cons entry later ih =>
    have record := entry.length_directoryRecord
    have whole : (directory (entry :: later)).length =
        entry.directoryRecord.length + (directory later).length := List.length_append
    rw [whole, List.length_cons, Nat.succ_mul]
    omega

/-- Whether a directory has a second end record. -/
def TakesWide (entries : List Entry) (remark : Remark) (start : Nat) : Prop :=
  full16 < entries.length ∨ full32 < max (directory entries).length start ∨
    remark.wideData.isSome

/-- It is decided by the numbers. -/
instance (entries : List Entry) (remark : Remark) (start : Nat) :
    Decidable (TakesWide entries remark start) :=
  inferInstanceAs (Decidable (_ ∨ _ ∨ _))

/-- The second end record with its locator, if a directory has one. -/
def second (entries : List Entry) (remark : Remark) (start : Nat) : List UInt8 :=
  if TakesWide entries remark start then
    wideEnd entries.length (directory entries).length start (remark.wideData.getD [])
  else []

/-- A file that is completed behind a front. -/
def completed (front : List UInt8) (entries : List Entry) (remark : Remark) : List UInt8 :=
  front ++ ending entries remark front.length

/-- Where its end record is. -/
def endPlace (front : List UInt8) (entries : List Entry) (remark : Remark) : Nat :=
  front.length + (directory entries).length + (second entries remark front.length).length

section Completed

variable (front : List UInt8) (entries : List Entry) (remark : Remark)

/-- A completed file has the directory, the second end record and the end record behind the front,
in this order. -/
theorem completed_eq : completed front entries remark = front ++ (directory entries ++
    (second entries remark front.length ++
      endRecord entries.length (directory entries).length front.length remark.comment)) := by
  rw [completed, ← List.append_assoc (directory entries)]
  rfl

/-- The directory, the second end record and the end record are behind the front. -/
theorem at_front : At (completed front entries remark) front.length (directory entries ++
    (second entries remark front.length ++
      endRecord entries.length (directory entries).length front.length remark.comment)) :=
  ⟨front, [], by rw [completed_eq, List.append_nil], rfl⟩

/-- The end record is in its place. -/
theorem at_endPlace : At (completed front entries remark) (endPlace front entries remark)
    (endRecord entries.length (directory entries).length front.length remark.comment) :=
  (at_front front entries remark).right.right

/-- A completed file is legible when its numbers fit, nothing behind the end record is taken for one
that leads to a directory, and nothing before it for a locator. -/
structure Legible : Prop where
  /-- Eight bytes hold its length. -/
  length_lt : (completed front entries remark).length < 256 ^ 8
  /-- No later mark leads to a directory. -/
  last : ∀ later, endPlace front entries remark < later →
    number? 4 (completed front entries remark) later = some endMark →
    ∀ listing, ¬ Leads (completed front entries remark) later listing
  /-- Where the numbers of the end record look as if they were kept elsewhere, and are not, there is
  no locator. -/
  no_locator : ¬ TakesWide entries remark front.length →
    entries.length = full16 ∨ front.length = full32 →
    number? 4 (completed front entries remark) (endPlace front entries remark - locatorLength) ≠
      some locatorMark

variable {front entries remark}

/-- A completed file without a comment is legible if it is not too long and has not too many
entries. -/
theorem legible_of_small (comment : remark.comment = []) (few : entries.length < full16)
    (small : (completed front entries remark).length ≤ full32) : Legible front entries remark := by
  have length : (completed front entries remark).length =
      endPlace front entries remark + endLength := by
    rw [completed_eq]
    simp only [List.length_append, length_endRecord, comment, List.length_nil, endPlace]
    omega
  have front_lt : front.length < full32 := by
    rw [length, endPlace, endLength] at small
    omega
  refine ⟨Nat.lt_of_le_of_lt small (by decide), fun later behind _ listing leads => ?_,
    fun _ elsewhere => by omega⟩
  obtain ⟨record, -, read, -⟩ := leads
  have inside := le_length_of_endRecordAt read
  omega

/-- Without a locator the end record leads to the directory itself. -/
theorem location_of_none {record : EndRecord} (count : record.diskCount = entries.length)
    (counted : record.count = entries.length) (start : record.offset = front.length)
    (disk : record.disk = record.directoryDisk)
    (none : locator? (completed front entries remark) (endPlace front entries remark) record =
      none) :
    ∃ found, location (completed front entries remark) (endPlace front entries remark) record =
        .ok found ∧
      found.consistent = true ∧ found.count = entries.length ∧
      (entries ≠ [] → found.shift = 0 ∧ found.start = front.length) := by
  rw [location, none]
  dsimp only
  cases entries with
  | nil =>
    rw [if_pos (show record.count = 0 from counted)]
    exact ⟨_, rfl, decide_eq_true disk, count, fun some_entry => absurd rfl some_entry⟩
  | cons first later =>
    have some_record : record.count ≠ 0 := by
      rw [counted]
      exact Nat.succ_ne_zero _
    have marked : number? 4 (completed front (first :: later) remark) front.length =
        some directoryMark := by
      have found := (at_front front (first :: later) remark).left
      have record : At _ _ (first.directoryRecord ++ directory later) := found
      rw [Entry.directoryRecord_eq] at record
      exact number?_of_numbers record.left.left 0 4 front.length _ rfl rfl rfl (by decide)
    have room : front.length + 4 ≤ endPlace front (first :: later) remark := by
      have long := le_length_directory (first :: later)
      rw [List.length_cons, Nat.succ_mul, directoryLength] at long
      rw [endPlace]
      omega
    obtain ⟨others, found⟩ := marksBetween_of_mark marked room
    rw [if_neg some_record, start, if_neg (by omega), found]
    exact ⟨_, rfl, decide_eq_true disk, count, fun _ => ⟨Nat.sub_self _, by dsimp only; omega⟩⟩

/-- With a locator the second end record leads to the directory. -/
theorem location_of_wide (legible : Legible front entries remark)
    (wide : TakesWide entries remark front.length) {record : EndRecord}
    (elsewhere : record.count = full16 ∨ record.offset = full32) :
    ∃ found, location (completed front entries remark) (endPlace front entries remark) record =
        .ok found ∧
      found.consistent = true ∧ found.count = entries.length ∧
      (entries ≠ [] → found.shift = 0 ∧ found.start = front.length) := by
  let data := remark.wideData.getD []
  let size := (directory entries).length
  have has_second : second entries remark front.length =
      numbers [4, 8, 2, 2, 4, 4, 8, 8, 8, 8]
        [wideEndMark, wideEndLength - wideEndHead + data.length, version, version, 0, 0,
          entries.length, entries.length, size, front.length] ++
        (data ++ numbers [4, 4, 8, 4] [locatorMark, 0, front.length + size, 1]) := by
    rw [second, if_pos wide]
    simp only [wideEnd, numbers, data, size, List.append_assoc, List.append_nil]
  have fixed : (numbers [4, 8, 2, 2, 4, 4, 8, 8, 8, 8]
      [wideEndMark, wideEndLength - wideEndHead + data.length, version, version, 0, 0,
        entries.length, entries.length, size, front.length]).length = wideEndLength :=
    length_numbers rfl
  have found := (at_front front entries remark).right.left
  have short := (at_endPlace front entries remark).le_length
  have length_lt := legible.length_lt
  have many := le_length_directory entries
  have place : endPlace front entries remark =
      front.length + size + (wideEndLength + data.length) + locatorLength := by
    have fixed_locator : (numbers [4, 4, 8, 4]
        [locatorMark, 0, front.length + size, 1]).length = locatorLength := length_numbers rfl
    rw [endPlace, has_second, List.length_append, List.length_append, fixed, fixed_locator]
    omega
  -- The locator leads to where the second end record is, and nothing is between the two.
  rw [has_second] at found
  have locator := found.right.right
  rw [fixed, Nat.add_assoc] at locator
  rw [← List.append_assoc] at found
  have marked : number? 4 (completed front entries remark) (front.length + size) =
      some wideEndMark :=
    number?_of_numbers found.left.left 0 4 (front.length + size) _ rfl rfl rfl (by decide)
  have room : front.length + size + 4 ≤ front.length + size + (wideEndLength + data.length) := by
    simp only [wideEndLength]
    omega
  obtain ⟨others, first⟩ := marksBetween_of_mark marked room
  obtain ⟨leads, located, count, start, shift, consistent⟩ :=
    @wideLocation_of_at _ record.comment _ _ _ _ found.left (by omega)
      (by rw [directoryLength] at many; omega) (by omega) many
  refine ⟨leads, ?_, consistent, count, fun _ => ⟨shift, start⟩⟩
  rw [location, place, locator?_of_at locator (by omega) elsewhere]
  dsimp only
  rw [Nat.add_sub_cancel, if_neg (by omega), if_neg (by decide), first, firstLocation, located]

/-- The end record leads to the directory, by either way. -/
theorem location_completed (legible : Legible front entries remark) :
    let record : EndRecord := ⟨0, 0, min entries.length full16, min entries.length full16,
      min front.length full32, remark.comment⟩
    ∃ found, location (completed front entries remark) (endPlace front entries remark) record =
        .ok found ∧
      found.consistent = true ∧ found.count = entries.length ∧
      (entries ≠ [] → found.shift = 0 ∧ found.start = front.length) := by
  intro record
  by_cases elsewhere : record.count = full16 ∨ record.offset = full32
  · by_cases wide : TakesWide entries remark front.length
    · exact location_of_wide legible wide elsewhere
    -- The numbers look as if they were kept elsewhere, but they are just the largest that fit.
    · obtain ⟨few, low, -⟩ : ¬ full16 < entries.length ∧
          ¬ full32 < max (directory entries).length front.length ∧ _ := by
        simpa only [TakesWide, not_or] using wide
      have count : record.count = entries.length := Nat.min_eq_left (by omega)
      have start : record.offset = front.length := Nat.min_eq_left (by omega)
      refine location_of_none count count start rfl ?_
      rw [count, start] at elsewhere
      exact locator?_of_unmarked (legible.no_locator wide elsewhere) record
  · obtain ⟨few, low⟩ : min entries.length full16 ≠ full16 ∧ min front.length full32 ≠ full32 :=
      not_or.mp elsewhere
    have none : locator? (completed front entries remark) (endPlace front entries remark) record =
        none := if_neg fun applies => elsewhere applies.1
    have count : record.count = entries.length := Nat.min_eq_left (by omega)
    have start : record.offset = front.length := Nat.min_eq_left (by omega)
    exact location_of_none count count start rfl none

/-- A completed file lists its entries, as far as their contents depend on them. -/
theorem listing_completed (legible : Legible front entries remark)
    (comment_lt : remark.comment.length < 256 ^ 2) (rereads : ∀ entry ∈ entries, entry.Rereads)
    (before : ∀ entry ∈ entries, entry.offset < front.length)
    (distinct : (entries.map (·.name)).Nodup) :
    ∃ found, listing (completed front entries remark) = .ok found ∧
      found.entries.map Entry.bare = entries.map Entry.bare := by
  obtain ⟨marked, read⟩ := endRecordAt_of_at (at_endPlace front entries remark) comment_lt
  obtain ⟨found, located, consistent, count, there⟩ := location_completed legible
  have behind := completed_eq front entries remark ▸ List.drop_left' (rfl : front.length = _)
  obtain ⟨listing, lists, same⟩ := exists_listing? consistent count
    (fun some_entry => by
      obtain ⟨still, start⟩ := there some_entry
      exact ⟨still, start ▸ behind⟩)
    rereads
    (fun entry member => by
      rw [(there (List.ne_nil_of_mem member)).2]
      exact before entry member)
    distinct
  exact ⟨listing, listing_of_leads marked ⟨_, found, read, located, lists⟩ legible.last, same⟩

end Completed

end Zip

end Trajectory
