import Trajectory.Zip.Probe
/-!
# The window of the end record

To tell the form of a zip file, its end record is looked for in the last bytes of the file only. The
window is as long as an end record with the longest comment and a locator before it, so it holds the
end record and the place of the locator whenever the comment is no longer than it can be: what is
found through the window is what would be found in the whole file.
-/
namespace Trajectory.Zip

/-- The mark of an end record, with room for the record. -/
def HasMark (data : List UInt8) (position : Nat) : Prop :=
  position + endLength ≤ data.length ∧ number? 4 data position = some endMark

/-- The last mark of an end record with room for the record. -/
structure EndsAt (data : List UInt8) (position : Nat) : Prop where
  /-- There is a mark. -/
  mark : HasMark data position
  /-- No other follows. -/
  last : ∀ later, position < later → ¬ HasMark data later

variable {data file : List UInt8} {position : Nat}

/-- There is no mark in no bytes. -/
theorem not_hasMark_nil (position : Nat) : ¬ HasMark [] position :=
  fun mark => absurd mark.1 (by simp [endLength])

/-- A mark at the front. -/
theorem hasMark_zero {byte : UInt8} {rest : List UInt8} :
    HasMark (byte :: rest) 0 ↔
      rest.length + 1 ≥ endLength ∧ LittleEndian.read? 4 (byte :: rest) = some endMark := by
  rw [HasMark, Nat.zero_add]
  rfl

/-- A mark behind the first byte. -/
theorem hasMark_succ {byte : UInt8} {rest : List UInt8} :
    HasMark (byte :: rest) (position + 1) ↔ HasMark rest position := by
  rw [HasMark, HasMark, List.length_cons, Nat.add_right_comm, Nat.add_le_add_iff_right]
  rfl

/-- The last mark behind the first byte. -/
theorem endsAt_succ {byte : UInt8} {rest : List UInt8} :
    EndsAt (byte :: rest) (position + 1) ↔ EndsAt rest position := by
  constructor
  · intro ends
    refine ⟨hasMark_succ.mp ends.mark, fun later behind mark => ?_⟩
    exact ends.last (later + 1) (Nat.succ_lt_succ behind) (hasMark_succ.mpr mark)
  · intro ends
    refine ⟨hasMark_succ.mpr ends.mark, fun later behind mark => ?_⟩
    obtain ⟨before, rfl⟩ := Nat.exists_eq_add_one_of_ne_zero (Nat.ne_zero_of_lt behind)
    exact ends.last before (Nat.lt_of_succ_lt_succ behind) (hasMark_succ.mp mark)

/-- What a search comes to: the last mark, or what was found before if there is none. -/
theorem lastMark_eq_some_iff {first : Nat} {found : Option Nat} :
    lastMark first data.length found data = some position ↔
      (∃ behind, EndsAt data behind ∧ position = first + behind) ∨
        (∀ behind, ¬ HasMark data behind) ∧ found = some position := by
  induction data generalizing first found with
  | nil =>
    have none (behind : Nat) : ¬ EndsAt [] behind := fun ends => not_hasMark_nil behind ends.mark
    simp [lastMark, none, not_hasMark_nil]
  | cons byte rest ih =>
    have search : lastMark first (byte :: rest).length found (byte :: rest) =
        lastMark (first + 1) rest.length
          (if rest.length + 1 ≥ endLength ∧ LittleEndian.read? 4 (byte :: rest) = some endMark
            then some first else found) rest := rfl
    rw [search, ih]
    by_cases later : ∃ behind, HasMark rest behind
    · -- A mark further on settles the search, whatever stands at the front.
      obtain ⟨further, mark⟩ := later
      have some_mark : ¬ ∀ behind, ¬ HasMark rest behind := fun none => none further mark
      have some_mark_here : ¬ ∀ behind, ¬ HasMark (byte :: rest) behind :=
        fun none => none (further + 1) (hasMark_succ.mpr mark)
      simp only [some_mark, some_mark_here, false_and, or_false]
      constructor
      · rintro ⟨behind, ends, rfl⟩
        exact ⟨behind + 1, endsAt_succ.mpr ends, by omega⟩
      · rintro ⟨behind, ends, rfl⟩
        cases behind with
        | zero =>
          exact absurd (hasMark_succ.mpr mark) (ends.last (further + 1) (Nat.succ_pos further))
        | succ behind => exact ⟨behind, endsAt_succ.mp ends, by omega⟩
    · have none : ∀ behind, ¬ HasMark rest behind := not_exists.mp later
      have none_ends (behind : Nat) : ¬ EndsAt rest behind := fun ends => none behind ends.mark
      have front (behind : Nat) (mark : HasMark (byte :: rest) behind) : behind = 0 := by
        cases behind with
        | zero => rfl
        | succ behind => exact absurd (hasMark_succ.mp mark) (none behind)
      by_cases here : HasMark (byte :: rest) 0
      · rw [if_pos (hasMark_zero.mp here)]
        have ends : EndsAt (byte :: rest) 0 :=
          ⟨here, fun behind after mark => absurd (front behind mark) (by omega)⟩
        constructor
        · rintro (⟨behind, further, -⟩ | ⟨-, same⟩)
          · exact absurd further (none_ends behind)
          · exact .inl ⟨0, ends, (Option.some.inj same).symm⟩
        · rintro (⟨behind, further, rfl⟩ | ⟨nowhere, -⟩)
          · exact .inr ⟨none, congrArg some (by rw [front behind further.mark, Nat.add_zero])⟩
          · exact absurd here (nowhere 0)
      · rw [if_neg fun mark => here (hasMark_zero.mpr mark)]
        have nowhere (behind : Nat) : ¬ HasMark (byte :: rest) behind :=
          fun mark => here (front behind mark ▸ mark)
        constructor
        · rintro (⟨behind, further, -⟩ | ⟨-, same⟩)
          · exact absurd further (none_ends behind)
          · exact .inr ⟨nowhere, same⟩
        · rintro (⟨behind, further, -⟩ | ⟨-, same⟩)
          · exact absurd further.mark (nowhere behind)
          · exact .inr ⟨none, same⟩

/-- The end record of some bytes is at the last mark. -/
theorem endPosition?_eq_some_iff : endPosition? data = some position ↔ EndsAt data position := by
  rw [endPosition?, lastMark_eq_some_iff]
  simp

/-- A number behind the first bytes. -/
theorem number?_drop (width start : Nat) (data : List UInt8) (position : Nat) :
    number? width (data.drop start) position = number? width data (start + position) := by
  rw [number?, number?, List.drop_drop]

/-- A mark behind the first bytes. -/
theorem hasMark_drop {start : Nat} :
    HasMark (data.drop start) position ↔ HasMark data (start + position) := by
  rw [HasMark, HasMark, number?_drop, List.length_drop]
  have room : position + endLength ≤ data.length - start ↔
      start + position + endLength ≤ data.length := by
    have some_bytes : 0 < endLength := by decide
    omega
  rw [room]

/-- The last mark of a file is the last of its last bytes, if they reach back to it. -/
theorem EndsAt.drop {start : Nat} (ends : EndsAt file position) (reaches : start ≤ position) :
    EndsAt (file.drop start) (position - start) := by
  constructor
  · rw [hasMark_drop, Nat.add_sub_cancel' reaches]
    exact ends.mark
  · intro later behind mark
    exact ends.last (start + later) (by omega) (hasMark_drop.mp mark)

/-- The form of a file by the end record at a position, with all of the file in view. -/
def verdict (file : List UInt8) (position : Nat) : Except ZipDamage Bool :=
  if locatorLength ≤ position ∧ number? 4 file (position - locatorLength) = some locatorMark then
    .ok true
  else
    match number? 2 file (position + 10), number? 4 file (position + 12),
        number? 4 file (position + 16) with
    | some entries, some size, some offset =>
      if entries = full16 ∨ size = full32 ∨ offset = full32 then .ok true
      else if entries = 0 then .ok true
      else if file.length < offset + size then .error .outOfBounds
      else
        match anyWide ((file.drop offset).take size) with
        | some wide => .ok wide
        | none => .error .shortEntry
    | _, _, _ => .error .shortEndRecord

/-- The form of a file with no window: by the last end record of the whole file. -/
def isWideUnbounded (file : List UInt8) : Except ZipDamage Bool :=
  match endPosition? file with
  | none => .error .noEndRecord
  | some position => verdict file position

/-- Where the window of a file starts. -/
def windowStart (file : List UInt8) : Nat :=
  file.length - min file.length (endLength + commentLimit + locatorLength)

/-- The window reaches back to the end record, and to the locator before it if there is room for
one. -/
theorem windowStart_le (ends : EndsAt file position)
    (comment : file.length ≤ position + endLength + commentLimit) :
    windowStart file ≤ position ∧
      (locatorLength ≤ position - windowStart file ↔ locatorLength ≤ position) := by
  have room := ends.mark.1
  simp only [windowStart, endLength, commentLimit, locatorLength] at *
  omega

/-- The search through the window finds the end record. -/
theorem endPosition?_window (ends : EndsAt file position)
    (comment : file.length ≤ position + endLength + commentLimit) :
    endPosition? (file.drop (windowStart file)) = some (position - windowStart file) :=
  endPosition?_eq_some_iff.mpr (ends.drop (windowStart_le ends comment).1)

/-- A number of the end record is the same through the window. -/
theorem number?_window (ends : EndsAt file position)
    (comment : file.length ≤ position + endLength + commentLimit) (width offset : Nat) :
    number? width (file.drop (windowStart file)) (position - windowStart file + offset) =
      number? width file (position + offset) := by
  have reaches := (windowStart_le ends comment).1
  rw [number?_drop, ← Nat.add_assoc, Nat.add_sub_cancel' reaches]

/-- A locator before the end record is seen through the window if there is one. -/
theorem locator_window (ends : EndsAt file position)
    (comment : file.length ≤ position + endLength + commentLimit) :
    (locatorLength ≤ position - windowStart file ∧
        number? 4 (file.drop (windowStart file)) (position - windowStart file - locatorLength) =
          some locatorMark) ↔
      locatorLength ≤ position ∧ number? 4 file (position - locatorLength) = some locatorMark := by
  obtain ⟨reaches, locator⟩ := windowStart_le ends comment
  rw [locator, number?_drop]
  refine and_congr_right fun room => ?_
  have same : windowStart file + (position - windowStart file - locatorLength) =
      position - locatorLength := by
    have room_in_window := locator.mpr room
    omega
  rw [same]

/-- The form of a file is that by the end record in its window. -/
theorem isWide_of_endsAt (ends : EndsAt file position)
    (comment : file.length ≤ position + endLength + commentLimit) :
    isWide file = verdict file position := by
  have start : file.length - min file.length (endLength + commentLimit + locatorLength) =
      windowStart file := rfl
  have form := isWide.eq_1 file
  rw [start, endPosition?_window ends comment] at form
  simp only [locator_window ends comment, number?_window ends comment] at form
  exact form

/-- The window loses nothing. Where the last mark of an end record with room for the record is at a
position, with a comment of any length that a record can have, the search through the window finds
the record there, sees the mark of a locator before it exactly if the file has one there, and gives
the form, or the damage, that a search of the whole file gives. -/
theorem window_loses_nothing (ends : EndsAt file position)
    (comment : file.length ≤ position + endLength + commentLimit) :
    let start := windowStart file
    let tail := file.drop start
    (∃ found, endPosition? tail = some found ∧ start + found = position ∧
      ((locatorLength ≤ found ∧ number? 4 tail (found - locatorLength) = some locatorMark) ↔
        locatorLength ≤ position ∧
          number? 4 file (position - locatorLength) = some locatorMark)) ∧
      isWide file = verdict file position ∧ isWide file = isWideUnbounded file := by
  intro start tail
  have reaches := (windowStart_le ends comment).1
  have whole : isWideUnbounded file = verdict file position := by
    rw [isWideUnbounded, endPosition?_eq_some_iff.mpr ends]
  have seen := isWide_of_endsAt ends comment
  exact ⟨⟨position - start, endPosition?_window ends comment, Nat.add_sub_cancel' reaches,
    locator_window ends comment⟩, seen, seen.trans whole.symm⟩

/-- A mark starts with its first byte. -/
theorem byte_of_mark (marked : number? 4 data position = some endMark) :
    data[position]? = some 0x50 := by
  rw [number?, LittleEndian.read?] at marked
  split at marked
  · next whole =>
    have value := Option.some.inj marked
    cases rest : data.drop position with
    | nil => simp [rest] at whole
    | cons byte later =>
      rw [rest, List.take_succ_cons, LittleEndian.decode, endMark] at value
      have low : byte = 0x50 := UInt8.toNat_inj.mp (show byte.toNat = 0x50 by
        have small := byte.toNat_lt
        omega)
      rw [← List.head?_drop, rest, low]
      rfl
  · contradiction

/-- A comment as long as it can be, with the locator at the front of the window. -/
theorem window_loses_nothing_longest :
    let record := [1, 2, 3] ++ LittleEndian.encode 4 locatorMark ++ List.replicate 16 0 ++
      LittleEndian.encode 4 endMark ++ List.replicate 16 0 ++ [255, 255]
    let file := record ++ List.replicate commentLimit 7
    EndsAt file 23 ∧ file.length = 23 + endLength + commentLimit ∧
      endPosition? (file.drop 3) = some 20 ∧ isWide file = .ok true := by
  intro record file
  have length : file.length = 23 + endLength + commentLimit := by
    rw [List.length_append, List.length_replicate]
    rfl
  have ends : EndsAt file 23 := by
    refine ⟨⟨Nat.le.intro length.symm, by decide⟩, fun later behind mark => ?_⟩
    have first := byte_of_mark mark.2
    rcases Nat.lt_or_ge later record.length with inside | beyond
    · have other : ∀ place < record.length, 23 < place → record[place]? ≠ some 0x50 := by decide
      rw [List.getElem?_append_left inside] at first
      exact other later inside behind first
    · rw [List.getElem?_append_right beyond] at first
      have seven : (0x50 : UInt8) = 7 := List.eq_of_mem_replicate (List.mem_of_getElem? first)
      exact absurd seven (by decide)
  obtain ⟨⟨found, search, place, -⟩, seen, -⟩ :=
    window_loses_nothing ends (Nat.le_of_eq length)
  have start : windowStart file = 3 := by
    rw [windowStart, length]
    rfl
  rw [start] at search place
  obtain rfl : found = 20 := by omega
  refine ⟨ends, length, search, seen.trans ?_⟩
  rw [verdict, if_pos (by decide)]

end Trajectory.Zip
