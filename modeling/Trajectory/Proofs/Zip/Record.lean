import Trajectory.Proofs.Text.Utf8
import Trajectory.Proofs.Zip.Layout
import Trajectory.Zip.Directory
/-!
# Directory records that are written and read back

A directory record is read back as what it was written from, as far as the contents of its entry
depend on it, if its numbers fit and its extra part takes nothing back. The record of a new entry is
such a record, wherever the entry is.
-/
namespace Trajectory

namespace Utf8

/-- A character whose bytes are all below 128 is below 128. -/
theorem lt_of_encodeChar {c : Char} (plain : ∀ byte ∈ String.utf8EncodeChar c, byte < 128) :
    c.toNat < 128 := by
  refine Nat.lt_of_not_le fun wide => ?_
  have several : ¬ c.val.toNat ≤ 127 := Nat.not_le.mpr wide
  have large {number : Nat} (low : 128 ≤ number) (high : number < 256) :
      ¬ UInt8.ofNat number < 128 := by
    rw [UInt8.lt_iff_toNat_lt, UInt8.toNat_ofNat_of_lt' high]
    exact Nat.not_lt.mpr low
  unfold String.utf8EncodeChar at plain
  dsimp only at plain
  rw [if_neg several] at plain
  split at plain
  · exact large (by omega) (by omega) (plain _ (List.mem_cons_self ..))
  · split at plain
    · exact large (by omega) (by omega) (plain _ (List.mem_cons_self ..))
    · exact large (by omega) (by omega) (plain _ (List.mem_cons_self ..))

/-- A text is decoded from its bytes. -/
theorem decode?_encode (text : String) : decode? (encode text) = some text := by
  have bytes : ByteArray.mk (encode text).toArray = text.toByteArray := by
    rw [mk_toArray, ← String.utf8Encode_toList]
    rfl
  have valid : (ByteArray.mk (encode text).toArray).IsValidUTF8 := bytes ▸ text.isValidUTF8
  rw [decode?, String.fromUTF8?, dif_pos valid]
  exact congrArg some (String.toByteArray_inj.mp bytes)

end Utf8

namespace CodePage437

/-- A text whose bytes are all below 128 is the same in this character set. -/
theorem map_char_encode {text : String} (plain : ∀ byte ∈ Utf8.encode text, byte < 128) :
    (Utf8.encode text).map char = text.toList := by
  have ascii : ∀ c ∈ text.toList, c.toNat < 128 := fun c member =>
    Utf8.lt_of_encodeChar fun byte found => plain byte (List.mem_flatMap.mpr ⟨c, member, found⟩)
  rw [Utf8.encode, Utf8.flatMap_encodeChar_of_lt ascii, List.map_map]
  refine (List.map_congr_left fun c member => ?_).trans (List.map_id _)
  have below := ascii c member
  have number : (UInt8.ofNat c.toNat).toNat = c.toNat := by
    rw [UInt8.toNat_ofNat']
    omega
  have low : UInt8.ofNat c.toNat < 128 := by
    rw [UInt8.lt_iff_toNat_lt, number]
    exact below
  rw [Function.comp_apply, char, if_pos low, number, Char.ofNat_toNat, id]

end CodePage437

namespace Zip

open Bytes (At)

/-! ## What follows a record -/

section Append

variable {data : List UInt8} {width position length value : Nat}

/-- Bytes of a range that lie inside do not depend on what follows. -/
theorem slice?_append {run : List UInt8} (found : Bytes.slice? data position length = some run)
    (rest : List UInt8) : Bytes.slice? (data ++ rest) position length = some run := by
  by_cases none : length = 0
  · subst none
    exact found
  · have inside := Bytes.le_length_of_slice? found none
    unfold Bytes.slice? at found ⊢
    rw [Bytes.slice_append rest inside]
    exact found

/-- A number is read from the bytes of its range. -/
theorem number?_eq : number? width data position =
    (Bytes.slice? data position width).map LittleEndian.decode := by
  unfold number? LittleEndian.read? Bytes.slice?
  dsimp only
  split <;> rfl

/-- A number that lies inside does not depend on what follows. -/
theorem number?_append (found : number? width data position = some value) (rest : List UInt8) :
    number? width (data ++ rest) position = some value := by
  rw [number?_eq, Option.map_eq_some_iff] at found ⊢
  obtain ⟨run, read, decoded⟩ := found
  exact ⟨run, slice?_append read rest, decoded⟩

/-- What several steps find, they find wherever each step finds as much. -/
theorem bind_of_found {α β : Type} {first last : Option α} {next later : α → Option β} {result : β}
    (step : ∀ found, first = some found → last = some found)
    (go_on : ∀ found, next found = some result → later found = some result) :
    first.bind next = some result → last.bind later = some result := by
  intro found
  obtain ⟨middle, before, after⟩ := Option.bind_eq_some_iff.mp found
  exact Option.bind_eq_some_iff.mpr ⟨middle, step middle before, go_on middle after⟩

/-- A record that lies inside does not depend on what follows. -/
theorem listed?_append {entry : Entry} {taken : Nat} (found : listed? data = some (entry, taken))
    (rest : List UInt8) : listed? (data ++ rest) = some (entry, taken) := by
  revert found
  unfold listed?
  -- ten numbers, and then the name, the extra part and the comment
  iterate 10 refine bind_of_found (fun _ read => number?_append read rest) fun _ => ?_
  iterate 3 refine bind_of_found (fun _ read => slice?_append read rest) fun _ => ?_
  exact id

end Append

/-! ## Reading a record back -/

/-- A number of two bytes at most fits into them. -/
theorem min_full16_lt (value : Nat) : min value full16 < 256 ^ 2 :=
  Nat.lt_of_le_of_lt (Nat.min_le_right ..) (by decide)

/-- A number of four bytes at most fits into them. -/
theorem min_full32_lt (value : Nat) : min value full32 < 256 ^ 4 :=
  Nat.lt_of_le_of_lt (Nat.min_le_right ..) (by decide)

namespace Entry

/-- What the contents of an entry are read by. -/
def bare (entry : Entry) : Entry :=
  { entry with storedName := [], size := 0, extra := [], comment := "" }

/-- An entry is read back from its directory record, as far as its contents depend on it. -/
def Rereads (entry : Entry) : Prop :=
  ∃ again, listed? entry.directoryRecord = some (again, entry.directoryRecord.length) ∧
    again.bare = entry.bare

/-- The numbers of an entry fit into the fields of its directory record. -/
structure Fits (entry : Entry) : Prop where
  /-- The method fits. -/
  method : entry.method < 256 ^ 2
  /-- The check fits. -/
  checksum : entry.checksum < 256 ^ 4
  /-- The length of the name fits. -/
  name : entry.storedName.length < 256 ^ 2
  /-- The length of the extra part fits. -/
  extra : entry.extra.length < 256 ^ 2
  /-- The length of the comment fits. -/
  comment : (Utf8.encode entry.comment).length < 256 ^ 2

/-- What the directory record of an entry says of it before its extra part is taken. -/
def shown (entry : Entry) : Entry :=
  { name := decodeText entry.flags entry.storedName
    storedName := entry.storedName
    method := entry.method
    checksum := entry.checksum
    length := min entry.length full32
    size := min entry.size full32
    offset := min entry.offset full32
    extra := entry.extra
    comment := decodeText entry.flags (Utf8.encode entry.comment)
    encrypted := entry.flags % 2 = 1
    sealed := false }

/-- The flags fit into their field. -/
theorem flags_lt (entry : Entry) : entry.flags < 256 ^ 2 := by
  unfold flags
  dsimp only
  split <;> split <;> decide

variable {entry : Entry}

/-- Widths of the numbers of a directory record. -/
def directoryWidths : List Nat := [4, 2, 2, 2, 2, 2, 2, 4, 4, 4, 2, 2, 2, 2, 2, 4, 4]

/-- The numbers of the directory record of an entry. -/
def directoryNumbers (entry : Entry) : List Nat :=
  [directoryMark, version, version, entry.flags, entry.method, 0, 0x0021, entry.checksum,
    min entry.length full32, min entry.size full32, entry.storedName.length, entry.extra.length,
    (Utf8.encode entry.comment).length, 0, 0, 0, min entry.offset full32]

/-- A directory record is its numbers, and the runs of bytes that they count. -/
theorem directoryRecord_eq (entry : Entry) :
    entry.directoryRecord = numbers directoryWidths entry.directoryNumbers ++
      (entry.storedName ++ (entry.extra ++ Utf8.encode entry.comment)) := by
  simp only [directoryRecord, shared, numbers, directoryWidths, directoryNumbers,
    List.append_assoc, List.nil_append]

/-- A directory record is as long as its numbers and those runs. -/
theorem length_directoryRecord (entry : Entry) :
    entry.directoryRecord.length = directoryLength + entry.storedName.length +
      entry.extra.length + (Utf8.encode entry.comment).length := by
  have fixed : (numbers directoryWidths entry.directoryNumbers).length = directoryLength :=
    length_numbers rfl
  rw [directoryRecord_eq]
  simp only [List.length_append, fixed, Nat.add_assoc]

/-- The directory record of an entry says of it what its extra part makes of what is shown. -/
theorem listed?_directoryRecord (fits : entry.Fits) {taken : Entry}
    (takes : takeExtra entry.shown entry.extra = some taken)
    (known : taken.method = sealedMethod → taken.sealed) :
    listed? entry.directoryRecord = some (taken, entry.directoryRecord.length) := by
  have found := Bytes.at_of_eq entry.directoryRecord_eq
  have number := number?_of_numbers found.left
  have behind : 0 + (numbers directoryWidths entry.directoryNumbers).length = directoryLength :=
    (Nat.zero_add _).trans (length_numbers rfl)
  have name := found.right.left.slice? behind
  have extra := found.right.right.left.slice? rfl
  have comment := found.right.right.right.slice? rfl
  rw [behind] at extra comment
  rw [listed?, number 0 4 0 directoryMark rfl rfl rfl (by decide),
    number 3 2 8 entry.flags rfl rfl rfl entry.flags_lt,
    number 4 2 10 entry.method rfl rfl rfl fits.method,
    number 7 4 16 entry.checksum rfl rfl rfl fits.checksum,
    number 8 4 20 (min entry.length full32) rfl rfl rfl (min_full32_lt _),
    number 9 4 24 (min entry.size full32) rfl rfl rfl (min_full32_lt _),
    number 10 2 28 entry.storedName.length rfl rfl rfl fits.name,
    number 11 2 30 entry.extra.length rfl rfl rfl fits.extra,
    number 12 2 32 (Utf8.encode entry.comment).length rfl rfl rfl fits.comment,
    number 16 4 42 (min entry.offset full32) rfl rfl rfl (min_full32_lt _)]
  simp only [Option.bind_eq_bind, Option.bind_some, name, extra, comment]
  have shows : takeExtra _ entry.extra = some taken := takes
  unfold shown at shows
  rw [shows, Option.bind_some, if_pos ⟨trivial, known⟩, length_directoryRecord]

/-! ## The record of a new entry -/

/-- A number that is present is taken. -/
theorem widened_true (entry : Entry) {data : List UInt8} {known position value : Nat}
    (read : number? 8 data position = some value) :
    entry.widened data true known position = .ok (value, position + 8) := by
  rw [widened, if_pos rfl, number, read]
  rfl

/-- A number that is not present is the one known. -/
theorem widened_false (entry : Entry) (data : List UInt8) (known position : Nat) :
    entry.widened data false known position = .ok (known, position) := rfl

/-- The data of a field are there up to their end. -/
theorem run_to_end (entry : Entry) (data : List UInt8) (position : Nat) :
    entry.run data position (data.length - position) = .ok (data.drop position) := by
  have all : (data.drop position).take (data.length - position) = data.drop position :=
    List.take_of_length_le (Nat.le_of_eq List.length_drop)
  rw [run, Bytes.slice?, all, List.length_drop, if_pos rfl]

/-- A number is kept elsewhere if four bytes cannot hold it. -/
theorem min_full32_beq (value : Nat) : (min value full32 == full32) = decide (full32 ≤ value) := by
  rw [beq_eq_decide]
  exact decide_eq_decide.mpr (by omega)

/-- The field of a new entry is short. -/
theorem length_wideSizes_le (size length offset : Nat) :
    (wideSizes size length offset).length ≤ 28 := by
  have place : (if offset < full32 then [] else LittleEndian.encode 8 offset).length ≤ 8 := by
    split
    · exact Nat.zero_le _
    · exact Nat.le_of_eq (LittleEndian.length_encode ..)
  unfold wideSizes
  simp only [List.length_append, LittleEndian.length_encode]
  omega

/-- Numbers of bytes that are told apart: where four bytes cannot hold the number of stored bytes,
they cannot hold that of the contents either. Otherwise only the number of stored bytes is looked
for in the field, and that of the contents, which comes first, is taken for it. -/
def Told (size length : Nat) : Prop := full32 ≤ length → full32 ≤ size

section Wide

variable {size length offset : Nat} (told : Told size length) (size_lt : size < 256 ^ 8)
  (length_lt : length < 256 ^ 8) (offset_lt : offset < 256 ^ 8)
  (shows_size : entry.size = min size full32) (shows_length : entry.length = min length full32)
  (shows_offset : entry.offset = min offset full32)

include told size_lt length_lt offset_lt shows_size shows_length shows_offset

/-- The field of a new entry gives its sizes and its place. -/
theorem takeWide_wideSizes {data place : List UInt8}
    (layout : data = numbers [8, 8] [size, length] ++ place)
    (places : place = if offset < full32 then [] else LittleEndian.encode 8 offset) :
    entry.takeWide data data.length =
      .ok ({ entry with size := size, length := length, offset := offset }, data.length) := by
  have found := Bytes.at_of_eq layout
  have fixed : (numbers [8, 8] [size, length]).length = 16 := length_numbers rfl
  have data_length : data.length = 16 + place.length := by
    rw [layout, List.length_append, fixed]
  have first : number? 8 data 0 = some size :=
    number?_of_numbers found.left 0 8 0 size rfl rfl rfl size_lt
  have second : number? 8 data 8 = some length :=
    number?_of_numbers found.left 1 8 8 length rfl rfl rfl length_lt
  unfold takeWide
  dsimp only
  rw [shows_size, shows_length, shows_offset, min_full32_beq, min_full32_beq]
  by_cases near : offset < full32
  -- Where the place is near, the field is shorter than three numbers, and only what is saturated is
  -- taken from it; the rest is known.
  · rw [if_pos near] at places
    have two : ¬ 24 ≤ data.length := by
      rw [data_length, places]
      decide
    have known : min offset full32 = offset := Nat.min_eq_left (Nat.le_of_lt near)
    have given : (offset == full32) = false := beq_false_of_ne (Nat.ne_of_lt near)
    have within : ¬ data.length < 8 := by omega
    by_cases long : full32 ≤ length
    · have large := told long
      simp only [two, large, long, known, given, decide_true, decide_false, Bool.or_true,
        Bool.or_false, widened_true _ first, widened_true _ second, widened_false, bind,
        Except.bind, run_to_end]
      rw [if_neg (by omega)]
    · have short : min length full32 = length := Nat.min_eq_left (Nat.le_of_not_le long)
      by_cases large : full32 ≤ size
      · simp only [two, large, long, known, given, short, within, decide_true, decide_false,
          Bool.or_true, Bool.or_false, widened_true _ first, widened_false, bind, Except.bind,
          run_to_end, Nat.zero_add, ↓reduceIte]
      · have small : min size full32 = size := Nat.min_eq_left (Nat.le_of_not_le large)
        simp only [two, large, long, known, given, small, short, decide_false, Bool.or_false,
          widened_false, bind, Except.bind, run_to_end, Nat.not_lt_zero, ↓reduceIte]
  · rw [if_neg near] at places
    have three : data.length = 24 := by rw [data_length, places, LittleEndian.length_encode]
    have third : number? 8 data 16 = some offset := by
      have last := found.right
      rw [places] at last
      exact number?_of_at last (by rw [fixed]) offset_lt
    have all : 24 ≤ data.length := Nat.le_of_eq three.symm
    simp only [all, decide_true, Bool.true_or, widened_true _ first, widened_true _ second,
      widened_true _ third, bind, Except.bind, run_to_end]
    rw [if_neg (Nat.not_lt.mpr all)]

/-- An extra part that is this field gives them too, and none of it is kept. -/
theorem takeExtra_wideSizes : takeExtra entry (wideSizes size length offset) =
    some { entry with size := size, length := length, offset := offset, extra := [] } := by
  let place := if offset < full32 then [] else LittleEndian.encode 8 offset
  let data := numbers [8, 8] [size, length] ++ place
  have fixed : (numbers [8, 8] [size, length]).length = 16 := length_numbers rfl
  have data_length : data.length = 16 + place.length := by rw [List.length_append, fixed]
  have layout : wideSizes size length offset =
      numbers [2, 2] [wideField, data.length] ++ data := by
    rw [data_length]
    simp only [data, place, wideSizes, numbers, List.append_assoc, List.append_nil]
  have head : (numbers [2, 2] [wideField, data.length]).length = fieldHead := length_numbers rfl
  have few : data.length < 256 ^ 2 := by
    have most := length_wideSizes_le size length offset
    rw [layout, List.length_append] at most
    omega
  have found := Bytes.at_of_eq layout
  have kind : number? 2 (wideSizes size length offset) 0 = some wideField :=
    number?_of_numbers found.left 0 2 0 wideField rfl rfl rfl (by decide)
  have count : number? 2 (wideSizes size length offset) 2 = some data.length :=
    number?_of_numbers found.left 1 2 2 data.length rfl rfl rfl few
  have behind : (wideSizes size length offset).drop fieldHead = data := by
    rw [layout, List.drop_left' head]
  have last : (wideSizes size length offset).drop (fieldHead + data.length) = [] := by
    rw [← List.drop_drop, behind, List.drop_length]
  have some_byte : (wideSizes size length offset).isEmpty = false := by
    rw [layout]
    rfl
  rw [takeExtra, takeFields, if_neg (by rw [some_byte]; exact Bool.false_ne_true)]
  split
  · next some_kind some_length kind_found length_found =>
    obtain rfl := Option.some.inj (kind.symm.trans kind_found)
    obtain rfl := Option.some.inj (count.symm.trans length_found)
    rw [behind, takeField, if_pos rfl,
      takeWide_wideSizes told size_lt length_lt offset_lt shows_size shows_length shows_offset
        rfl rfl]
    dsimp only
    rw [last, if_pos rfl, Nat.sub_self, List.take_zero, List.append_nil, takeFields]
    rfl
  · next missing => exact absurd count (missing _ _ kind)

end Wide

section New

variable (name : String) (options : Options) (contents stored : List UInt8) (offset : Nat)

/-- The flags of a new entry tell whether its name is plain. -/
theorem flags_ofContents : (ofContents name options contents stored offset).flags =
    if isPlain (Utf8.encode name) then 0 else utf8Flag := by
  have decoded : (Utf8.decode? (Utf8.encode name)).isSome = true := by
    rw [Utf8.decode?_encode]
    rfl
  have no_comment : isPlain (Utf8.encode "") = true := by decide
  simp only [flags, ofContents, decoded, no_comment]
  cases isPlain (Utf8.encode name) <;> rfl

/-- The name of a new entry is decoded by its flags. -/
theorem decodeText_ofContents :
    decodeText (ofContents name options contents stored offset).flags (Utf8.encode name) =
      name := by
  rw [flags_ofContents]
  cases plain : isPlain (Utf8.encode name) with
  | true =>
    have all_plain : ∀ byte ∈ Utf8.encode name, byte < 128 := by simpa [isPlain] using plain
    rw [if_pos rfl, decodeText, if_neg (by decide), CodePage437.map_char_encode all_plain,
      String.ofList_toList]
  | false =>
    rw [if_neg Bool.false_ne_true, decodeText, if_pos (by decide), Utf8.encode,
      Utf8.decodeLossy_flatMap, String.ofList_toList]

variable {name contents stored offset}

/-- A new entry is read back from its directory record, wherever it is and whatever compression was
asked for it. -/
theorem rereads_ofContents (compression : Compression)
    (name_lt : (Utf8.encode name).length < 256 ^ 2)
    (told : Told contents.length stored.length) (contents_lt : contents.length < 256 ^ 8)
    (stored_lt : stored.length < 256 ^ 8) (offset_lt : offset < 256 ^ 8) :
    (ofContents name (.ofCompression compression) contents stored offset).Rereads := by
  let entry := ofContents name (.ofCompression compression) contents stored offset
  have extra : entry.extra = wideSizes contents.length stored.length offset :=
    if_pos (Options.wide_ofCompression compression)
  have method : entry.method = plain ∨ entry.method = deflated :=
    Options.method_ofCompression compression
  have method_lt : entry.method < 256 ^ 2 := by
    rcases method with same | same <;> rw [same] <;> decide
  have open_method : entry.method ≠ sealedMethod := by
    rcases method with same | same <;> rw [same] <;> decide
  have fits : entry.Fits := by
    refine ⟨method_lt, (Crc32.check contents).toNat_lt, name_lt, ?_,
      (by decide : (Utf8.encode "").length < 256 ^ 2)⟩
    rw [extra]
    exact Nat.lt_of_le_of_lt (length_wideSizes_le ..) (by decide)
  have takes := @takeExtra_wideSizes entry.shown contents.length stored.length offset told
    contents_lt stored_lt offset_lt rfl rfl rfl
  rw [← extra] at takes
  have unencrypted : entry.flags % 2 ≠ 1 := by
    rw [flags_ofContents]
    cases isPlain (Utf8.encode name) <;> decide
  refine ⟨_, listed?_directoryRecord fits takes fun sealed => absurd sealed open_method, ?_⟩
  have name_stored : entry.storedName = Utf8.encode name := rfl
  simp only [bare, shown, unencrypted, decide_false]
  rw [name_stored, decodeText_ofContents]
  rfl

end New

end Entry

end Zip

end Trajectory
