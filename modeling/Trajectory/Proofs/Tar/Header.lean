import Mathlib.Algebra.GroupWithZero.Nat
import Trajectory.Tar.Header
/-!
# Reading a header that was written

A block that was built for an entry is read as the size of the entry and the path that its lead
and its name spell, each on its own and up to its first NUL.
-/
namespace Trajectory.Tar.Header

/-- Every character is below 128, and none is NUL. -/
def Plain (path : String) : Prop := ∀ c ∈ path.toList, 0 < c.toNat ∧ c.toNat < 128

/-- Whether a path is plain is decided character by character. -/
instance (path : String) : Decidable (Plain path) := List.decidableBAll _ path.toList

/-- The path that the stored lead and the stored name of a path spell. -/
def restored (path : String) : String :=
  let (lead, name) := splitPath (Utf8.encode path)
  String.ofList (fieldText lead ++ fieldText name)

/-! ## Parts of a block -/

/-- A field is the run of its width at its offset. -/
theorem field_of_at {block part : List UInt8} {offset width : Nat}
    (present : Bytes.At block offset part) (length : part.length = width) :
    field block offset width = part := by
  rw [field, ← length]
  exact present.slice

/-- A field within the first part of a block is a field of that part. -/
theorem field_append {left right : List UInt8} {offset width : Nat}
    (inside : offset + width ≤ left.length) :
    field (left ++ right) offset width = field left offset width :=
  Bytes.slice_append right inside

/-- A padded field is as wide as it should be. -/
theorem length_padded (width : Nat) (bytes : List UInt8) : (padded width bytes).length = width :=
  Bytes.length_resize bytes width

/-- A field that is wider than its bytes ends in zeros. -/
theorem padded_of_le {width : Nat} {bytes : List UInt8} (fits : bytes.length ≤ width) :
    padded width bytes = bytes ++ Bytes.zeros (width - bytes.length) := by
  rw [padded, Bytes.resize, List.take_of_length_le fits]

/-- Zeros after a text do not change what it reads as. -/
theorem fieldText_zeros (bytes : List UInt8) (count : Nat) :
    fieldText (bytes ++ Bytes.zeros count) = fieldText bytes := by
  have none : (Bytes.zeros count).takeWhile (· ≠ 0) = [] := by
    cases count <;> simp [Bytes.zeros, List.replicate_succ]
  rw [fieldText, fieldText, List.takeWhile_append]
  split
  · next whole =>
    rw [none, List.append_nil, (List.takeWhile_prefix _).eq_of_length whole]
  · rfl

/-- Each octal digit that is written is a digit. -/
theorem octalDigit?_ofNat (value : Nat) :
    octalDigit? (UInt8.ofNat (48 + value % 8)) = some (value % 8) := by
  have small : (UInt8.ofNat (48 + value % 8)).toNat = 48 + value % 8 := by
    simp only [UInt8.toNat_ofNat']
    omega
  have within : 48 ≤ UInt8.ofNat (48 + value % 8) ∧ UInt8.ofNat (48 + value % 8) ≤ 55 := by
    simp only [UInt8.le_iff_toNat_le, small]
    exact ⟨Nat.le_add_right .., show 48 + value % 8 ≤ 55 by omega⟩
  rw [octalDigit?, if_pos within, small]
  simp

/-- A number has as many digits as asked for. -/
theorem length_octalDigits (count value : Nat) : (octalDigits count value).length = count := by
  induction count generalizing value with
  | zero => rfl
  | succ count ih => simp [octalDigits, ih]

/-- The digits of a number are neither NUL nor a space. -/
theorem ne_of_mem_octalDigits {count value : Nat} {byte : UInt8}
    (found : byte ∈ octalDigits count value) : byte ≠ 0 ∧ byte ≠ 32 := by
  induction count generalizing value with
  | zero => contradiction
  | succ count ih =>
    rcases List.mem_append.mp found with high | low
    · exact ih high
    · have digit := octalDigit?_ofNat value
      rw [← List.mem_singleton.mp low] at digit
      constructor
      · rintro rfl
        simp [octalDigit?] at digit
      · rintro rfl
        simp [octalDigit?] at digit

/-- Reading digits after a number appends them to the number. -/
theorem foldlM_octalDigits (count value start : Nat) :
    (octalDigits count value).foldlM
        (fun value byte => (octalDigit? byte).map (value * 8 + ·)) start =
      some (start * 8 ^ count + value % 8 ^ count) := by
  induction count generalizing value with
  | zero => simp [octalDigits, Nat.mod_one]
  | succ count ih =>
    have split : value % 8 ^ (count + 1) = value % 8 + 8 * (value / 8 % 8 ^ count) := by
      rw [Nat.pow_succ', Nat.mod_mul]
    simp only [octalDigits, List.foldlM_append, ih, Option.bind_eq_bind, Option.bind_some,
      List.foldlM_cons, List.foldlM_nil, octalDigit?_ofNat, Option.map_some, Option.pure_def, split,
      Option.some.injEq]
    rw [Nat.pow_succ, ← Nat.mul_assoc]
    omega

/-- A number in octal digits that end in a NUL is read back. -/
theorem octal?_octalDigits {count value : Nat} (some_digit : 0 < count) (fits : value < 8 ^ count)
    (rest : List UInt8) : octal? (octalDigits count value ++ 0 :: rest) = some value := by
  have digits : ∀ byte ∈ octalDigits count value, byte ≠ 0 ∧ byte ≠ 32 :=
    fun _ found => ne_of_mem_octalDigits found
  have passed : (octalDigits count value ++ 0 :: rest).dropWhile (· = 32) =
      octalDigits count value ++ 0 :: rest := by
    cases listed : octalDigits count value with
    | nil =>
      have none := length_octalDigits count value
      simp [listed] at none
      omega
    | cons first later =>
      have other := (digits first (by simp [listed])).2
      simp [other]
  have taken : (octalDigits count value ++ 0 :: rest).takeWhile
      (fun byte => byte ≠ 0 ∧ byte ≠ 32) = octalDigits count value := by
    rw [List.takeWhile_append_of_pos fun byte found => by simpa using digits byte found]
    simp
  have read := foldlM_octalDigits count value 0
  unfold octal?
  rw [passed, taken]
  split
  · next none =>
    have length := length_octalDigits count value
    simp [none] at length
    omega
  · rw [read, Nat.zero_mul, Nat.zero_add, Nat.mod_eq_of_lt fits]

/-! ## Blocks that are headers -/

/-- A recorded checksum is one of the two that a block has. -/
def Vouches (stored : Nat) (block : List UInt8) : Prop :=
  stored = checksum block ∨ (stored : Int) = checksumSigned block

section Decode

variable {block : List UInt8} {offset : Nat} {header : Header}

/-- Only zeros end an archive. -/
theorem decode_eq_none_iff : decode block offset = .ok none ↔ ∀ byte ∈ block, byte = 0 := by
  unfold decode
  split
  · next zeros => simpa using zeros
  · next other =>
    refine iff_of_false ?_ (by simpa using other)
    split
    · simp
    · split
      · simp
      · split
        · simp
        · split <;> simp

/-- The first two letters of the mark stand where it does. -/
theorem getElem?_of_mark (mark : field block 257 5 = Utf8.encode "ustar") :
    block[257]? = some 117 ∧ block[258]? = some 115 := by
  have letters : Utf8.encode "ustar" = [117, 115, 116, 97, 114] := by decide +kernel
  rw [letters] at mark
  have first := congrArg (·[0]?) mark
  have second := congrArg (·[1]?) mark
  simp only [field, List.getElem?_take, List.getElem?_drop] at first second
  exact ⟨first, second⟩

/-- A block is a header if it has the mark and a checksum that vouches for it, and the header is
then what its fields read as. -/
theorem decode_eq_some_iff :
    decode block offset = .ok (some header) ↔
      field block 257 5 = Utf8.encode "ustar" ∧
        (∃ stored, octal? (field block 148 8) = some stored ∧ Vouches stored block) ∧
        octal? (field block 124 12) = some header.size ∧
        fieldText (field block 345 155) ++ fieldText (field block 0 100) = header.path.toList := by
  unfold decode
  split
  · next zeros =>
    simp only [Except.ok.injEq, reduceCtorEq, false_iff, not_and]
    intro mark
    have first := List.all_eq_true.mp zeros 117 (List.mem_of_getElem? (getElem?_of_mark mark).1)
    simp at first
  · split
    · next unmarked => simp [unmarked]
    · next mark =>
      split
      · next unreadable => simp [unreadable]
      · next stored recorded =>
        rw [not_ne_iff.mp mark, recorded]
        split
        · next wrong =>
          have refuted : ¬ Vouches stored block := not_or.mpr wrong
          simp [refuted]
        · next right =>
          have vouches : Vouches stored block := by
            rw [Vouches]
            omega
          cases sized : octal? (field block 124 12) with
          | none => simp
          | some size =>
            obtain ⟨path, length⟩ := header
            have spelled (chars : List Char) :
                String.ofList chars = path ↔ chars = path.toList := by
              rw [← String.toList_inj, String.toList_ofList]
            simp [vouches, ← spelled, and_comm]

end Decode

/-! ## The block of an entry -/

/-- What is summed adds up part by part. -/
theorem sum_append (left right : List UInt8) : sum (left ++ right) = sum left + sum right := by
  have shift (bytes : List UInt8) (start : Nat) :
      bytes.foldl (fun total byte => total + byte.toNat) start = start + sum bytes := by
    induction bytes generalizing start with
    | nil => rfl
    | cons byte rest ih =>
      have first := ih byte.toNat
      simp only [sum, List.foldl_cons, Nat.zero_add] at first ih ⊢
      rw [ih, first]
      omega
  rw [sum, List.foldl_append, shift]
  rfl

/-- A sum is at most 255 for each byte. -/
theorem sum_le (bytes : List UInt8) : sum bytes ≤ 255 * bytes.length := by
  induction bytes with
  | nil => exact Nat.zero_le _
  | cons byte rest ih =>
    have single : sum [byte] = byte.toNat := by simp [sum]
    have bound := byte.toNat_lt
    rw [← List.singleton_append, sum_append, single]
    simp only [List.length_append, List.length_singleton]
    omega

/-- The fields before the checksum take 148 bytes. -/
theorem length_fieldsBefore (name : List UInt8) (size time : Nat) :
    (fieldsBefore name size time).length = 148 := by
  simp [fieldsBefore, length_padded, nameWidth]

/-- The fields after the checksum take 356 bytes. -/
theorem length_fieldsAfter (lead : List UInt8) : (fieldsAfter lead).length = 356 := by
  simp [fieldsAfter, length_padded]

/-- The lead and the name of a path are its bytes, and the name fits its field. -/
theorem splitPath_spec (bytes : List UInt8) :
    (splitPath bytes).1 ++ (splitPath bytes).2 = bytes ∧
      (splitPath bytes).2.length ≤ nameWidth := by
  unfold splitPath
  split
  · next short => exact ⟨rfl, Nat.le_of_lt short⟩
  · next long =>
    simp only [List.splitAt_eq, List.take_append_drop, List.length_drop, true_and]
    omega

/-- The lead of a path fits its field if the name and the lead have room for the path. -/
theorem length_lead_le_iff {bytes : List UInt8} :
    (splitPath bytes).1.length ≤ leadLimit ↔ bytes.length ≤ nameWidth + leadLimit := by
  unfold splitPath
  split
  · simp only [List.length_nil]
    omega
  · rw [List.splitAt_eq, List.length_take]
    omega

/-- The block with a lead, a name, a size and a time. -/
def blockOf (lead name : List UInt8) (size time : Nat) : List UInt8 :=
  fieldsBefore name size time ++
    ((octalDigits 6 (sum (fieldsBefore name size time) + blankSum + sum (fieldsAfter lead)) ++
      [0, 32]) ++ fieldsAfter lead)

/-- When there is a block for an entry, and which. -/
theorem encode_eq_ok_iff {path : String} {size time : Nat} {block : List UInt8} :
    encode path size time = .ok block ↔
      (splitPath (Utf8.encode path)).1.length ≤ leadLimit ∧ size < numberLimit ∧
        blockOf (splitPath (Utf8.encode path)).1 (splitPath (Utf8.encode path)).2 size time =
          block := by
  unfold encode blockOf
  dsimp only
  generalize splitPath (Utf8.encode path) = parts
  obtain ⟨lead, name⟩ := parts
  simp only [List.append_assoc]
  split
  · next long =>
    simp only [reduceCtorEq, false_iff, not_and]
    omega
  · next short =>
    split
    · next large =>
      simp only [reduceCtorEq, false_iff, not_and]
      omega
    · next fits =>
      rw [Except.ok.injEq]
      exact ⟨fun same => ⟨by omega, by omega, same⟩, fun ⟨_, _, same⟩ => same⟩

section Block

variable (lead name : List UInt8) (size time : Nat)

/-- The checksum field takes eight bytes. -/
theorem length_checksumField (total : Nat) : (octalDigits 6 total ++ [0, 32]).length = 8 := by
  rw [List.length_append, length_octalDigits]
  rfl

/-- A header takes one block. -/
theorem length_blockOf : (blockOf lead name size time).length = blockLength := by
  rw [blockOf, List.length_append, List.length_append, length_fieldsBefore, length_checksumField,
    length_fieldsAfter]
  rfl

/-- A block has the mark of the format. -/
theorem field_mark : field (blockOf lead name size time) 257 5 = Utf8.encode "ustar" := by
  have padding : padded 6 (Utf8.encode "ustar") = Utf8.encode "ustar" ++ [0] := by decide +kernel
  have present : Bytes.At (blockOf lead name size time) 257 (Utf8.encode "ustar") := by
    refine ⟨fieldsBefore name size time ++
      ((octalDigits 6 (sum (fieldsBefore name size time) + blankSum + sum (fieldsAfter lead)) ++
        [0, 32]) ++ padded 101 (Utf8.encode "0")),
      0 :: (padded 82 (Utf8.encode "00") ++ padded 167 lead), ?_, ?_⟩
    · simp only [blockOf, fieldsAfter, padding, List.append_assoc, List.cons_append,
        List.nil_append]
    · rw [List.length_append, List.length_append, length_fieldsBefore, length_checksumField,
        length_padded]
  exact field_of_at present (by decide +kernel)

/-- The checksum that a block records is its own. -/
theorem octal?_checksum : octal? (field (blockOf lead name size time) 148 8) =
    some (checksum (blockOf lead name size time)) := by
  have before := length_fieldsBefore name size time
  have after := length_fieldsAfter lead
  have front := sum_le (fieldsBefore name size time)
  have back := sum_le (fieldsAfter lead)
  generalize totalled : sum (fieldsBefore name size time) + blankSum + sum (fieldsAfter lead) =
    total
  have small : total < 8 ^ 6 := by
    rw [before] at front
    rw [after] at back
    have blank : blankSum = 256 := rfl
    omega
  have parts : blockOf lead name size time = fieldsBefore name size time ++
      ((octalDigits 6 total ++ [0, 32]) ++ fieldsAfter lead) := by
    rw [blockOf, totalled]
  have upto : (fieldsBefore name size time ++ (octalDigits 6 total ++ [0, 32])).length = 156 := by
    rw [List.length_append, before, length_checksumField]
  have summed : checksum (blockOf lead name size time) = total := by
    rw [checksum, parts, List.take_left' before, ← List.append_assoc, List.drop_left' upto,
      totalled]
  have present : Bytes.At (blockOf lead name size time) 148 (octalDigits 6 total ++ [0, 32]) :=
    ⟨fieldsBefore name size time, fieldsAfter lead, parts, before⟩
  rw [summed, field_of_at present (length_checksumField total)]
  exact octal?_octalDigits (by decide) small [32]

/-- The size that a block records is read back. -/
theorem octal?_size (fits : size < numberLimit) :
    octal? (field (blockOf lead name size time) 124 12) = some size := by
  have digits : padded 12 (octalDigits 11 size) = octalDigits 11 size ++ [0] := by
    have length := length_octalDigits 11 size
    have narrow : (octalDigits 11 size).length ≤ 12 := by omega
    rw [padded_of_le narrow, length]
    rfl
  have inside : 124 + 12 ≤ (fieldsBefore name size time).length := by
    rw [length_fieldsBefore]
    decide
  have present : Bytes.At (fieldsBefore name size time) 124 (padded 12 (octalDigits 11 size)) := by
    refine ⟨_, _, List.append_assoc .., ?_⟩
    simp only [List.length_append, length_padded]
    rfl
  rw [blockOf, field_append inside, field_of_at present (length_padded 12 _), digits]
  exact octal?_octalDigits (by decide) fits []

/-- The name that a block records is read back. -/
theorem fieldText_name (short : name.length ≤ nameWidth) :
    fieldText (field (blockOf lead name size time) 0 100) = fieldText name := by
  have inside : 0 + 100 ≤ (fieldsBefore name size time).length := by
    rw [length_fieldsBefore]
    decide
  have length : (padded nameWidth name).length = 100 := length_padded nameWidth name
  rw [blockOf, field_append inside]
  unfold fieldsBefore
  simp only [List.append_assoc]
  rw [field_append (Nat.le_of_eq length.symm), field, List.drop_zero,
    List.take_of_length_le (Nat.le_of_eq length), padded_of_le short, fieldText_zeros]

/-- The lead that a block records is read back. -/
theorem fieldText_lead (short : lead.length ≤ leadLimit) :
    fieldText (field (blockOf lead name size time) 345 155) = fieldText lead := by
  have room : lead.length ≤ 154 := short
  have narrow : lead.length ≤ 155 := by omega
  have wide : padded 167 lead = padded 155 lead ++ Bytes.zeros 12 := by
    have wider : lead.length ≤ 167 := by omega
    rw [padded_of_le wider, padded_of_le narrow, List.append_assoc, Bytes.zeros_append]
    congr 2
    omega
  have present : Bytes.At (blockOf lead name size time) 345 (padded 155 lead) := by
    refine ⟨fieldsBefore name size time ++
      ((octalDigits 6 (sum (fieldsBefore name size time) + blankSum + sum (fieldsAfter lead)) ++
        [0, 32]) ++ (padded 101 (Utf8.encode "0") ++ (padded 6 (Utf8.encode "ustar") ++
        padded 82 (Utf8.encode "00")))), Bytes.zeros 12, ?_, ?_⟩
    · simp only [blockOf, fieldsAfter, wide, List.append_assoc]
    · simp only [List.length_append, length_fieldsBefore, length_octalDigits, length_padded]
      rfl
  rw [field_of_at present (length_padded 155 _), padded_of_le narrow, fieldText_zeros]

/-- A block is read as its size and the path that its lead and its name spell. -/
theorem decode_blockOf (fits : size < numberLimit) (short : lead.length ≤ leadLimit)
    (named : name.length ≤ nameWidth) (offset : Nat) :
    decode (blockOf lead name size time) offset =
      .ok (some ⟨String.ofList (fieldText lead ++ fieldText name), size⟩) := by
  refine decode_eq_some_iff.mpr
    ⟨field_mark lead name size time, ⟨_, octal?_checksum lead name size time, .inl rfl⟩,
      octal?_size lead name size time fits, ?_⟩
  rw [fieldText_lead lead name size time short, fieldText_name lead name size time named,
    String.toList_ofList]

end Block

/-- A header takes one block. -/
theorem length_encode {path : String} {size time : Nat} {block : List UInt8}
    (encoded : encode path size time = .ok block) : block.length = blockLength := by
  obtain ⟨-, -, rfl⟩ := encode_eq_ok_iff.mp encoded
  exact length_blockOf _ _ _ _

/-- An entry has a header exactly if its path and its size fit. -/
theorem encode_ok_iff {path : String} {size time : Nat} :
    (∃ block, encode path size time = .ok block) ↔
      (Utf8.encode path).length ≤ nameWidth + leadLimit ∧ size < numberLimit := by
  rw [← length_lead_le_iff]
  constructor
  · rintro ⟨block, encoded⟩
    obtain ⟨short, fits, -⟩ := encode_eq_ok_iff.mp encoded
    exact ⟨short, fits⟩
  · rintro ⟨short, fits⟩
    exact ⟨_, encode_eq_ok_iff.mpr ⟨short, fits, rfl⟩⟩

/-- A path that is too long is what an entry fails for first. -/
theorem encode_of_long {path : String}
    (long : nameWidth + leadLimit < (Utf8.encode path).length) (size time : Nat) :
    encode path size time = .error (.pathTooLong (Utf8.encode path).length) := by
  have lead := Nat.not_le.mp (mt length_lead_le_iff.mp (Nat.not_le.mpr long))
  unfold encode
  exact if_pos lead

/-- A size that is too large is what an entry fails for next. -/
theorem encode_of_large {path : String} {size : Nat}
    (short : (Utf8.encode path).length ≤ nameWidth + leadLimit) (large : numberLimit ≤ size)
    (time : Nat) : encode path size time = .error (.sizeTooLarge size) := by
  have lead := Nat.not_lt.mpr (length_lead_le_iff.mpr short)
  unfold encode
  exact (if_neg lead).trans (if_pos large)

/-- A header that was built is read as the size given and the path that is spelled in it. -/
theorem decode_encode {path : String} {size time : Nat} {block : List UInt8}
    (encoded : encode path size time = .ok block) (offset : Nat) :
    decode block offset = .ok (some ⟨restored path, size⟩) := by
  obtain ⟨short, fits, rfl⟩ := encode_eq_ok_iff.mp encoded
  exact decode_blockOf _ _ _ _ fits short (splitPath_spec (Utf8.encode path)).2 offset

end Trajectory.Tar.Header
