import Trajectory.Element
import Trajectory.Proofs.Bytes.Chunks
import Trajectory.Proofs.Bytes.LittleEndian
/-!
# Elements and their stored bytes

The stored bytes of an element are its bits, eight to a byte and the low ones first, so elements and
runs of bytes of their width determine each other. The elements of a property are read back bit for
bit, every length that is a multiple of the width is that of some elements, and a uniform property
is read exactly where it stores one element.
-/
namespace Trajectory

/-- The integers that a format has elements for; those of a floating-point format are the numbers of
its bit patterns. -/
def Format.Holds (format : Format) (value : Int) : Prop :=
  if format.isSigned then
    -2 ^ (8 * format.width - 1) ≤ value ∧ value < 2 ^ (8 * format.width - 1)
  else 0 ≤ value ∧ value < 2 ^ (8 * format.width)

namespace Element

variable {format : Format}

/-- The eight bits of an element that are stored at a place. -/
def byteAt (place : Nat) (element : Element format) : UInt8 :=
  .ofBitVec (element.extractLsb' (8 * place) 8)

/-- An integer that a format holds is the integer of its element. -/
theorem toInt_ofInt {value : Int} (held : format.Holds value) :
    (ofInt format value).toInt = value := by
  have bits : 0 < 8 * format.width := Nat.mul_pos (by decide) format.width_pos
  unfold Format.Holds at held
  unfold toInt ofInt
  by_cases signed : format.isSigned
  · rw [if_pos signed] at held ⊢
    exact BitVec.toInt_ofInt_eq_self bits held.1 held.2
  · rw [if_neg signed] at held ⊢
    have low : value % (2 ^ (8 * format.width) : Nat) = value := by
      rw [Nat.cast_pow]
      exact Int.emod_eq_of_lt held.1 held.2
    rw [BitVec.toNat_ofInt, low, Int.toNat_of_nonneg held.1]

/-- An element is stored in the bytes of its width. -/
theorem length_encodeOne (element : Element format) :
    (encodeOne element).length = format.width :=
  LittleEndian.length_encode ..

/-- Each stored byte of an element is eight of its bits, the low ones first. -/
theorem getElem?_encodeOne {place : Nat} (inside : place < format.width)
    (element : Element format) : (encodeOne element)[place]? = some (byteAt place element) := by
  have digit : UInt8.ofNat (element.toNat / 256 ^ place) = byteAt place element := by
    apply UInt8.toNat_inj.mp
    have shifted : element.toNat >>> (8 * place) = element.toNat / 256 ^ place := by
      rw [Nat.shiftRight_eq_div_pow, Nat.pow_mul]
    rw [byteAt, UInt8.toNat_ofNat', UInt8.toNat_ofBitVec, BitVec.extractLsb'_toNat, shifted]
  rw [encodeOne, LittleEndian.getElem?_encode inside, digit]

/-- The bytes of an element are read as the element. -/
theorem ofBytes_encodeOne (element : Element format) :
    ofBytes format (encodeOne element) = element := by
  have range : element.toNat < 256 ^ format.width := by
    have bound := element.isLt
    rwa [Nat.pow_mul] at bound
  rw [ofBytes, encodeOne, LittleEndian.decode_encode, Nat.mod_eq_of_lt range, BitVec.ofNat_toNat,
    BitVec.setWidth_eq]

/-- A run of bytes of the width is the bytes of the element read from it. -/
theorem encodeOne_ofBytes {bytes : List UInt8} (full : bytes.length = format.width) :
    encodeOne (ofBytes format bytes) = bytes := by
  have range : LittleEndian.decode bytes < 2 ^ (8 * format.width) := by
    have bound := LittleEndian.decode_lt bytes
    rwa [full, show (256 : Nat) = 2 ^ 8 from rfl, ← Nat.pow_mul] at bound
  rw [encodeOne, ofBytes, BitVec.toNat_ofNat, Nat.mod_eq_of_lt range, ← full,
    LittleEndian.encode_decode]

/-- Elements are stored one after the other. -/
theorem encode_eq (elements : List (Element format)) :
    encode elements = (elements.map encodeOne).flatten :=
  List.flatMap_def

/-- Elements take as many bytes as their widths add up to. -/
theorem length_encode (elements : List (Element format)) :
    (encode elements).length = elements.length * format.width := by
  induction elements with
  | nil => rw [encode, List.flatMap_nil, List.length_nil, List.length_nil, Nat.zero_mul]
  | cons element later ih =>
    have parts : encode (element :: later) = encodeOne element ++ encode later := rfl
    rw [parts, List.length_append, length_encodeOne, ih, List.length_cons, Nat.succ_mul,
      Nat.add_comm]

/-- The stored byte at a place of an element is the one of that place in it. -/
theorem getElem?_encode (elements : List (Element format)) (index : Nat) {place : Nat}
    (inside : place < format.width) :
    (encode elements)[index * format.width + place]? = elements[index]?.map (byteAt place) := by
  induction elements generalizing index with
  | nil => simp [encode]
  | cons element later ih =>
    have parts : encode (element :: later) = encodeOne element ++ encode later := rfl
    have length := length_encodeOne element
    cases index with
    | zero =>
      have within : 0 * format.width + place < (encodeOne element).length := by omega
      rw [parts, List.getElem?_append_left within, Nat.zero_mul, Nat.zero_add,
        getElem?_encodeOne inside, List.getElem?_cons_zero, Option.map_some]
    | succ index =>
      have behind : (encodeOne element).length ≤ (index + 1) * format.width + place := by
        rw [length, Nat.succ_mul]
        omega
      have further : (index + 1) * format.width + place - (encodeOne element).length =
          index * format.width + place := by
        rw [length, Nat.succ_mul]
        omega
      rw [parts, List.getElem?_append_right behind, further, ih, List.getElem?_cons_succ]

/-- Stored elements are read back. -/
theorem decode_encode (elements : List (Element format)) :
    decode format (encode elements) = .ok elements := by
  have multiple : (encode elements).length % format.width = 0 := by
    rw [length_encode, Nat.mul_mod_left]
  have alike : ∀ piece ∈ elements.map encodeOne, piece.length = format.width := by
    intro piece member
    obtain ⟨element, -, rfl⟩ := List.mem_map.mp member
    exact length_encodeOne element
  have each : ofBytes format ∘ encodeOne = id := funext ofBytes_encodeOne
  rw [decode, if_pos multiple, encode_eq, Bytes.chunks_flatten format.width_pos alike,
    List.map_map, each, List.map_id]

/-- A multiple of the width is the length of some elements, whose bytes are those read. -/
theorem decode_of_dvd {bytes : List UInt8} (multiple : format.width ∣ bytes.length) :
    ∃ elements, decode format bytes = .ok elements ∧ encode elements = bytes := by
  have counted : max format.width 1 = format.width := Nat.max_eq_left format.width_pos
  have cut := Bytes.cut_chunks format.width bytes
  rw [counted] at cut
  have same : (Bytes.chunks format.width bytes).map (encodeOne ∘ ofBytes format) =
      Bytes.chunks format.width bytes := by
    have each : ∀ piece ∈ Bytes.chunks format.width bytes,
        (encodeOne ∘ ofBytes format) piece = id piece :=
      fun piece member => encodeOne_ofBytes (cut.length_of_dvd multiple piece member)
    rw [List.map_congr_left each, List.map_id]
  refine ⟨_, if_pos (Nat.mod_eq_zero_of_dvd multiple), ?_⟩
  rw [encode_eq, List.map_map, same, cut.flatten]

/-- Any other length is refused. -/
theorem decode_of_not_dvd {bytes : List UInt8} (ragged : ¬ format.width ∣ bytes.length) :
    decode format bytes = .error (.width bytes.length format.width) :=
  if_neg fun multiple => ragged (Nat.dvd_of_mod_eq_zero multiple)

/-- One element is read exactly from a run of bytes of the width, which are its own. -/
theorem decode_eq_singleton_iff {bytes : List UInt8} {element : Element format} :
    decode format bytes = .ok [element] ↔
      bytes.length = format.width ∧ ofBytes format bytes = element := by
  constructor
  · intro decoded
    have multiple : format.width ∣ bytes.length := by
      by_contra ragged
      rw [decode_of_not_dvd ragged] at decoded
      contradiction
    obtain ⟨elements, read, stored⟩ := decode_of_dvd multiple
    obtain rfl : elements = [element] := Except.ok.inj (read.symm.trans decoded)
    have bytes_eq : encodeOne element = bytes := by
      rw [← stored, encode, List.flatMap_singleton]
    exact ⟨bytes_eq ▸ length_encodeOne element, bytes_eq ▸ ofBytes_encodeOne element⟩
  · rintro ⟨full, rfl⟩
    have alone := decode_encode [ofBytes format bytes]
    rwa [encode, List.flatMap_singleton, encodeOne_ofBytes full] at alone

/-- A uniform property is absent exactly where nothing is stored. -/
theorem decodeOne_eq_none_iff {bytes : List UInt8} :
    decodeOne format bytes = .ok none ↔ bytes = [] := by
  rw [← List.length_eq_zero_iff]
  unfold decodeOne
  split
  · next nothing => simp [nothing]
  · next stored => split <;> simp [stored]

/-- A uniform property is an element exactly where this is the only one stored. -/
theorem decodeOne_eq_some_iff {bytes : List UInt8} {element : Element format} :
    decodeOne format bytes = .ok (some element) ↔ decode format bytes = .ok [element] := by
  have positive := format.width_pos
  rw [decode_eq_singleton_iff]
  unfold decodeOne
  split
  · next none =>
    have other : ¬ bytes.length = format.width := by omega
    simp [other]
  · split
    · next full => simp [full]
    · next other => simp [other]

/-- Anything else that is stored is no uniform property. -/
theorem decodeOne_eq_error_iff {bytes : List UInt8} :
    decodeOne format bytes = .error (.uniform bytes.length format.width) ↔
      bytes ≠ [] ∧ ∀ element, decode format bytes ≠ .ok [element] := by
  cases read : decodeOne format bytes with
  | ok found =>
    have readable : ¬ (bytes ≠ [] ∧ ∀ element, decode format bytes ≠ .ok [element]) := by
      rintro ⟨stored, others⟩
      cases found with
      | none => exact stored (decodeOne_eq_none_iff.mp read)
      | some element => exact others element (decodeOne_eq_some_iff.mp read)
    simp [readable]
  | error fault =>
    have stored : bytes ≠ [] := by
      rintro rfl
      contradiction
    have others : ∀ element, decode format bytes ≠ .ok [element] := by
      intro element alone
      have found := decodeOne_eq_some_iff.mpr alone
      rw [read] at found
      contradiction
    have told : fault = .uniform bytes.length format.width := by
      unfold decodeOne at read
      split at read
      · contradiction
      · split at read
        · contradiction
        · exact (Except.error.inj read).symm
    rw [told]
    exact iff_of_true rfl ⟨stored, others⟩

/-- The stored form of every format is exact. Elements are stored bit for bit, the low byte of each
first, and read back as they were, and with them the integers that the format holds. Bytes are
refused exactly where their length is no multiple of the width; the elements read from any others
are stored as the same bytes. A uniform property is absent where nothing is stored, and an element
where it is the only one stored; anything else is refused. -/
theorem stored_exactly (format : Format) :
    (∀ elements : List (Element format),
      decode format (encode elements) = .ok elements ∧
      ∀ index place, place < format.width →
        (encode elements)[index * format.width + place]? =
          elements[index]?.map (byteAt place)) ∧
    (∀ values : List Int, (∀ value ∈ values, format.Holds value) →
      ∃ elements, decode format (encode (values.map (ofInt format))) = .ok elements ∧
        elements.map toInt = values) ∧
    (∀ bytes,
      (decode format bytes = .error (.width bytes.length format.width) ↔
        ¬ format.width ∣ bytes.length) ∧
      (format.width ∣ bytes.length →
        ∃ elements, decode format bytes = .ok elements ∧ encode elements = bytes)) ∧
    ∀ bytes,
      (decodeOne format bytes = .ok none ↔ bytes = []) ∧
      (∀ element, decodeOne format bytes = .ok (some element) ↔
        decode format bytes = .ok [element]) ∧
      (decodeOne format bytes = .error (.uniform bytes.length format.width) ↔
        bytes ≠ [] ∧ ∀ element, decode format bytes ≠ .ok [element]) := by
  refine ⟨fun elements => ⟨decode_encode elements, fun index place inside =>
      getElem?_encode elements index inside⟩, fun values held => ?_,
    fun bytes => ⟨?_, decode_of_dvd⟩,
    fun bytes => ⟨decodeOne_eq_none_iff, fun element => decodeOne_eq_some_iff,
      decodeOne_eq_error_iff⟩⟩
  · refine ⟨_, decode_encode _, ?_⟩
    have each : ∀ value ∈ values, (toInt ∘ ofInt format) value = id value :=
      fun value member => toInt_ofInt (held value member)
    rw [List.map_map, List.map_congr_left each, List.map_id]
  · constructor
    · intro refused multiple
      obtain ⟨elements, read, -⟩ := decode_of_dvd multiple
      rw [read] at refused
      contradiction
    · exact decode_of_not_dvd

example : encode [ofInt .int64 (-2)] = [0xfe, 0xff, 0xff, 0xff, 0xff, 0xff, 0xff, 0xff] := by decide

end Element

end Trajectory
