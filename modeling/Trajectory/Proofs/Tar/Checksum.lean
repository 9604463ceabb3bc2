import Mathlib.Data.Int.ModEq
import Trajectory.Proofs.Tar.Header
/-!
# Headers with one byte changed

A block is taken for a header only if the checksum that it records is the sum of its bytes, each
read as unsigned or each as signed. The two sums leave the same remainder by 256, and a byte that is
changed changes this remainder. So a changed byte is noticed wherever it is summed, also where the
recorded checksum was one of the two sums and comes to be compared with the other. The bytes that
are not summed, those of the checksum itself, have no part in the path or the size.
-/
namespace Trajectory.Tar.Header

/-! ## Sums of bytes -/

/-- Reading bytes as signed changes their sum by a multiple of 256. -/
theorem signedSum_modEq (bytes : List UInt8) : signedSum bytes ≡ sum bytes [ZMOD 256] := by
  have single (byte : UInt8) : byte.toInt8.toInt ≡ byte.toNat [ZMOD 256] := by
    have signed : byte.toInt8.toInt = Int.bmod byte.toNat 256 :=
      BitVec.toInt_eq_toNat_bmod byte.toBitVec
    rw [signed]
    exact Int.bmod_emod
  have all (signed : Int) (total : Nat) (same : signed ≡ total [ZMOD 256]) :
      bytes.foldl (fun total byte => total + byte.toInt8.toInt) signed ≡
        (bytes.foldl (fun total byte => total + byte.toNat) total : Nat) [ZMOD 256] := by
    induction bytes generalizing signed total with
    | nil => exact same
    | cons byte rest ih =>
      refine ih _ _ ?_
      rw [Nat.cast_add]
      exact same.add (single byte)
  exact all 0 0 rfl

/-- A byte that takes the place of another takes its place in the sum. -/
theorem sum_set {bytes : List UInt8} {position : Nat} (inside : position < bytes.length)
    (byte : UInt8) :
    sum (bytes.set position byte) + bytes[position].toNat = sum bytes + byte.toNat := by
  have around (middle : UInt8) (front back : List UInt8) :
      sum (front ++ middle :: back) = sum front + middle.toNat + sum back := by
    have single : sum [middle] = middle.toNat := by simp [sum]
    rw [← List.singleton_append, ← List.append_assoc, sum_append, sum_append, single]
  have before : sum bytes =
      sum (bytes.take position) + bytes[position].toNat + sum (bytes.drop (position + 1)) := by
    rw [← around, List.getElem_cons_drop, List.take_append_drop]
  rw [List.set_eq_take_append_cons_drop, if_pos inside, around, before]
  omega

/-! ## Checksums of a block -/

/-- The two checksums of a block leave the same remainder by 256. -/
theorem checksumSigned_modEq (block : List UInt8) :
    checksumSigned block ≡ checksum block [ZMOD 256] := by
  rw [checksumSigned, checksum, Nat.cast_add, Nat.cast_add]
  exact ((signedSum_modEq _).add rfl).add (signedSum_modEq _)

/-- Whichever of the two a recorded checksum is, it leaves the remainder of both. -/
theorem Vouches.modEq {stored : Nat} {block : List UInt8} (vouches : Vouches stored block) :
    stored ≡ checksum block [ZMOD 256] := by
  rcases vouches with unsigned | signed
  · rw [unsigned]
  · rw [signed]
    exact checksumSigned_modEq block

section Set

variable {block : List UInt8} {position : Nat}

/-- A byte outside of the checksum field takes the place of another in the checksum. -/
theorem checksum_set (inside : position < block.length) (outside : position < 148 ∨ 156 ≤ position)
    (byte : UInt8) :
    checksum (block.set position byte) + block[position].toNat =
      checksum block + byte.toNat := by
  rw [checksum, checksum]
  rcases outside with early | late
  · have within : position < (block.take 148).length := by
      rw [List.length_take]
      omega
    have changed := sum_set within byte
    rw [List.getElem_take] at changed
    rw [List.take_set, List.drop_set_of_lt (by omega)]
    omega
  · have within : position - 156 < (block.drop 156).length := by
      rw [List.length_drop]
      omega
    have changed := sum_set within byte
    have same : 156 + (position - 156) = position := by omega
    simp only [List.getElem_drop, same] at changed
    rw [List.take_set_of_le (by omega), List.drop_set, if_neg (by omega)]
    omega

/-- No checksum is one of a block and of that block with a summed byte changed. -/
theorem not_vouches_set {stored : Nat} (vouches : Vouches stored block)
    (inside : position < block.length) (outside : position < 148 ∨ 156 ≤ position) {byte : UInt8}
    (other : byte ≠ block[position]) : ¬ Vouches stored (block.set position byte) := by
  intro still
  have moved := checksum_set inside outside byte
  have same : checksum (block.set position byte) % 256 = checksum block % 256 := by
    exact_mod_cast still.modEq.symm.trans vouches.modEq
  have old := block[position].toNat_lt
  have new := byte.toNat_lt
  exact other (UInt8.toNat_inj.mp (by omega))

/-- A field is as it was when a byte outside of it is changed. -/
theorem field_set {offset width : Nat} (outside : position < offset ∨ offset + width ≤ position)
    (byte : UInt8) : field (block.set position byte) offset width = field block offset width := by
  rw [field, field, List.drop_set]
  split
  · rfl
  · rw [List.take_set_of_le (by omega)]

end Set

/-! ## Headers with one byte changed -/

/-- A block with the mark does not become all zeros by one byte. -/
theorem decode_set_ne_none {block : List UInt8} (mark : field block 257 5 = Utf8.encode "ustar")
    (position : Nat) (byte : UInt8) (offset : Nat) :
    decode (block.set position byte) offset ≠ .ok none := by
  intro ended
  have zeros := decode_eq_none_iff.mp ended
  obtain ⟨first, second⟩ := getElem?_of_mark mark
  by_cases struck : position = 257
  · have kept : (block.set position byte)[258]? = some 115 := by
      rw [List.getElem?_set_ne (by omega), second]
    exact absurd (zeros _ (List.mem_of_getElem? kept)) (by decide)
  · have kept : (block.set position byte)[257]? = some 117 := by
      rw [List.getElem?_set_ne struck, first]
    exact absurd (zeros _ (List.mem_of_getElem? kept)) (by decide)

/-- A block that is a header is none any more once a byte outside of its checksum is changed, and
once a byte of its checksum is changed it is the same header or none. It never becomes another
header, nor the end of an archive. -/
theorem changed_byte_noticed {block : List UInt8} {offset : Nat} {header : Header}
    (found : decode block offset = .ok (some header)) {position : Nat}
    (inside : position < block.length) {byte : UInt8} (other : byte ≠ block[position]) :
    let result := decode (block.set position byte) offset
    (position < 148 ∨ 156 ≤ position → ∃ fault, result = .error fault) ∧
      (148 ≤ position ∧ position < 156 →
        (∃ fault, result = .error fault) ∨ result = .ok (some header)) := by
  intro result
  obtain ⟨mark, ⟨stored, recorded, vouches⟩, sized, spelled⟩ := decode_eq_some_iff.mp found
  rcases decoded : result with fault | none | changed
  · exact ⟨fun _ => ⟨fault, rfl⟩, fun _ => .inl ⟨fault, rfl⟩⟩
  · exact absurd decoded (decode_set_ne_none mark position byte offset)
  · obtain ⟨-, ⟨restored, rerecorded, revouches⟩, resized, respelled⟩ :=
      decode_eq_some_iff.mp decoded
    constructor
    · -- The recorded checksum is the one there was, and it does not fit the changed bytes.
      intro outside
      rw [field_set (by omega), recorded] at rerecorded
      obtain rfl := Option.some.inj rerecorded
      exact absurd revouches (not_vouches_set vouches inside outside other)
    · -- The fields that are read are those that there were.
      intro within
      rw [field_set (by omega), sized] at resized
      rw [field_set (by omega), field_set (by omega), spelled] at respelled
      have same : header = changed := by
        obtain ⟨path, size⟩ := header
        obtain ⟨changed_path, changed_size⟩ := changed
        rw [Header.mk.injEq]
        exact ⟨String.toList_inj.mp respelled, Option.some.inj resized⟩
      exact .inr (same ▸ rfl)

/-- A block whose path has bytes that count as negative where they are signed, and which records the
signed checksum. Without the high bit of the first of them it is no header; without the space that
ends its checksum it may only be the same one. -/
theorem changed_byte_noticed_signed :
    let front := fieldsBefore [195, 169] 5 0
    let back := fieldsAfter []
    let block := front ++ (octalDigits 6 (sum front + blankSum + sum back - 512) ++ [0, 32]) ++ back
    decode block 0 = .ok (some ⟨"\u00e9", 5⟩) ∧
      (∃ fault, decode (block.set 0 67) 0 = .error fault) ∧
      ((∃ fault, decode (block.set 155 0) 0 = .error fault) ∨
        decode (block.set 155 0) 0 = .ok (some ⟨"\u00e9", 5⟩)) := by
  intro front back block
  have found : decode block 0 = .ok (some ⟨"\u00e9", 5⟩) := by decide +kernel
  have summed := @changed_byte_noticed block 0 _ found 0 (by decide +kernel) 67 (by decide +kernel)
  have apart := @changed_byte_noticed block 0 _ found 155 (by decide +kernel) 0 (by decide +kernel)
  exact ⟨found, summed.1 (.inl (by decide)), apart.2 (by decide)⟩

end Trajectory.Tar.Header
