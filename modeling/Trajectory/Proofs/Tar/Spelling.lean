import Trajectory.Proofs.Tar.Header
import Trajectory.Proofs.Text.Utf8
/-!
# Paths that a header spells

A header spells a path in two fields, each of which ends at its first NUL and is decoded by
itself. So it spells the path that it was built for exactly if the path has no NUL and, where it
takes both fields, no character of it lies across them.
-/
namespace Trajectory.Tar.Header

/-- A path fits into the name field, or the characters at its end fill it. -/
def Parted (path : String) : Prop :=
  (Utf8.encode path).length < nameWidth ∨
    ∃ lead name, path.toList = lead ++ name ∧
      (name.flatMap String.utf8EncodeChar).length = nameWidth

/-- A path that a header can spell: no NUL ends it early, and no character is cut. -/
structure Faithful (path : String) : Prop where
  /-- There is no NUL in it. -/
  nul_not_mem : Char.ofNat 0 ∉ path.toList
  /-- The name starts where a character does. -/
  parted : Parted path

/-- A text without NUL has no zero in its bytes. -/
theorem zero_not_mem_encode {chars : List Char} (whole : Char.ofNat 0 ∉ chars) :
    0 ∉ chars.flatMap String.utf8EncodeChar := by
  intro zero
  obtain ⟨c, member, found⟩ := List.mem_flatMap.mp zero
  exact whole (Utf8.zero_mem_encodeChar_iff.mp found ▸ member)

/-- A field without zeros is decoded as a whole. -/
theorem fieldText_of_zero_not_mem {bytes : List UInt8} (whole : 0 ∉ bytes) :
    fieldText bytes = Utf8.decodeLossy bytes := by
  have all : ∀ byte ∈ bytes, decide (byte ≠ 0) = true :=
    fun byte member => decide_eq_true fun zero => whole (zero ▸ member)
  have taken := @List.takeWhile_append_of_pos _ _ _ [] all
  rw [List.takeWhile_nil, List.append_nil] at taken
  rw [fieldText, taken]

/-- A field that holds a text without NUL reads as the text. -/
theorem fieldText_encode {chars : List Char} (whole : Char.ofNat 0 ∉ chars) :
    fieldText (chars.flatMap String.utf8EncodeChar) = chars := by
  rw [fieldText_of_zero_not_mem (zero_not_mem_encode whole), Utf8.decodeLossy_flatMap]

/-- No field reads as a text with NUL. -/
theorem nul_not_mem_fieldText (bytes : List UInt8) : Char.ofNat 0 ∉ fieldText bytes := by
  apply Utf8.nul_not_mem_decodeLossy
  intro zero
  simpa using List.all_eq_true.mp List.all_takeWhile 0 zero

/-- What a header spells. -/
theorem toList_restored (path : String) :
    (restored path).toList =
      fieldText (splitPath (Utf8.encode path)).1 ++ fieldText (splitPath (Utf8.encode path)).2 := by
  rw [restored, String.toList_ofList]

/-- A path that a header can spell is spelled as it is. -/
theorem restored_of_faithful {path : String} (faithful : Faithful path) : restored path = path := by
  apply String.toList_injective
  rw [toList_restored]
  rcases faithful.parted with short | ⟨lead, name, parts, fills⟩
  · rw [splitPath, if_pos short, Utf8.encode, fieldText_encode faithful.nul_not_mem]
    simp [fieldText, Utf8.decodeLossy]
  · have whole := faithful.nul_not_mem
    rw [parts, List.mem_append, not_or] at whole
    have bytes : Utf8.encode path =
        lead.flatMap String.utf8EncodeChar ++ name.flatMap String.utf8EncodeChar := by
      rw [Utf8.encode, parts, List.flatMap_append]
    have length : (Utf8.encode path).length - nameWidth =
        (lead.flatMap String.utf8EncodeChar).length := by
      rw [bytes, List.length_append, fills, Nat.add_sub_cancel]
    have long : ¬ (Utf8.encode path).length < nameWidth := by
      rw [bytes, List.length_append, fills]
      omega
    rw [splitPath, if_neg long, length, bytes, List.splitAt_eq, List.take_left, List.drop_left,
      fieldText_encode whole.1, fieldText_encode whole.2, parts]

/-- A header spells the path that it was built for exactly if it can spell it. -/
theorem restored_eq_iff {path : String} : restored path = path ↔ Faithful path := by
  refine ⟨fun same => ?_, restored_of_faithful⟩
  have spelled := toList_restored path
  rw [same] at spelled
  have whole : Char.ofNat 0 ∉ path.toList := by
    rw [spelled, List.mem_append, not_or]
    exact ⟨nul_not_mem_fieldText _, nul_not_mem_fieldText _⟩
  refine ⟨whole, ?_⟩
  by_cases short : (Utf8.encode path).length < nameWidth
  · exact .inl short
  have zeros : 0 ∉ Utf8.encode path := zero_not_mem_encode whole
  rw [splitPath, if_neg short, List.splitAt_eq] at spelled
  dsimp only at spelled
  rw [fieldText_of_zero_not_mem fun zero => zeros (List.mem_of_mem_take zero),
    fieldText_of_zero_not_mem fun zero => zeros (List.mem_of_mem_drop zero)] at spelled
  rcases Utf8.cut_cases path.toList (Nat.sub_le (Utf8.encode path).length nameWidth) with
    ⟨lead, name, parts, size⟩ | ⟨front, c, back, parts, above, below⟩
  · refine .inr ⟨lead, name, parts, ?_⟩
    have total : (Utf8.encode path).length = (lead.flatMap String.utf8EncodeChar).length +
        (name.flatMap String.utf8EncodeChar).length := by
      rw [Utf8.encode, parts, List.flatMap_append, List.length_append]
    omega
  · have longer := Utf8.length_decodeLossy_of_cut above below back
    dsimp only at longer
    rw [← parts] at longer
    exact absurd (congrArg List.length spelled) (Nat.ne_of_lt longer)

/-- A header can spell a path that is short, or of which the last 100 bytes are text, if it has no
NUL. -/
theorem faithful_iff {path : String} :
    Faithful path ↔ Char.ofNat 0 ∉ path.toList ∧ ((Utf8.encode path).length < 100 ∨
      ∃ lead name : String, path = lead ++ name ∧ (Utf8.encode name).length = 100) := by
  have parted : Parted path ↔ (Utf8.encode path).length < 100 ∨
      ∃ lead name : String, path = lead ++ name ∧ (Utf8.encode name).length = 100 := by
    refine or_congr Iff.rfl ⟨?_, ?_⟩
    · rintro ⟨lead, name, parts, fills⟩
      refine ⟨String.ofList lead, String.ofList name, ?_, ?_⟩
      · rw [← String.ofList_append, ← parts, String.ofList_toList]
      · rw [Utf8.encode, String.toList_ofList, fills]
        rfl
    · rintro ⟨lead, name, rfl, fills⟩
      exact ⟨lead.toList, name.toList, String.toList_append, fills⟩
  rw [← parted]
  exact ⟨fun faithful => ⟨faithful.1, faithful.2⟩, fun ⟨whole, spaced⟩ => ⟨whole, spaced⟩⟩

/-- A plain path can be spelled: each of its characters takes one byte. -/
theorem faithful_of_plain {path : String} (plain : Plain path) : Faithful path := by
  have size {chars : List Char} (all : ∀ c ∈ chars, c ∈ path.toList) :
      (chars.flatMap String.utf8EncodeChar).length = chars.length := by
    rw [Utf8.flatMap_encodeChar_of_lt fun c member => (plain c (all c member)).2, List.length_map]
  constructor
  · intro nul
    exact absurd (plain _ nul).1 (by decide)
  · by_cases short : (Utf8.encode path).length < nameWidth
    · exact .inl short
    · have long : nameWidth ≤ path.toList.length := by
        rw [← size fun _ => id]
        exact Nat.not_lt.mp short
      refine .inr ⟨_, _, (List.take_append_drop (path.toList.length - nameWidth) _).symm, ?_⟩
      rw [size fun _ => List.mem_of_mem_drop, List.length_drop]
      omega

/-- What becomes of a path, a size and a time in a header. A path of more than 254 bytes is refused,
then a size that does not fit. Anything else makes a block, which is read as the size it was made
for and as a path: the one it was made for exactly if that has no NUL and is shorter than 100 bytes
or starts a character 100 bytes before its end. -/
theorem encode_then_decode (path : String) (size time offset : Nat) :
    let length := (Utf8.encode path).length
    if 254 < length then encode path size time = .error (.pathTooLong length)
    else if 2 ^ 33 ≤ size then encode path size time = .error (.sizeTooLarge size)
    else
      ∃ block header, encode path size time = .ok block ∧ block.length = 512 ∧
        decode block offset = .ok (some header) ∧ header.size = size ∧
        (header.path = path ↔ Char.ofNat 0 ∉ path.toList ∧ (length < 100 ∨
          ∃ lead name : String, path = lead ++ name ∧ (Utf8.encode name).length = 100)) := by
  intro length
  split
  · next long => exact encode_of_long long size time
  · next short =>
    have fits := Nat.not_lt.mp short
    split
    · next large => exact encode_of_large fits large time
    · next small =>
      obtain ⟨block, encoded⟩ := encode_ok_iff.mpr ⟨fits, Nat.not_le.mp small⟩
      exact ⟨block, ⟨restored path, size⟩, encoded, length_encode encoded,
        decode_encode encoded offset, rfl, restored_eq_iff.trans faithful_iff⟩

end Trajectory.Tar.Header
