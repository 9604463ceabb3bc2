import Trajectory.Text.Utf8
/-!
# Parts of encoded texts

Bytes that begin with the encoding of a character are decoded to that character and the rest. A
byte from the inside of a character begins none, so where a text is cut inside a character, each
of the two parts decodes what it has of it by itself, to one U+FFFD at least. Only a zero is
decoded to NUL, and only NUL has one in its encoding.
-/
namespace Trajectory.Utf8

/-- The character at the front is the one whose encoding is there. -/
theorem front?_eq_some_iff {bytes : List UInt8} {c : Char} :
    front? bytes = some c ↔ ∃ rest, bytes = String.utf8EncodeChar c ++ rest := by
  constructor
  · intro found
    rw [front?, mk_toArray] at found
    have parted := ByteArray.eq_of_utf8DecodeChar?_eq_some found
    have start := congrArg (·.data.toList) parted
    simp only [List.data_toByteArray, ByteArray.data_append, Array.toList_append] at start
    rw [← List.take_append_drop 4 bytes, start, List.append_assoc]
    exact ⟨_, rfl⟩
  · rintro ⟨rest, rfl⟩
    exact front?_append c rest

/-- The encoding of a text is decoded to it. -/
theorem decodeLossy_flatMap (chars : List Char) :
    decodeLossy (chars.flatMap String.utf8EncodeChar) = chars := by
  have text := decodeLossy_append chars []
  rwa [List.append_nil, show decodeLossy [] = [] by rw [decodeLossy], List.append_nil] at text

section Encoding

variable {c : Char} {byte : UInt8} {rest : List UInt8}

/-- The first byte of a character is one that begins characters. -/
theorem isUTF8FirstByte_of_cons (encoded : String.utf8EncodeChar c = byte :: rest) :
    byte.IsUTF8FirstByte := by
  have first := @UInt8.isUTF8FirstByte_getElem_zero_utf8EncodeChar c
  simpa only [encoded, List.getElem_cons_zero] using first

/-- The later bytes of a character begin none. -/
theorem inner_of_cons (encoded : String.utf8EncodeChar c = byte :: rest) :
    ∀ other ∈ rest, ¬ other.IsUTF8FirstByte := by
  intro other member
  obtain ⟨index, inside, rfl⟩ := List.mem_iff_getElem.mp member
  have there : index + 1 < (String.utf8EncodeChar c).length := by simpa [encoded] using inside
  have inner := mt (@UInt8.isUTF8FirstByte_getElem_utf8EncodeChar c (index + 1) there).mp
    (Nat.succ_ne_zero index)
  simpa only [encoded, List.getElem_cons_succ] using inner

/-- Only NUL has a zero in its encoding. -/
theorem zero_mem_encodeChar_iff : 0 ∈ String.utf8EncodeChar c ↔ c = Char.ofNat 0 := by
  constructor
  · intro member
    cases encoded : String.utf8EncodeChar c with
    | nil => exact absurd encoded String.utf8EncodeChar_ne_nil
    | cons first later =>
      rw [encoded] at member
      have begins : (0 : UInt8).IsUTF8FirstByte := by decide
      have same : 0 = first := by
        cases List.mem_cons.mp member with
        | inl same => exact same
        | inr inside => exact absurd begins (inner_of_cons encoded 0 inside)
      have nul : String.utf8EncodeChar c = String.utf8EncodeChar (Char.ofNat 0) ++ later := by
        rw [encoded, ← same]
        rfl
      have front := front?_append (Char.ofNat 0) later
      rw [← nul, ← List.append_nil (String.utf8EncodeChar c), front?_append] at front
      exact Option.some.inj front
  · rintro rfl
    decide

/-- A byte from the inside of a character is the start of no fragment. -/
theorem fragment_of_inner (inner : ¬ byte.IsUTF8FirstByte) : fragment byte rest = 0 := by
  -- Every byte that `fragment` looks for begins characters.
  have every : ∀ number < 256, ¬ (UInt8.ofNat number).IsUTF8FirstByte →
      UInt8.ofNat number ≠ 0xE0 ∧ UInt8.ofNat number ≠ 0xED ∧ UInt8.ofNat number ≠ 0xF0 ∧
        UInt8.ofNat number ≠ 0xF4 ∧ within 0xE1 0xEC (UInt8.ofNat number) = false ∧
        within 0xEE 0xEF (UInt8.ofNat number) = false ∧
        within 0xF1 0xF3 (UInt8.ofNat number) = false := by
    decide +kernel
  have others := every byte.toNat byte.toNat_lt
  rw [UInt8.ofNat_toNat] at others
  obtain ⟨e0, ed, f0, f4, threes, late_threes, fours⟩ := others inner
  cases rest with
  | nil => rfl
  | cons second more => simp [fragment, e0, ed, f0, f4, threes, late_threes, fours]

/-- A byte from the inside of a character is decoded by itself. -/
theorem decodeLossy_of_inner (inner : ¬ byte.IsUTF8FirstByte) :
    decodeLossy (byte :: rest) = Char.ofNat 0xFFFD :: decodeLossy rest := by
  have none : front? (byte :: rest) = none := by
    cases found : front? (byte :: rest) with
    | none => rfl
    | some c =>
      obtain ⟨more, listed⟩ := front?_eq_some_iff.mp found
      cases encoded : String.utf8EncodeChar c with
      | nil => exact absurd encoded String.utf8EncodeChar_ne_nil
      | cons first later =>
        rw [encoded, List.cons_append] at listed
        exact absurd ((List.cons.inj listed).1 ▸ isUTF8FirstByte_of_cons encoded) inner
  rw [decodeLossy, none, fragment_of_inner inner]
  rfl

end Encoding

/-- Bytes from the inside of a character are decoded one by one. -/
theorem decodeLossy_append_of_inner {part : List UInt8}
    (inner : ∀ byte ∈ part, ¬ byte.IsUTF8FirstByte) (rest : List UInt8) :
    decodeLossy (part ++ rest) =
      List.replicate part.length (Char.ofNat 0xFFFD) ++ decodeLossy rest := by
  induction part with
  | nil => rfl
  | cons byte later ih =>
    have first := inner byte List.mem_cons_self
    have others : ∀ other ∈ later, ¬ other.IsUTF8FirstByte :=
      fun other member => inner other (List.mem_cons_of_mem _ member)
    rw [List.cons_append, decodeLossy_of_inner first, ih others]
    rfl

/-- Any bytes at all are decoded to some character. -/
theorem decodeLossy_ne_nil {bytes : List UInt8} (some_byte : bytes ≠ []) :
    decodeLossy bytes ≠ [] := by
  cases bytes with
  | nil => contradiction
  | cons first rest =>
    rw [decodeLossy]
    split <;> exact List.cons_ne_nil _ _

/-- Bytes without a zero are decoded to characters without NUL. -/
theorem nul_not_mem_decodeLossy {bytes : List UInt8} (none : 0 ∉ bytes) :
    Char.ofNat 0 ∉ decodeLossy bytes := by
  fun_induction decodeLossy bytes with
  | case1 => exact List.not_mem_nil
  | case2 first rest c found ih =>
    obtain ⟨more, listed⟩ := front?_eq_some_iff.mp found
    have other : c ≠ Char.ofNat 0 := by
      intro nul
      have zero : 0 ∈ String.utf8EncodeChar c := zero_mem_encodeChar_iff.mpr nul
      exact none (listed ▸ List.mem_append_left _ zero)
    have later : 0 ∉ rest.drop (c.utf8Size - 1) :=
      fun zero => none (List.mem_cons_of_mem _ (List.mem_of_mem_drop zero))
    exact List.not_mem_cons_of_ne_of_not_mem other.symm (ih later)
  | case3 first rest found ih =>
    have other : Char.ofNat 0 ≠ Char.ofNat 0xFFFD := by decide
    have later : 0 ∉ rest.drop (fragment first rest) :=
      fun zero => none (List.mem_cons_of_mem _ (List.mem_of_mem_drop zero))
    exact List.not_mem_cons_of_ne_of_not_mem other (ih later)

/-- A place among the bytes of a text is between two characters or inside one. -/
theorem cut_cases (chars : List Char) {place : Nat}
    (within : place ≤ (chars.flatMap String.utf8EncodeChar).length) :
    (∃ front back, chars = front ++ back ∧
      (front.flatMap String.utf8EncodeChar).length = place) ∨
    ∃ front c back, chars = front ++ c :: back ∧
      (front.flatMap String.utf8EncodeChar).length < place ∧
      place < (front.flatMap String.utf8EncodeChar).length + c.utf8Size := by
  induction chars generalizing place with
  | nil => exact .inl ⟨[], [], rfl, (Nat.le_zero.mp within).symm⟩
  | cons first later ih =>
    rw [List.flatMap_cons, List.length_append, String.length_utf8EncodeChar] at within
    have longer (front : List Char) : ((first :: front).flatMap String.utf8EncodeChar).length =
        first.utf8Size + (front.flatMap String.utf8EncodeChar).length := by
      rw [List.flatMap_cons, List.length_append, String.length_utf8EncodeChar]
    by_cases start : place = 0
    · exact .inl ⟨[], first :: later, rfl, start.symm⟩
    · by_cases inside : place < first.utf8Size
      · refine .inr ⟨[], first, later, rfl, ?_, ?_⟩
        · exact Nat.pos_of_ne_zero start
        · rwa [List.flatMap_nil, List.length_nil, Nat.zero_add]
      · have further : place - first.utf8Size ≤
            (later.flatMap String.utf8EncodeChar).length := by omega
        rcases ih further with ⟨front, back, parts, size⟩ | ⟨front, c, back, parts, above, below⟩
        · refine .inl ⟨first :: front, back, by rw [parts, List.cons_append], ?_⟩
          rw [longer]
          omega
        · refine .inr ⟨first :: front, c, back, by rw [parts, List.cons_append], ?_, ?_⟩
          · rw [longer]
            omega
          · rw [longer]
            omega

/-- A text that is cut inside a character is decoded, part by part, to more characters than it
has. -/
theorem length_decodeLossy_of_cut {front : List Char} {c : Char} {place : Nat}
    (above : (front.flatMap String.utf8EncodeChar).length < place)
    (below : place < (front.flatMap String.utf8EncodeChar).length + c.utf8Size)
    (back : List Char) :
    let bytes := (front ++ c :: back).flatMap String.utf8EncodeChar
    (front ++ c :: back).length <
      (decodeLossy (bytes.take place) ++ decodeLossy (bytes.drop place)).length := by
  intro bytes
  obtain ⟨inside, rfl⟩ : ∃ inside,
      place = (front.flatMap String.utf8EncodeChar).length + inside :=
    ⟨place - (front.flatMap String.utf8EncodeChar).length, by omega⟩
  have size := String.length_utf8EncodeChar c
  have parts : bytes = front.flatMap String.utf8EncodeChar ++
      (String.utf8EncodeChar c ++ back.flatMap String.utf8EncodeChar) := by
    rw [← List.flatMap_cons, ← List.flatMap_append]
  have taken : bytes.take ((front.flatMap String.utf8EncodeChar).length + inside) =
      front.flatMap String.utf8EncodeChar ++ (String.utf8EncodeChar c).take inside := by
    rw [parts, List.take_length_add_append, List.take_append_of_le_length (by omega)]
  have dropped : bytes.drop ((front.flatMap String.utf8EncodeChar).length + inside) =
      (String.utf8EncodeChar c).drop inside ++ back.flatMap String.utf8EncodeChar := by
    rw [parts, List.drop_length_add_append, List.drop_append_of_le_length (by omega)]
  have inner : ∀ byte ∈ (String.utf8EncodeChar c).drop inside, ¬ byte.IsUTF8FirstByte := by
    intro byte member
    cases encoded : String.utf8EncodeChar c with
    | nil => exact absurd encoded String.utf8EncodeChar_ne_nil
    | cons first later =>
      obtain ⟨more, rfl⟩ : ∃ more, inside = more + 1 := ⟨inside - 1, by omega⟩
      rw [encoded, List.drop_succ_cons] at member
      exact inner_of_cons encoded byte (List.mem_of_mem_drop member)
  have some_byte : (String.utf8EncodeChar c).take inside ≠ [] := by
    intro none
    have length := congrArg List.length none
    rw [List.length_take, List.length_nil] at length
    omega
  have start := List.length_pos_iff.mpr (decodeLossy_ne_nil some_byte)
  rw [taken, dropped, decodeLossy_append, decodeLossy_append_of_inner inner, decodeLossy_flatMap]
  simp only [List.length_append, List.length_cons, List.length_replicate, List.length_drop]
  omega

end Trajectory.Utf8
