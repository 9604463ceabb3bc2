/-!
# UTF-8

A text is stored as the UTF-8 bytes of its characters. Bytes that need not be UTF-8 are decoded
by replacement: each longest start of a character that is never completed, or a byte that starts
none, becomes one U+FFFD.
-/
namespace Trajectory.Utf8

/-- The stored bytes of a text. -/
def encode (text : String) : List UInt8 := text.toList.flatMap String.utf8EncodeChar

/-- The character at the front of a run of bytes. -/
def front? (bytes : List UInt8) : Option Char :=
  (ByteArray.mk (bytes.take 4).toArray).utf8DecodeChar? 0

/-- A byte from `low` to `high`. -/
def within (low high byte : UInt8) : Bool := low ≤ byte && byte ≤ high

/-- How many bytes after `first` still belong to the character that it starts, when that
character is never completed. The second byte has to be in the range that `first` allows; the
third and a fourth need only continue. -/
def fragment (first : UInt8) (rest : List UInt8) : Nat :=
  match rest with
  | [] => 0
  | second :: more =>
    let three :=
      first = 0xE0 && within 0xA0 0xBF second || within 0xE1 0xEC first && within 0x80 0xBF second
        || first = 0xED && within 0x80 0x9F second
        || within 0xEE 0xEF first && within 0x80 0xBF second
    let four :=
      first = 0xF0 && within 0x90 0xBF second || within 0xF1 0xF3 first && within 0x80 0xBF second
        || first = 0xF4 && within 0x80 0x8F second
    if three then 1
    else if four then
      match more with
      | third :: _ => if within 0x80 0xBF third then 2 else 1
      | [] => 1
    else 0

/-- Decode, with U+FFFD for what is not UTF-8. -/
def decodeLossy (bytes : List UInt8) : List Char :=
  match bytes with
  | [] => []
  | first :: rest =>
    match front? (first :: rest) with
    | some c => c :: decodeLossy (rest.drop (c.utf8Size - 1))
    | none => Char.ofNat 0xFFFD :: decodeLossy (rest.drop (fragment first rest))
termination_by bytes.length
decreasing_by all_goals simp only [List.length_drop, List.length_cons]; omega

/-- Decode bytes that are UTF-8 throughout. -/
def decode? (bytes : List UInt8) : Option String := String.fromUTF8? (ByteArray.mk bytes.toArray)

/-- An array of the bytes of a list holds those bytes. -/
theorem mk_toArray (bytes : List UInt8) : ByteArray.mk bytes.toArray = bytes.toByteArray := by
  apply ByteArray.ext
  simp

/-- The character at the front of an encoding is the one that was encoded. -/
theorem front?_append (c : Char) (rest : List UInt8) :
    front? (String.utf8EncodeChar c ++ rest) = some c := by
  have short : (String.utf8EncodeChar c).length ≤ 4 := by
    rw [String.length_utf8EncodeChar]
    exact c.utf8Size_le_four
  rw [front?, List.take_append, List.take_of_length_le short, mk_toArray, List.toByteArray_append]
  exact ByteArray.utf8DecodeChar?_utf8EncodeChar_append

/-- Decoding an encoding gives the characters back. -/
theorem decodeLossy_append (chars : List Char) (rest : List UInt8) :
    decodeLossy (chars.flatMap String.utf8EncodeChar ++ rest) = chars ++ decodeLossy rest := by
  induction chars with
  | nil => simp
  | cons c later ih =>
    rw [List.flatMap_cons, List.append_assoc]
    cases bytes : String.utf8EncodeChar c with
    | nil => exact absurd bytes String.utf8EncodeChar_ne_nil
    | cons first others =>
      have front := front?_append c (later.flatMap String.utf8EncodeChar ++ rest)
      have size : others.length = c.utf8Size - 1 := by
        have length := String.length_utf8EncodeChar c
        rw [bytes, List.length_cons] at length
        omega
      rw [bytes] at front
      simp only [List.cons_append] at front ⊢
      rw [decodeLossy, front]
      simp only [← size, List.drop_left', ih]

/-- A character below 128 is one byte, its own number. -/
theorem encodeChar_of_lt {c : Char} (ascii : c.toNat < 128) :
    String.utf8EncodeChar c = [UInt8.ofNat c.toNat] := by
  have narrow : c.toNat ≤ 127 := by omega
  simp [String.utf8EncodeChar, narrow]

/-- The encoding of characters below 128 is one byte for each. -/
theorem flatMap_encodeChar_of_lt {chars : List Char} (ascii : ∀ c ∈ chars, c.toNat < 128) :
    chars.flatMap String.utf8EncodeChar = chars.map fun c => UInt8.ofNat c.toNat := by
  induction chars with
  | nil => rfl
  | cons c later ih =>
    rw [List.flatMap_cons, encodeChar_of_lt (ascii c (List.mem_cons_self ..)),
      ih fun other found => ascii other (List.mem_cons_of_mem _ found)]
    rfl

end Trajectory.Utf8
