import Trajectory.Bytes.Basic
/-!
# LZ4 blocks

A block is a run of sequences. A sequence is a token, a literal run copied from the block, and,
unless the block ends there, a match copied from the output, a given distance back. A length of
fifteen in the token is continued by further bytes up to one below 255. The copy of a match may
run into the bytes that it writes. Decoding has room for a number of bytes and reports the first
fault; storing writes one literal run, which every decoder reads.
-/
namespace Trajectory.Lz4

/-- Why a block does not decode. -/
inductive Error where
  /-- The block ends inside a sequence. -/
  | inputEnds
  /-- A literal run is longer than the rest of the block. -/
  | literalOutOfBounds
  /-- A match is no distance back. -/
  | zeroOffset
  /-- A match starts before the output. -/
  | offsetOutOfBounds
  /-- There is less room than the output takes. -/
  | outputTooSmall (room needed : Nat)
  deriving DecidableEq, Repr

/-- The text of the fault. -/
def Error.message : Error → String
  | inputEnds => "expected another byte, found none"
  | literalOutOfBounds => "literal is out of bounds of the input"
  | zeroOffset => "0 is not a valid match offset"
  | offsetOutOfBounds => "the offset to copy is not contained in the decompressed buffer"
  | outputTooSmall room needed =>
    s!"provided output is too small for the decompressed data, actual {room}, expected {needed}"

/-- The rest of a length, with the bytes after it. -/
def extension? (total : Nat) : List UInt8 → Option (Nat × List UInt8)
  | [] => none
  | byte :: rest =>
    if byte = 255 then extension? (total + 255) rest else some (total + byte.toNat, rest)

/-- A length whose first four bits are in the token, with the bytes after it. -/
def length? (nibble : Nat) (bytes : List UInt8) : Option (Nat × List UInt8) :=
  if nibble = 15 then extension? 15 bytes else some (nibble, bytes)

/-- What is left after the literal run of a sequence. -/
structure Literal where
  /-- The bytes of the block after the run. -/
  rest : List UInt8
  /-- The output, last byte first. -/
  output : List UInt8
  /-- Length of the output. -/
  written : Nat

/-- The literal run of a sequence. -/
def literal (room token : Nat) (bytes output : List UInt8) (written : Nat) : Except Error Literal :=
  match length? (token / 16) bytes with
  | none => .error .inputEnds
  | some (length, rest) =>
    let run := rest.take length
    if run.length < length then .error .literalOutOfBounds
    else if room < written + length then .error (.outputTooSmall room (written + length))
    else .ok ⟨rest.drop length, run.reverse ++ output, written + length⟩

/-- The match of a sequence, from the distance on: the bytes after it, the output and its
length. -/
def backReference (room token : Nat) (low high : UInt8) (bytes output : List UInt8)
    (written : Nat) : Except Error Literal :=
  let distance := low.toNat + 256 * high.toNat
  if distance = 0 then .error .zeroOffset
  else
    match length? (token % 16) bytes with
    | none => .error .inputEnds
    | some (length, rest) =>
      if room < written + (length + 4) then .error (.outputTooSmall room (written + (length + 4)))
      else if written < distance then .error .offsetOutOfBounds
      else .ok ⟨rest, Bytes.copyBack distance (length + 4) output, written + (length + 4)⟩

/-- Decode the sequences of a block, at most as many as its bytes. -/
def sequences (room : Nat) : Nat → List UInt8 → List UInt8 → Nat → Except Error (List UInt8)
  | 0, _, _, _ => .error .inputEnds
  | _ + 1, [], _, _ => .error .inputEnds
  | steps + 1, token :: bytes, output, written =>
    match literal room token.toNat bytes output written with
    | .error fault => .error fault
    | .ok ⟨[], output, _⟩ => .ok output.reverse
    | .ok ⟨[_], _, _⟩ => .error .inputEnds
    | .ok ⟨low :: high :: rest, output, written⟩ =>
      match backReference room token.toNat low high rest output written with
      | .error fault => .error fault
      | .ok ⟨rest, output, written⟩ => sequences room steps rest output written

/-- Decode a block into at most `room` bytes. -/
def decode (room : Nat) (block : List UInt8) : Except Error (List UInt8) :=
  sequences room (block.length + 1) block [] 0

/-- The bytes that continue a length past fifteen. -/
def extensionBytes (length : Nat) : List UInt8 :=
  List.replicate (length / 255) 255 ++ [UInt8.ofNat (length % 255)]

/-- A block whose only sequence is a literal run. -/
def store (contents : List UInt8) : List UInt8 :=
  if contents.length < 15 then UInt8.ofNat (16 * contents.length) :: contents
  else 240 :: extensionBytes (contents.length - 15) ++ contents

/-- A length that is continued is read back. -/
theorem extension?_replicate (total count : Nat) {byte : UInt8} (last : byte ≠ 255)
    (rest : List UInt8) :
    extension? total (List.replicate count 255 ++ byte :: rest) =
      some (total + 255 * count + byte.toNat, rest) := by
  induction count generalizing total with
  | zero => simp [extension?, last]
  | succ count ih =>
    rw [List.replicate_succ, List.cons_append, extension?, if_pos rfl, ih]
    congr 2
    omega

/-- The length of a stored literal run is read back from its token. -/
theorem literal_store {contents : List UInt8} {room : Nat} (fits : contents.length ≤ room) :
    ∃ token bytes, store contents = token :: bytes ∧
      literal room token.toNat bytes [] 0 = .ok ⟨[], contents.reverse, contents.length⟩ := by
  have run {bytes : List UInt8} {token : Nat}
      (length : length? (token / 16) bytes = some (contents.length, contents)) :
      literal room token bytes [] 0 = .ok ⟨[], contents.reverse, contents.length⟩ := by
    unfold literal
    rw [length]
    simp [fits]
  unfold store
  split
  · next short =>
    refine ⟨_, _, rfl, run ?_⟩
    have token : (UInt8.ofNat (16 * contents.length)).toNat / 16 = contents.length := by
      rw [UInt8.toNat_ofNat']
      omega
    rw [token, length?, if_neg (by omega)]
  · next long =>
    refine ⟨240, extensionBytes (contents.length - 15) ++ contents, rfl, run ?_⟩
    have small : (contents.length - 15) % 255 < 255 := Nat.mod_lt _ (by decide)
    have value : (UInt8.ofNat ((contents.length - 15) % 255)).toNat =
        (contents.length - 15) % 255 := by
      rw [UInt8.toNat_ofNat']
      omega
    have last : UInt8.ofNat ((contents.length - 15) % 255) ≠ 255 := by
      intro same
      rw [same] at value
      have full : (255 : UInt8).toNat = 255 := rfl
      omega
    have token : (240 : UInt8).toNat / 16 = 15 := by decide
    rw [token, length?, if_pos rfl, extensionBytes, List.append_assoc, List.singleton_append,
      extension?_replicate 15 _ last, value]
    congr 2
    omega

/-- A stored block decodes wherever there is room. -/
theorem decode_store {contents : List UInt8} {room : Nat} (fits : contents.length ≤ room) :
    decode room (store contents) = .ok contents := by
  obtain ⟨token, bytes, stored, run⟩ := literal_store fits
  rw [decode, stored, List.length_cons, sequences, run]
  simp

/-- A way to compress, whose blocks decode to what they were made from wherever there is room. It
makes a block of any bytes; where there is a limit, as the `0x7E000000` bytes that high compression
takes at a time, the bytes are to be within it. -/
structure Compressor where
  /-- The block of some bytes. -/
  compress : List UInt8 → List UInt8
  /-- The block decodes. -/
  decode_compress : ∀ {room : Nat} {contents : List UInt8},
    contents.length ≤ room → decode room (compress contents) = .ok contents

/-- The way to compress that stores literal runs. -/
def Compressor.literal : Compressor := ⟨store, decode_store⟩

end Trajectory.Lz4
