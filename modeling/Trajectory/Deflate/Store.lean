import Trajectory.Bytes.LittleEndian
import Trajectory.Deflate.Stream
/-!
# Storing in deflated streams

Contents can be deflated in many ways, with more or less effort, and all that matters is that the
stream inflates to them. The way given here is the plainest: blocks of bytes as they are, each as
long as its length of two bytes allows, and an empty one that is marked as the last.
-/
namespace Trajectory.Deflate

/-- Most bytes of a block of bytes as they are. -/
def blockLimit : Nat := 0xffff

/-- A block of bytes as they are, which starts and ends at a whole byte. -/
def storedBlock (last : Bool) (contents : List UInt8) : List UInt8 :=
  (if last then 1 else 0) :: (LittleEndian.encode 2 contents.length
    ++ LittleEndian.encode 2 (blockLimit - contents.length) ++ contents)

/-- The stream that stores contents as they are. -/
def store (contents : List UInt8) : List UInt8 :=
  (Bytes.chunks blockLimit contents).flatMap (storedBlock false) ++ storedBlock true []

/-- The bits of two runs of bytes. -/
theorem bits_append (first second : List UInt8) :
    bits (first ++ second) = bits first ++ bits second := List.flatMap_append

/-- Each byte has eight bits. -/
theorem length_bits (bytes : List UInt8) : (bits bytes).length = 8 * bytes.length := by
  induction bytes with
  | nil => rfl
  | cons byte rest ih =>
    rw [bits, List.flatMap_cons, List.length_append, List.length_map, List.length_range, ← bits,
      ih, List.length_cons]
    omega

/-- The low bits of a number are read as its remainder. -/
theorem number?_testBit (width value : Nat) (rest : List Bool) :
    number? width ((List.range width).map value.testBit ++ rest) =
      some (value % 1 <<< width, rest) := by
  rw [Nat.one_shiftLeft]
  induction width generalizing value with
  | zero => simp [number?, Nat.mod_one]
  | succ width ih =>
    have later : (List.range width).map (value.testBit ∘ Nat.succ) =
        (List.range width).map (value / 2).testBit := by
      apply List.map_congr_left
      intro index _
      exact Nat.testBit_succ ..
    rw [List.range_succ_eq_map, List.map_cons, List.map_map, later, List.cons_append, number?, ih]
    have low : (value.testBit 0).toNat = value % 2 := by
      rw [Nat.testBit_zero]
      rcases Nat.mod_two_eq_zero_or_one value with even | odd
      · simp [even]
      · simp [odd]
    simp only [Option.bind_eq_bind, Option.bind_some, low, Option.some.injEq, Prod.mk.injEq,
      and_true]
    rw [Nat.pow_succ', Nat.mod_mul]

/-- A number of more bits is read in two parts. -/
theorem number?_add {width more value added : Nat} {bits between rest : List Bool}
    (low : number? width bits = some (value, between))
    (high : number? more between = some (added, rest)) :
    number? (width + more) bits = some (value + added <<< width, rest) := by
  induction width generalizing value bits with
  | zero =>
    cases low
    simpa using high
  | succ width ih =>
    cases bits with
    | nil => contradiction
    | cons bit bits =>
      simp only [number?, Option.bind_eq_bind, Option.bind_eq_some_iff] at low
      obtain ⟨⟨inner, later⟩, read, same⟩ := low
      simp only [Option.some.injEq, Prod.mk.injEq] at same
      obtain ⟨rfl, rfl⟩ := same
      rw [Nat.add_right_comm, number?, ih read]
      simp only [Option.bind_eq_bind, Option.bind_some, Option.some.injEq, Prod.mk.injEq, and_true]
      rw [Nat.shiftLeft_succ, Nat.mul_add, Nat.add_assoc]

/-- A byte is read as its number. -/
theorem number?_byte (byte : UInt8) (rest : List UInt8) :
    number? 8 (bits (byte :: rest)) = some (byte.toNat, bits rest) := by
  have read := number?_testBit 8 byte.toNat (bits rest)
  rwa [Nat.one_shiftLeft, Nat.mod_eq_of_lt byte.toNat_lt] at read

/-- Whole bytes are read as the number whose digits they are. -/
theorem number?_decode (digits rest : List UInt8) :
    number? (8 * digits.length) (bits (digits ++ rest)) =
      some (LittleEndian.decode digits, bits rest) := by
  induction digits with
  | nil => rfl
  | cons digit digits ih =>
    rw [List.length_cons, Nat.mul_succ, Nat.add_comm, List.cons_append,
      number?_add (number?_byte digit (digits ++ rest)) ih, LittleEndian.decode,
      Nat.shiftLeft_eq, Nat.mul_comm]

/-- A number of two bytes is read back. -/
theorem number?_encode {value : Nat} (fits : value ≤ blockLimit) (rest : List UInt8) :
    number? 16 (bits (LittleEndian.encode 2 value ++ rest)) = some (value, bits rest) := by
  have same : LittleEndian.decode (LittleEndian.encode 2 value) = value := by
    simp only [LittleEndian.encode, LittleEndian.decode, UInt8.toNat_ofNat']
    unfold blockLimit at fits
    omega
  have read := number?_decode (LittleEndian.encode 2 value) rest
  rwa [LittleEndian.length_encode, same] at read

/-- The bytes of a block are put out in order. -/
theorem stored?_bytes (contents output rest : List UInt8) :
    stored?.bytes contents.length output (bits (contents ++ rest)) =
      some (contents.reverse ++ output, bits rest) := by
  induction contents generalizing output with
  | nil => rfl
  | cons byte later ih =>
    rw [List.length_cons, stored?.bytes, List.cons_append, number?_byte]
    dsimp only
    rw [UInt8.ofNat_toNat, ih, List.reverse_cons, List.append_assoc, List.singleton_append]

/-- A block of bytes as they are is read back, and what follows it is left alone. -/
theorem block?_storedBlock (last : Bool) {contents : List UInt8}
    (fits : contents.length ≤ blockLimit) (output rest : List UInt8) :
    block? output (bits (storedBlock last contents ++ rest)) =
      some (contents.reverse ++ output, last, bits rest) := by
  generalize told : LittleEndian.encode 2 contents.length
    ++ LittleEndian.encode 2 (blockLimit - contents.length) ++ contents ++ rest = body
  have split : bits (storedBlock last contents ++ rest) =
      last :: false :: false :: (List.replicate 5 false ++ bits body) := by
    rw [← told, storedBlock, List.cons_append]
    cases last <;> rfl
  have aligned : (List.replicate 5 false ++ bits body).drop
      ((List.replicate 5 false ++ bits body).length % 8) = bits body := by
    have length : (List.replicate 5 false ++ bits body).length % 8 = 5 := by
      rw [List.length_append, List.length_replicate, length_bits]
      omega
    rw [length]
    rfl
  have first : number? 16 (bits body) = some (contents.length,
      bits (LittleEndian.encode 2 (blockLimit - contents.length) ++ contents ++ rest)) := by
    rw [← told, List.append_assoc, List.append_assoc, ← List.append_assoc _ contents rest]
    exact number?_encode fits _
  have second : number? 16 (bits (LittleEndian.encode 2 (blockLimit - contents.length) ++ contents
      ++ rest)) = some (blockLimit - contents.length, bits (contents ++ rest)) := by
    rw [List.append_assoc]
    exact number?_encode (Nat.sub_le ..) _
  have whole : ¬ contents.length + (blockLimit - contents.length) ≠ 0xffff := by
    unfold blockLimit at fits ⊢
    omega
  have stored : stored? output (List.replicate 5 false ++ bits body) =
      some (contents.reverse ++ output, bits rest) := by
    simp only [stored?, aligned, first, second, Option.bind_eq_bind, Option.bind_some, if_neg whole,
      stored?_bytes]
  have head : number? 1 (last :: false :: false :: (List.replicate 5 false ++ bits body)) =
      some (last.toNat, false :: false :: (List.replicate 5 false ++ bits body)) := rfl
  have form : number? 2 (false :: false :: (List.replicate 5 false ++ bits body)) =
      some (0, List.replicate 5 false ++ bits body) := rfl
  rw [split, block?, head]
  simp only [Option.bind_eq_bind, Option.bind_some, form, ↓reduceIte, stored]
  cases last <;> rfl

/-- Blocks of bytes as they are, with a last one behind them, are put out in order. -/
theorem blocks?_storedBlocks {pieces : List (List UInt8)}
    (fit : ∀ piece ∈ pieces, piece.length ≤ blockLimit) (output : List UInt8) :
    blocks? output (bits (pieces.flatMap (storedBlock false) ++ storedBlock true [])) =
      some (pieces.flatten.reverse ++ output) := by
  induction pieces generalizing output with
  | nil =>
    have read := @block?_storedBlock true [] (Nat.zero_le _) output []
    rw [List.append_nil] at read
    rw [List.flatMap_nil, List.nil_append, blocks?, read]
    rfl
  | cons piece later ih =>
    have read := block?_storedBlock false (fit piece (List.mem_cons_self ..)) output
      (later.flatMap (storedBlock false) ++ storedBlock true [])
    have shorter : (bits (later.flatMap (storedBlock false) ++ storedBlock true [])).length <
        (bits (storedBlock false piece ++
          (later.flatMap (storedBlock false) ++ storedBlock true []))).length := by
      have some_bytes : 0 < (storedBlock false piece).length := Nat.succ_pos _
      rw [bits_append (storedBlock false piece), List.length_append, length_bits (storedBlock ..)]
      omega
    rw [List.flatMap_cons, List.append_assoc, blocks?, read]
    dsimp only
    rw [if_pos shorter, ih fun other member => fit other (List.mem_cons_of_mem _ member),
      List.flatten_cons, List.reverse_append, List.append_assoc]

/-- No chunk is longer than the size asked for. -/
theorem length_le_of_mem_chunks {size : Nat} (positive : 0 < size) {contents piece : List UInt8}
    (member : piece ∈ Bytes.chunks size contents) : piece.length ≤ size := by
  fun_induction Bytes.chunks size contents with
  | case1 => contradiction
  | case2 first rest ih =>
    rcases List.mem_cons.mp member with rfl | later
    · rw [List.length_take, Nat.max_eq_left positive]
      exact Nat.min_le_left ..
    · exact ih later

/-- The stream that stores contents inflates to them. -/
theorem inflate?_store (contents : List UInt8) : inflate? (store contents) = some contents := by
  have fit (piece : List UInt8) (member : piece ∈ Bytes.chunks blockLimit contents) :
      piece.length ≤ blockLimit := length_le_of_mem_chunks (by decide) member
  rw [inflate?, store, blocks?_storedBlocks fit, Bytes.flatten_chunks, List.append_nil,
    Option.map_some, List.reverse_reverse]

/-- A way to deflate at a level of effort, whose streams inflate to what they were made from. -/
structure Deflater where
  /-- The stream of some contents. -/
  deflate : Option Nat → List UInt8 → List UInt8
  /-- The stream inflates. -/
  inflate?_deflate : ∀ level contents, inflate? (deflate level contents) = some contents

/-- The way to deflate that stores contents as they are. -/
def Deflater.literal : Deflater := ⟨fun _ => store, fun _ => inflate?_store⟩

end Trajectory.Deflate
