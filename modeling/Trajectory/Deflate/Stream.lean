import Trajectory.Bytes.Basic
import Trajectory.Deflate.Code
/-!
# Deflated streams

A deflated stream is a run of blocks, the last of which is marked. A block holds bytes as they
are, or symbols in two prefix codes, which are either fixed or told at its start: bytes, and
copies of a length from a distance back in the output. A copy may run into the bytes that it
writes; what it takes from before the output is zeros. Whatever follows the last block is left
alone.
-/
namespace Trajectory.Deflate

/-- The codes of a block. -/
structure Codes where
  /-- Of bytes, lengths and the end of the block. -/
  literals : Code
  /-- Of distances. -/
  distances : Code
  deriving DecidableEq, Repr

/-- The codes of a block that does not tell its own. -/
def fixedCodes : Codes where
  literals := .ofLengths
    (List.replicate 144 8 ++ List.replicate 112 9 ++ List.replicate 24 7 ++ List.replicate 8 8)
  distances := .ofLengths (List.replicate 32 5)

/-- The symbol that ends a block. -/
def endSymbol : Nat := 256

/-- The least length of each symbol after the one that ends a block, and how many bits tell what
is added to it. -/
def lengthRanges : List (Nat × Nat) :=
  [(3, 0), (4, 0), (5, 0), (6, 0), (7, 0), (8, 0), (9, 0), (10, 0), (11, 1), (13, 1), (15, 1),
    (17, 1), (19, 2), (23, 2), (27, 2), (31, 2), (35, 3), (43, 3), (51, 3), (59, 3), (67, 4),
    (83, 4), (99, 4), (115, 4), (131, 5), (163, 5), (195, 5), (227, 5), (258, 0)]

/-- The least distance of each symbol, and how many bits tell what is added to it. -/
def distanceRanges : List (Nat × Nat) :=
  [(1, 0), (2, 0), (3, 0), (4, 0), (5, 1), (7, 1), (9, 2), (13, 2), (17, 3), (25, 3), (33, 4),
    (49, 4), (65, 5), (97, 5), (129, 6), (193, 6), (257, 7), (385, 7), (513, 8), (769, 8),
    (1025, 9), (1537, 9), (2049, 10), (3073, 10), (4097, 11), (6145, 11), (8193, 12), (12289, 12),
    (16385, 13), (24577, 13)]

/-- One item of a block. -/
inductive Item where
  /-- A byte. -/
  | literal (byte : UInt8)
  /-- A copy. -/
  | copy (length distance : Nat)
  /-- The end of the block. -/
  | stop
  deriving DecidableEq, Repr

/-- The number that a symbol of a table tells of, with the bits that are added to it. -/
def ranged? (ranges : List (Nat × Nat)) (symbol : Nat) (bits : List Bool) :
    Option (Nat × List Bool) :=
  match ranges[symbol]? with
  | none => none
  | some (least, width) => (number? width bits).map fun (added, rest) => (least + added, rest)

/-- A copy, from the symbol of its length on. -/
def copy? (distances : Code) (symbol : Nat) (bits : List Bool) : Option (Item × List Bool) := do
  let (length, rest) ← ranged? lengthRanges symbol bits
  let (symbol, rest) ← distances.symbol? rest
  let (distance, rest) ← ranged? distanceRanges symbol rest
  some (.copy length distance, rest)

/-- The item at the front of some bits, and the bits after it. -/
def item? (codes : Codes) (bits : List Bool) : Option (Item × List Bool) :=
  match codes.literals.symbol? bits with
  | none => none
  | some (symbol, rest) =>
    if symbol < endSymbol then some (.literal (UInt8.ofNat symbol), rest)
    else if symbol = endSymbol then some (.stop, rest)
    else copy? codes.distances (symbol - endSymbol - 1) rest

/-- A number of a table takes no bits back. -/
theorem length_ranged? {ranges : List (Nat × Nat)} {symbol value : Nat} {bits rest : List Bool}
    (found : ranged? ranges symbol bits = some (value, rest)) : rest.length ≤ bits.length := by
  unfold ranged? at found
  split at found
  · contradiction
  · simp only [Option.map_eq_some_iff] at found
    obtain ⟨⟨added, later⟩, read, same⟩ := found
    simp only [Prod.mk.injEq] at same
    obtain ⟨_, rfl⟩ := same
    have := length_number? read
    omega

/-- An item takes at least one bit. -/
theorem length_item? {codes : Codes} {item : Item} {bits rest : List Bool}
    (found : item? codes bits = some (item, rest)) : rest.length < bits.length := by
  unfold item? at found
  split at found
  · contradiction
  · next symbol later read =>
    have shorter := Code.length_symbol? read
    split at found
    · cases found; exact shorter
    · split at found
      · cases found; exact shorter
      · simp only [copy?, Option.bind_eq_bind, Option.bind_eq_some_iff] at found
        obtain ⟨⟨_, first⟩, one, ⟨_, second⟩, two, ⟨_, third⟩, three, same⟩ := found
        simp only [Option.some.injEq, Prod.mk.injEq] at same
        obtain ⟨_, rfl⟩ := same
        have one : first.length ≤ later.length := length_ranged? one
        have two : second.length < first.length := Code.length_symbol? two
        have three : third.length ≤ second.length := length_ranged? three
        omega

/-- The output, last byte first, after the items of a block, and the bits after them. -/
def items? (codes : Codes) (output : List UInt8) (bits : List Bool) :
    Option (List UInt8 × List Bool) :=
  match _found : item? codes bits with
  | none => none
  | some (.literal byte, rest) => items? codes (byte :: output) rest
  | some (.copy length distance, rest) => items? codes (Bytes.copyBack distance length output) rest
  | some (.stop, rest) => some (output, rest)
termination_by bits.length
decreasing_by all_goals exact length_item? ‹_›

/-- The output after a block of bytes as they are, which start at the next whole byte with their
number and its complement. -/
def stored? (output : List UInt8) (bits : List Bool) : Option (List UInt8 × List Bool) := do
  let (length, rest) ← number? 16 (bits.drop (bits.length % 8))
  let (complement, rest) ← number? 16 rest
  if length + complement ≠ 0xffff then none
  else bytes length output rest
where
  /-- The output after a number of bytes. -/
  bytes : Nat → List UInt8 → List Bool → Option (List UInt8 × List Bool)
    | 0, output, bits => some (output, bits)
    | count + 1, output, bits =>
      match number? 8 bits with
      | some (byte, rest) => bytes count (UInt8.ofNat byte :: output) rest
      | none => none

/-- The order in which the lengths of the words for lengths are told. -/
def lengthOrder : List Nat := [16, 17, 18, 0, 8, 7, 9, 6, 10, 5, 11, 4, 12, 3, 13, 2, 14, 1, 15]

/-- Several numbers of three bits. -/
def triples? : Nat → List Bool → Option (List Nat × List Bool)
  | 0, bits => some ([], bits)
  | count + 1, bits => do
    let (value, rest) ← number? 3 bits
    let (later, rest) ← triples? count rest
    some (value :: later, rest)

/-- The lengths that a symbol of the code for lengths stands for, after those before it, which are
held last first. Three symbols repeat a length: the last one, and zero twice. -/
def repeated? (before : List Nat) (symbol : Nat) (bits : List Bool) :
    Option (List Nat × List Bool) :=
  if symbol < 16 then some (symbol :: before, bits)
  else if symbol = 16 then
    match before with
    | [] => none
    | last :: _ =>
      (number? 2 bits).map fun (added, rest) => (List.replicate (3 + added) last ++ before, rest)
  else
    let (least, width) := if symbol = 17 then (3, 3) else (11, 7)
    (number? width bits).map fun (added, rest) =>
      (List.replicate (least + added) 0 ++ before, rest)

/-- A number of lengths in a code, after those before, which are held last first. -/
def lengths? (code : Code) (count : Nat) : Nat → List Nat → List Bool →
    Option (List Nat × List Bool)
  | steps, before, bits =>
    if before.length = count then some (before.reverse, bits)
    else if count < before.length then none
    else
      match steps with
      | 0 => none
      | steps + 1 => do
        let (symbol, rest) ← code.symbol? bits
        let (after, rest) ← repeated? before symbol rest
        lengths? code count steps after rest

/-- Most symbols of bytes, lengths and the end of the block that a block tells of. -/
def literalLimit : Nat := 286

/-- Most symbols of distances that a block tells of. -/
def distanceLimit : Nat := 30

/-- The codes that a block tells at its start. -/
def codes? (bits : List Bool) : Option (Codes × List Bool) := do
  let (literals, rest) ← number? 5 bits
  let (distances, rest) ← number? 5 rest
  let (told, rest) ← number? 4 rest
  let literals := literals + 257
  let distances := distances + 1
  if literalLimit < literals ∨ distanceLimit < distances then none
  else
    let (triples, rest) ← triples? (told + 4) rest
    let code := Code.ofLengths ((List.range lengthOrder.length).map fun length =>
      triples.getD (lengthOrder.idxOf length) 0)
    if ¬ code.isFull then none
    else
      let total := literals + distances
      let (lengths, rest) ← lengths? code total total [] rest
      let codes : Codes := ⟨.ofLengths (lengths.take literals), .ofLengths (lengths.drop literals)⟩
      if codes.literals.isSound ∧ codes.distances.isSound then some (codes, rest) else none

/-- The output after a block, whether it is the last, and the bits after it. -/
def block? (output : List UInt8) (bits : List Bool) :
    Option (List UInt8 × Bool × List Bool) := do
  let (last, rest) ← number? 1 bits
  let (form, rest) ← number? 2 rest
  let (output, rest) ←
    if form = 0 then stored? output rest
    else if form = 1 then items? fixedCodes output rest
    else if form = 2 then do
      let (codes, rest) ← codes? rest
      items? codes output rest
    else none
  some (output, last = 1, rest)

/-- The output after all blocks, last byte first. -/
def blocks? (output : List UInt8) (bits : List Bool) : Option (List UInt8) :=
  match block? output bits with
  | none => none
  | some (output, true, _) => some output
  | some (output, false, rest) =>
    if rest.length < bits.length then blocks? output rest else none
termination_by bits.length

/-- What a deflated stream holds. -/
def inflate? (stream : List UInt8) : Option (List UInt8) :=
  (blocks? [] (bits stream)).map List.reverse

end Trajectory.Deflate
