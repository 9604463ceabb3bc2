/-!
# Bits and prefix codes

Bytes are read as bits, the lowest bit of each byte first. A number is stored lowest bit first. A
prefix code gives each symbol a word of up to fifteen bits, and is told by the lengths of the words
alone: shorter words come first, and among words of one length the lower symbol. A code spends
every word, unless no more than one symbol has one.
-/
namespace Trajectory.Deflate

/-- The bits of bytes. -/
def bits (bytes : List UInt8) : List Bool :=
  bytes.flatMap fun byte => (List.range 8).map byte.toNat.testBit

/-- A number of some bits, and the bits after it. -/
def number? : Nat → List Bool → Option (Nat × List Bool)
  | 0, bits => some (0, bits)
  | _ + 1, [] => none
  | width + 1, bit :: bits => do
    let (value, rest) ← number? width bits
    some (bit.toNat + 2 * value, rest)

/-- A number takes as many bits as it is wide. -/
theorem length_number? {width value : Nat} {bits rest : List Bool}
    (found : number? width bits = some (value, rest)) : rest.length + width = bits.length := by
  induction width generalizing value bits with
  | zero => cases found; rfl
  | succ width ih =>
    cases bits with
    | nil => contradiction
    | cons bit bits =>
      simp only [number?, Option.bind_eq_bind, Option.bind_eq_some_iff] at found
      obtain ⟨⟨inner, later⟩, read, same⟩ := found
      simp only [Option.some.injEq, Prod.mk.injEq] at same
      obtain ⟨_, rfl⟩ := same
      have := ih read
      simp only [List.length_cons]
      omega

/-- Most bits of a word. -/
def longest : Nat := 15

/-- A prefix code. -/
structure Code where
  /-- How many words there are of each length, from one bit on. -/
  counts : List Nat
  /-- The symbols in the order of their words. -/
  symbols : List Nat
  deriving DecidableEq, Repr

namespace Code

/-- The code whose words have some lengths, by symbol; zero is for no word. -/
def ofLengths (lengths : List Nat) : Code where
  counts := (List.range' 1 longest).map lengths.count
  symbols := (List.range' 1 longest).flatMap fun length =>
    lengths.zipIdx.filterMap fun (other, symbol) => if other = length then some symbol else none

/-- Whether the words begin all bits there can be, each with one word. -/
def isFull (code : Code) : Bool :=
  code.counts.foldl (fun (free : Int) (count : Nat) => 2 * free - count) 1 = 0

/-- Whether the code spends every word, or has one word or none. -/
def isSound (code : Code) : Bool := code.isFull || code.symbols.length ≤ 1

/-- The symbol of the word at the front of some bits, by how many words of its length are before
it, and the bits after it. -/
def wordAt : List Nat → List Nat → Nat → List Bool → Option (Nat × List Bool)
  | count :: counts, symbols, before, bit :: bits =>
    let before := 2 * before + bit.toNat
    if before < count then symbols[before]?.map (·, bits)
    else wordAt counts (symbols.drop count) (before - count) bits
  | _, _, _, _ => none

/-- The symbol of the word at the front of some bits, and the bits after it. -/
def symbol? (code : Code) (bits : List Bool) : Option (Nat × List Bool) :=
  wordAt code.counts code.symbols 0 bits

/-- A word takes at least one bit. -/
theorem length_wordAt {counts symbols : List Nat} {before symbol : Nat} {bits rest : List Bool}
    (found : wordAt counts symbols before bits = some (symbol, rest)) :
    rest.length < bits.length := by
  induction counts generalizing symbols before bits with
  | nil => simp [wordAt] at found
  | cons count counts ih =>
    cases bits with
    | nil => simp [wordAt] at found
    | cons bit bits =>
      simp only [wordAt] at found
      split at found
      · simp only [Option.map_eq_some_iff] at found
        obtain ⟨_, _, same⟩ := found
        cases same
        exact Nat.lt_succ_self _
      · exact Nat.lt_succ_of_lt (ih found)

/-- A symbol takes at least one bit. -/
theorem length_symbol? {code : Code} {symbol : Nat} {bits rest : List Bool}
    (found : code.symbol? bits = some (symbol, rest)) : rest.length < bits.length :=
  length_wordAt found

end Code

end Trajectory.Deflate
