import Trajectory.Proofs.Bytes.Chunks
import Trajectory.Proofs.Sqlite.Rows
/-!
# Contents in pieces and whole again

Contents are stored as consecutive pieces of the size that their level of compression asks for, each
as it is or as a block. The recorded size tells how many bytes all stored pieces have, and the
recorded level how to put them together, which gives the contents again.
-/
namespace Trajectory.Sqlite

/-- How a piece is stored at a level of compression. -/
def Compressors.storedPiece (compressors : Compressors) (compression : Compression)
    (piece : List UInt8) : List UInt8 :=
  (compressors.forLevel compression).elim piece (·.compress piece)

/-- The pieces of stored contents are the chunks of the contents, each stored by itself. -/
theorem pieces_store (compressors : Compressors) (data : List UInt8) (compression : Compression)
    (size : Nat) :
    (store compressors data compression size).pieces =
      (Bytes.chunks size data).map (compressors.storedPiece compression) := by
  have stores : compressors.storedPiece compression =
      fun piece => (compressors.forLevel compression).elim piece (·.compress piece) := rfl
  unfold store
  rw [stores]
  cases compressors.forLevel compression with
  | none => exact (List.map_id _).symm
  | some compressor => rfl

/-- The recorded size of stored contents is that of all their pieces. -/
theorem storedSize_store (compressors : Compressors) (data : List UInt8)
    (compression : Compression) (size : Nat) :
    (store compressors data compression size).storedSize =
      ((store compressors data compression size).pieces.map List.length).sum := by
  rw [← List.length_flatten]
  unfold store
  cases compressors.forLevel compression with
  | none =>
    dsimp only
    rw [Bytes.flatten_chunks]
  | some compressor => rfl

/-- Exactly what is not compressed is stored as it is. -/
theorem level_store (compressors : Compressors) (data : List UInt8) (compression : Compression)
    (size : Nat) :
    (store compressors data compression size).level =
      if compression.compresses then lz4Level else rawLevel := by
  cases compression <;> rfl

/-- Cutting contents into pieces loses nothing. At every level of compression and whatever sizes
are asked for, zero included, the contents are cut into consecutive pieces, as many as their length
takes, and each is stored by itself. The recorded size is that of all stored pieces, and without
compression that of the contents. Put together as the recorded level tells, the pieces are the
contents. -/
theorem pieces_lose_nothing (compressors : Compressors) (data : List UInt8)
    (compression : Compression) (sizes : PieceSizes) :
    let size := sizes.forLevel compression
    let stored := store compressors data compression size
    0 < size ∧
      (∃ sources, Bytes.Cut size data sources ∧
        stored.pieces = sources.map (compressors.storedPiece compression)) ∧
      stored.pieces.length = data.length ⌈/⌉ size ∧
      (stored.pieces = [] ↔ data = []) ∧
      stored.storedSize = (stored.pieces.map List.length).sum ∧
      (stored.level = if compression.compresses then lz4Level else rawLevel) ∧
      (stored.level = rawLevel → stored.storedSize = data.length) ∧
      contents data.length stored.level stored.pieces = .ok data := by
  intro size stored
  have positive : 0 < size := Nat.lt_of_lt_of_le Nat.one_pos (Nat.le_max_right ..)
  have counted : max size 1 = size := Nat.max_eq_left positive
  have cut := Bytes.cut_chunks size data
  rw [counted] at cut
  have pieces : stored.pieces =
      (Bytes.chunks size data).map (compressors.storedPiece compression) :=
    pieces_store compressors data compression size
  have level := level_store compressors data compression size
  refine ⟨positive, ⟨_, cut, pieces⟩, ?_, ?_, storedSize_store compressors data compression size,
    level, fun raw => ?_, contents_store compressors data compression size⟩
  · rw [pieces, List.length_map, cut.length_pieces positive]
  · rw [pieces, List.map_eq_nil_iff]
    constructor
    · intro none
      rw [← cut.flatten, none, List.flatten_nil]
    · rintro rfl
      rw [Bytes.chunks]
  · have plain := level.symm.trans raw
    cases compression with
    | none => rfl
    | fast | medium | slow => exact absurd plain (by decide)

/-- Five bytes to be compressed in pieces of two are three blocks, the last of a single byte. -/
theorem pieces_lose_nothing_five :
    let stored := store .literal [1, 2, 3, 4, 5] .slow ((⟨0, 2⟩ : PieceSizes).forLevel .slow)
    stored = ⟨[[32, 1, 2], [32, 3, 4], [16, 5]], 8, lz4Level⟩ ∧
      contents 5 stored.level stored.pieces = .ok [1, 2, 3, 4, 5] := by
  intro stored
  have whole := pieces_lose_nothing .literal [1, 2, 3, 4, 5] .slow ⟨0, 2⟩
  exact ⟨by decide +kernel, whole.2.2.2.2.2.2.2⟩

end Trajectory.Sqlite
