import Trajectory.Archive.Error
import Trajectory.Bytes.Basic
/-!
# Contents in pieces

A database stores the contents of an entry in pieces, as they are or each as an LZ4 block. Putting
pieces together needs the recorded size and level: every piece has to fit into the space that is
left, and all the space has to be filled. How blocks are compressed is left open: any way will do
whose blocks decode.
-/
namespace Trajectory.Sqlite

/-- Level of pieces stored as they are. -/
def rawLevel : Int := 0

/-- Level of pieces stored as LZ4 blocks. -/
def lz4Level : Int := 1

/-- The contents of an entry as stored. -/
structure Stored where
  /-- The stored pieces, in order. -/
  pieces : List (List UInt8)
  /-- Bytes of all stored pieces. -/
  storedSize : Nat
  /-- How they are stored. -/
  level : Int
  deriving DecidableEq, Repr

/-- The ways in which pieces are compressed. -/
structure Compressors where
  /-- With little or moderate effort. -/
  quick : Lz4.Compressor
  /-- With the most effort. -/
  thorough : Lz4.Compressor

namespace Compressors

/-- The way for a level of compression, if anything is compressed at it. -/
def forLevel (compressors : Compressors) : Compression → Option Lz4.Compressor
  | .none => none
  | .fast | .medium => some compressors.quick
  | .slow => some compressors.thorough

/-- Blocks of literal runs at every level. -/
def literal : Compressors := ⟨.literal, .literal⟩

end Compressors

/-- Cut contents into pieces of a size, and compress each if asked to. -/
def store (compressors : Compressors) (contents : List UInt8) (compression : Compression)
    (size : Nat) : Stored :=
  let pieces := Bytes.chunks size contents
  match compressors.forLevel compression with
  | none => ⟨pieces, contents.length, rawLevel⟩
  | some compressor =>
    let blocks := pieces.map compressor.compress
    ⟨blocks, blocks.flatten.length, lz4Level⟩

/-- Decode one piece into the space that is left. -/
def decodePiece (level : Int) (space : Nat) (piece : List UInt8) :
    Except ContentsFault (List UInt8) :=
  if level = rawLevel then
    if space < piece.length then .error .overrun else .ok piece
  else if level = lz4Level then
    match Lz4.decode space piece with
    | .ok bytes => .ok bytes
    | .error error => .error (.block error)
  else .error (.unknownLevel level)

/-- Put pieces together after the bytes that are there. -/
def assemble (level : Int) (size : Nat) (found : List UInt8) :
    List (List UInt8) → Except ContentsFault (List UInt8)
  | [] => if found.length = size then .ok found else .error (.missing size found.length)
  | piece :: later =>
    match decodePiece level (size - found.length) piece with
    | .ok bytes => assemble level size (found ++ bytes) later
    | .error fault => .error fault

/-- The contents of an entry from its pieces. -/
def contents (size level : Int) (pieces : List (List UInt8)) :
    Except ContentsFault (List UInt8) :=
  if size < 0 then .error (.negativeSize size) else assemble level size.toNat [] pieces

end Trajectory.Sqlite
