/-!
# Compression

How strongly an entry is compressed, and into pieces of which size an entry is cut where the
archive stores it in pieces. A size of zero counts as one byte, so that pieces are never empty.
-/
namespace Trajectory

/-- Compression asked for one entry; an archive without compression ignores it. -/
inductive Compression where
  /-- Bytes as they are. -/
  | none
  /-- The least effort. -/
  | fast
  /-- Moderate effort. -/
  | medium
  /-- The most effort. -/
  | slow
  deriving DecidableEq, Repr, Inhabited

namespace Compression

/-- Whether anything is compressed. -/
def compresses : Compression → Bool
  | none => false
  | fast | medium | slow => true

/-- Every level, from none to the most effort. -/
def all : List Compression := [none, fast, medium, slow]

/-- The name of a level in a configuration. -/
def name : Compression → String
  | none => "NoCompress"
  | fast => "FastCompress"
  | medium => "MediumCompress"
  | slow => "SlowCompress"

/-- The level of a name. -/
def ofName? (text : String) : Option Compression := all.find? fun level => level.name = text

end Compression

/-- Largest pieces of an entry, before any compression. -/
structure PieceSizes where
  /-- Largest piece of an entry stored as it is. -/
  raw : Nat
  /-- Largest piece of an entry that is compressed. -/
  compressed : Nat
  deriving DecidableEq, Repr

namespace PieceSizes

/-- Pieces of 256 MiB as they are, and of 4 MiB to be compressed. -/
def standard : PieceSizes := ⟨256 * 1024 * 1024, 4 * 1024 * 1024⟩

/-- The size of pieces at a level of compression, at least one byte. -/
def forLevel (sizes : PieceSizes) (level : Compression) : Nat :=
  max (if level.compresses then sizes.compressed else sizes.raw) 1

end PieceSizes

end Trajectory
