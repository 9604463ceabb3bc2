import Trajectory.Config.Basic
import Trajectory.Text.Utf8
import Trajectory.Toml.Document
import Trajectory.Volume.Basic
/-!
# Configurations as text

A configuration is written in TOML: the kind of archive, the compression and the sizes of pieces,
each of which may be left out. Keys of other names are ignored.
-/
namespace Trajectory

/-- Why there is no configuration. -/
inductive ConfigError where
  /-- The file cannot be read. -/
  | io (fault : IoError)
  /-- The text is no document, or a setting is none. -/
  | malformed
  deriving DecidableEq, Repr

namespace Config

/-- The name that a setting gives: a text, or the one key of a table, which has nothing to say
under it. -/
def nameOf : Toml.Value → Option String
  | .text name | .table _ [(name, .table _ [])] | .table _ [(name, .array [])] => some name
  | _ => none

/-- A size, which is not negative. -/
def sizeOf : Toml.Value → Option Nat
  | .integer size => if 0 ≤ size then some size.toNat else none
  | _ => none

/-- A setting, or its standard where nothing is said. -/
def given {α : Type} (read : Toml.Value → Option α) (standard : α) : Option Toml.Value → Option α
  | some value => read value
  | none => some standard

/-- Both sizes, by name or in order. A date or a time names neither. -/
def sizesOf : Toml.Value → Option PieceSizes
  | .table _ entries => do
    some ⟨← given sizeOf PieceSizes.standard.raw (entries.lookup "raw_chunk_size"),
      ← given sizeOf PieceSizes.standard.compressed (entries.lookup "compressed_chunk_size")⟩
  | .array items => do
    some ⟨← given sizeOf PieceSizes.standard.raw items[0]?,
      ← given sizeOf PieceSizes.standard.compressed items[1]?⟩
  | .moment => some .standard
  | _ => none

/-- The kind of archive that a setting names. -/
def kindOf (value : Toml.Value) : Option ArchiveKind := (nameOf value).bind ArchiveKind.ofName?

/-- The compression that a setting names. -/
def compressionOf (value : Toml.Value) : Option Compression :=
  (nameOf value).bind Compression.ofName?

/-- The settings of a document. -/
def ofTable (table : Toml.Table) : Option Config := do
  some ⟨← given (fun value => (kindOf value).map some) none (table.lookup "backend"),
    ← given compressionOf standard.compression (table.lookup "compress"),
    ← given sizesOf standard.sizes (table.lookup "chunking")⟩

/-- The settings of a text. -/
def ofText (text : String) : Except ConfigError Config :=
  match (Toml.parse text).bind ofTable with
  | some config => .ok config
  | none => .error .malformed

/-- The settings of a file. -/
def load (volume : Volume) (path : String) : Except ConfigError Config :=
  match volume.load path with
  | .error fault => .error (.io fault)
  | .ok data =>
    match Utf8.decode? data with
    | some text => ofText text
    | none => .error (.io .notText)

end Config

end Trajectory
