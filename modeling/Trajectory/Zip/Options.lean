import Trajectory.Compression
import Trajectory.Deflate.Store
/-!
# How entries are stored

The compression that is asked for an entry decides the method by which its contents are stored, as
they are or deflated, and with how much effort they are deflated. Whatever it is, the entry is
written with eight-byte sizes.
-/
namespace Trajectory.Zip

/-- The method of contents that are stored as they are. -/
def plain : Nat := 0

/-- The method of contents that are deflated. -/
def deflated : Nat := 8

/-- How an entry is stored. -/
structure Options where
  /-- How the contents are stored. -/
  method : Nat
  /-- With how much effort, where that is told. -/
  level : Option Nat
  /-- Whether the entry has its sizes in eight bytes each. -/
  wide : Bool
  deriving DecidableEq, Repr

namespace Options

/-- The options for a compression. -/
def ofCompression (compression : Compression) : Options :=
  match compression with
  | .none => ⟨plain, none, true⟩
  | .fast => ⟨deflated, some 1, true⟩
  | .medium => ⟨deflated, some 6, true⟩
  | .slow => ⟨deflated, some 9, true⟩

/-- The stored bytes of some contents. -/
def pack (options : Options) (deflater : Deflate.Deflater) (contents : List UInt8) : List UInt8 :=
  if options.method = deflated then deflater.deflate options.level contents else contents

/-- Entries are written with eight-byte sizes, so that a later session can append to the file. -/
theorem wide_ofCompression (compression : Compression) :
    (ofCompression compression).wide = true := by
  cases compression <;> rfl

/-- The contents are stored as they are or deflated. -/
theorem method_ofCompression (compression : Compression) :
    (ofCompression compression).method = plain ∨ (ofCompression compression).method = deflated := by
  cases compression <;> decide

end Options

/-- The contents of stored bytes, by the method. -/
def unpack? (method : Nat) (stored : List UInt8) : Option (List UInt8) :=
  if method = deflated then Deflate.inflate? stored else some stored

/-- What was stored is extracted again. -/
theorem unpack?_pack (options : Options) (deflater : Deflate.Deflater) (contents : List UInt8) :
    unpack? options.method (options.pack deflater contents) = some contents := by
  rw [unpack?, Options.pack]
  split
  · exact deflater.inflate?_deflate ..
  · rfl

end Trajectory.Zip
