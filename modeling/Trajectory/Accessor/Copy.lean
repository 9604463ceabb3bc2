import Trajectory.Accessor.Batch
/-!
# Copies

A copy writes every frame of every record type of one accessor to another, in one batch, type by
type in record order and frame by frame in index order. The first fault ends it, and the batch
with it; what was copied until then remains.
-/
namespace Trajectory

namespace Register

/-- Every record of the register, in the order of a copy. -/
def records (register : Register) : List Record :=
  register.types.flatMap fun record => (register.frames record).map record.atFrame

end Register

namespace Batch

/-- Copy records into a batch, one after the other. -/
def copyRecords (libraries : Libraries) (source : Accessor) (batch : Batch) (volume : Volume)
    (compression : Compression) :
    List Record → Except ArchiveError Unit × Accessor × Batch × Volume
  | [] => (.ok (), source, batch, volume)
  | record :: later =>
    match source.read volume record.path with
    | (.error error, source, volume) => (.error error, source, batch, volume)
    | (.ok contents, source, volume) =>
      match batch.write volume ⟨record.path, contents, some compression⟩ libraries with
      | (.error error, batch, volume) => (.error error, source, batch, volume)
      | (.ok (), batch, volume) => copyRecords libraries source batch volume compression later

end Batch

namespace Accessor

/-- Both accessors and the volume after a copy, with the number of entries copied. -/
structure Copied where
  /-- Number of entries copied, or the first fault. -/
  result : Except ArchiveError Nat
  /-- The accessor that was read. -/
  source : Accessor
  /-- The accessor that was written to. -/
  target : Accessor
  /-- The volume afterwards. -/
  volume : Volume

/-- Copy every entry that the register of an accessor lists to another accessor. -/
def copyTo (source target : Accessor) (volume : Volume) (compression : Compression)
    (libraries : Libraries := .literal) : Copied :=
  match Batch.start target with
  | .error (error, target) => ⟨.error error, source, target, volume⟩
  | .ok batch =>
    match source.query Register.records with
    | .error error =>
      let (_, target, volume) := batch.finish volume
      ⟨.error error, source, target, volume⟩
    | .ok records =>
      match batch.copyRecords libraries source volume compression records with
      | (.error error, source, batch, volume) =>
        let (_, target, volume) := batch.finish volume
        ⟨.error error, source, target, volume⟩
      | (.ok (), source, batch, volume) =>
        let (result, target, volume) := batch.finish volume
        ⟨result.map fun _ => records.length, source, target, volume⟩

end Accessor

end Trajectory
