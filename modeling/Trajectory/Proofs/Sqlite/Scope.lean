import Trajectory.Proofs.Archive.Calls
import Trajectory.Proofs.Sqlite.Rows
/-!
# Scopes of writes

A write outside of a scope is committed at once, and the writes of a scope when it ends. A scope
begins with the first begin of a batch while none is open, and ends with the end of the batch or
with the archive. At any time the rows that other connections see are those that the settled writes
leave, and the archive itself sees the writes of the open scope on top of them.
-/
namespace Trajectory

/-- The writes that succeeded, in order: those that are settled, and those of the scope that is
open, if one is. -/
structure Scope where
  /-- The settled writes. -/
  settled : List Archive.Request
  /-- The writes of the open scope. -/
  pending : Option (List Archive.Request)
  deriving DecidableEq, Repr

namespace Scope

/-- Nothing was written, and no scope is open. -/
def start : Scope := ⟨[], none⟩

/-- All writes that succeeded. -/
def all (scope : Scope) : List Archive.Request := scope.settled ++ scope.pending.getD []

/-- A write succeeds: it is settled unless a scope is open. -/
def write (scope : Scope) (request : Archive.Request) : Scope :=
  match scope.pending with
  | none => ⟨scope.settled ++ [request], none⟩
  | some held => ⟨scope.settled, some (held ++ [request])⟩

/-- A scope begins unless one is open. -/
def entered (scope : Scope) : Scope := ⟨scope.settled, some (scope.pending.getD [])⟩

/-- The open scope ends, and its writes are settled. -/
def left (scope : Scope) : Scope := ⟨scope.all, none⟩

/-- What a call with its answer adds. A call that fails adds nothing. -/
def record (scope : Scope) : Archive.Call → Archive.Answer → Scope
  | .write request, .done (.ok ()) => scope.write request
  | .beginBatch, .done (.ok ()) => scope.entered
  | .endBatch, .done (.ok ()) | .close, .done (.ok ()) => scope.left
  | _, _ => scope

/-- Where no scope is open all writes are settled. -/
theorem all_of_none {scope : Scope} (closed : scope.pending = none) :
    scope.all = scope.settled := by
  rw [all, closed, Option.getD_none, List.append_nil]

/-- Where no scope is open there is none to end. -/
theorem left_of_none {scope : Scope} (closed : scope.pending = none) : scope.left = scope := by
  rw [left, all_of_none closed, ← closed]

/-- Where a scope is open none begins. -/
theorem entered_of_some {scope : Scope} {held : List Archive.Request}
    (entered : scope.pending = some held) : scope.entered = scope := by
  rw [Scope.entered, entered, Option.getD_some, ← entered]

/-- Where nothing was written in a scope all writes are settled. -/
theorem all_of_nil {scope : Scope} (entered : scope.pending = some []) :
    scope.all = scope.settled := by
  rw [all, entered, Option.getD_some, List.append_nil]

/-- Where no scope is open a write is settled. -/
theorem write_of_none {scope : Scope} (closed : scope.pending = none)
    (request : Archive.Request) :
    scope.write request = ⟨scope.settled ++ [request], none⟩ := by
  rw [write, closed]

/-- In a scope a write is pending. -/
theorem pending_write {scope : Scope} {held : List Archive.Request}
    (entered : scope.pending = some held) (request : Archive.Request) :
    (scope.write request).pending = some (held ++ [request]) := by
  rw [write, entered]

/-- In a scope a write is not settled. -/
theorem settled_write {scope : Scope} {held : List Archive.Request}
    (entered : scope.pending = some held) (request : Archive.Request) :
    (scope.write request).settled = scope.settled := by
  rw [write, entered]

/-- One write more is one write more in all. -/
theorem all_write (scope : Scope) (request : Archive.Request) :
    (scope.write request).all = scope.all ++ [request] := by
  obtain ⟨settled, pending⟩ := scope
  cases pending with
  | none => simp [write, all]
  | some held => simp [write, all]

end Scope

namespace Sqlite

namespace Database

variable (compressors : Compressors) (sizes : PieceSizes)

/-- The rows that writes leave. -/
def storeAll (rows : Database) (requests : List Trajectory.Archive.Request) : Database :=
  requests.foldl
    (fun rows request =>
      rows.stored compressors sizes request.path request.contents request.compression) rows

/-- The contents that were written last under a path. -/
def lastTo? (requests : List Trajectory.Archive.Request) (path : String) : Option (List UInt8) :=
  (requests.reverse.find? (·.path = path)).map (·.contents)

variable {compressors sizes}

/-- The last write is stored last. -/
theorem storeAll_append_singleton (rows : Database) (requests : List Trajectory.Archive.Request)
    (request : Trajectory.Archive.Request) :
    rows.storeAll compressors sizes (requests ++ [request]) =
      (rows.storeAll compressors sizes requests).stored compressors sizes request.path
        request.contents request.compression := by
  rw [storeAll, List.foldl_append]
  rfl

/-- A path reads as what was written to it last, or as before if nothing was. -/
theorem reading_storeAll (rows : Database) (requests : List Trajectory.Archive.Request)
    (path : String) :
    (rows.storeAll compressors sizes requests).reading path =
      match lastTo? requests path with
      | some contents => .ok contents
      | none => rows.reading path := by
  induction requests using List.reverseRecOn with
  | nil => rfl
  | append_singleton requests request ih =>
    rw [storeAll_append_singleton, reading, entry_stored, lastTo?,
      List.reverse_append, List.reverse_singleton, List.singleton_append]
    by_cases same : path = request.path
    · rw [if_pos same, List.find?_cons_of_pos (by simpa using same.symm)]
      rfl
    · rw [if_neg same, List.find?_cons_of_neg (by simpa using Ne.symm same)]
      exact ih

end Database

end Sqlite

/-- What the writes that succeeded tell of a database, over the rows there were at first and for
whoever makes them. -/
structure Scope.Tells (scope : Scope) (compressors : Sqlite.Compressors)
    (sizes : PieceSizes) (base : Sqlite.Database) (connection : Sqlite.Connection)
    (volume : Volume) (isOpen : Prop) (read : String → Except ArchiveError (List UInt8)) :
    Prop where
  /-- Other connections to the file see what the settled writes leave. -/
  committed : ∀ other : Sqlite.Connection, other.number = connection.number →
    other.home = connection.home → ∀ table,
      other.look volume table = (.ok (base.storeAll compressors sizes scope.settled), volume)
  /-- Reading gives what was written last, of all writes, or what there was. -/
  reads : isOpen → ∀ path,
    read path =
      match Sqlite.Database.lastTo? scope.all path with
      | some contents => .ok contents
      | none => base.reading path
  /-- Once everything is closed all writes are settled. -/
  completed : ¬isOpen → scope.pending = none

end Trajectory
