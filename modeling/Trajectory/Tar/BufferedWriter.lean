import Trajectory.Bytes.Basic
/-!
# Buffered writing to a file

A writer collects bytes and passes them on to its file, at its cursor, when they no longer fit
into its buffer of 8 KiB; a run of bytes of that length or more goes to the file at once. Before
the cursor moves, what is pending is written where the cursor was.
-/
namespace Trajectory.Tar

/-- Bytes that are not in the file yet, and where they go. -/
structure BufferedWriter where
  /-- The bytes collected. -/
  pending : List UInt8
  /-- Position in the file of the next write. -/
  cursor : Nat
  deriving DecidableEq, Repr

namespace BufferedWriter

/-- Most bytes that are collected. -/
def capacity : Nat := 8192

/-- A writer at the start of its file. -/
def start : BufferedWriter := ⟨[], 0⟩

/-- Pass the pending bytes on. -/
def flush (writer : BufferedWriter) (file : List UInt8) : BufferedWriter × List UInt8 :=
  (⟨[], writer.cursor + writer.pending.length⟩,
    Bytes.overwrite file writer.cursor writer.pending)

/-- Move the cursor. -/
def seek (writer : BufferedWriter) (file : List UInt8) (position : Nat) :
    BufferedWriter × List UInt8 :=
  (⟨[], position⟩, (writer.flush file).2)

/-- Write a run of bytes. -/
def write (writer : BufferedWriter) (file : List UInt8) (run : List UInt8) :
    BufferedWriter × List UInt8 :=
  let room := capacity - writer.pending.length
  if run.length < room then (⟨writer.pending ++ run, writer.cursor⟩, file)
  else
    let (after, kept) := if room < run.length then writer.flush file else (writer, file)
    if capacity ≤ run.length then
      (⟨after.pending, after.cursor + run.length⟩, Bytes.overwrite kept after.cursor run)
    else (⟨after.pending ++ run, after.cursor⟩, kept)

/-- Write several runs of bytes in order. -/
def writeAll (writer : BufferedWriter) (file : List UInt8) :
    List (List UInt8) → BufferedWriter × List UInt8
  | [] => (writer, file)
  | run :: later =>
    let (after, kept) := writer.write file run
    after.writeAll kept later

/-- The file once what is pending is in it. -/
def settled (writer : BufferedWriter) (file : List UInt8) : List UInt8 := (writer.flush file).2

/-- Position in the file of the next byte that is collected. -/
def reach (writer : BufferedWriter) : Nat := writer.cursor + writer.pending.length

/-- A settled file has the pending bytes at the cursor. -/
theorem settled_eq (writer : BufferedWriter) (file : List UInt8) :
    writer.settled file = Bytes.overwrite file writer.cursor writer.pending := rfl

/-- A writer with nothing pending leaves the file as it is. -/
theorem settled_of_nil (cursor : Nat) (file : List UInt8) :
    settled ⟨[], cursor⟩ file = file := rfl

/-- Flushing settles the file and keeps the position of the next byte. -/
theorem settled_flush (writer : BufferedWriter) (file : List UInt8) :
    (writer.flush file).1.settled (writer.flush file).2 = writer.settled file ∧
      (writer.flush file).1.reach = writer.reach := ⟨rfl, rfl⟩

/-- Moving the cursor settles the file. -/
theorem settled_seek (writer : BufferedWriter) (file : List UInt8) (position : Nat) :
    (writer.seek file position).1.settled (writer.seek file position).2 = writer.settled file ∧
      (writer.seek file position).1.reach = position := ⟨rfl, rfl⟩

/-- A run of bytes goes behind what is pending, whether it is collected or passed on. -/
theorem settled_write (writer : BufferedWriter) (file run : List UInt8) :
    (writer.write file run).1.settled (writer.write file run).2 =
        Bytes.overwrite (writer.settled file) writer.reach run ∧
      (writer.write file run).1.reach = writer.reach + run.length := by
  obtain ⟨pending, cursor⟩ := writer
  simp only [settled_eq, reach, Bytes.overwrite_overwrite]
  unfold write
  dsimp only
  split
  · simp [Nat.add_assoc]
  · next full =>
    by_cases crowded : capacity - pending.length < run.length
    · simp only [if_pos crowded, flush]
      split
      · simp [Bytes.overwrite_nil, Bytes.overwrite_overwrite]
      · simp [Bytes.overwrite_overwrite]
    · simp only [if_neg crowded]
      split
      · next wide =>
        have some_room : 0 < capacity := by decide
        have none : pending = [] := List.eq_nil_of_length_eq_zero (by omega)
        simp [none, Bytes.overwrite_nil]
      · simp [Nat.add_assoc]

/-- Runs of bytes go behind what is pending, one after the other. -/
theorem settled_writeAll (writer : BufferedWriter) (file : List UInt8)
    (runs : List (List UInt8)) :
    (writer.writeAll file runs).1.settled (writer.writeAll file runs).2 =
        Bytes.overwrite (writer.settled file) writer.reach runs.flatten ∧
      (writer.writeAll file runs).1.reach = writer.reach + runs.flatten.length := by
  induction runs generalizing writer file with
  | nil => exact ⟨(Bytes.overwrite_nil _ _).symm, rfl⟩
  | cons run later ih =>
    obtain ⟨settled, reached⟩ := settled_write writer file run
    obtain ⟨all_settled, all_reached⟩ := ih (writer.write file run).1 (writer.write file run).2
    rw [settled, reached, Bytes.overwrite_overwrite] at all_settled
    rw [reached] at all_reached
    refine ⟨all_settled, all_reached.trans ?_⟩
    rw [List.flatten_cons, List.length_append, Nat.add_assoc]

end BufferedWriter

end Trajectory.Tar
