import Trajectory.Proofs.Tar.Header
import Trajectory.Tar.Scan
/-!
# What a scan finds

A scan of plain bytes is a trail of entries, each of which starts where the one before it ends,
and stops at the first place without a header. A trail depends only on the blocks that its headers
take, so it is found again in every file that agrees with them, and trails that meet can be
joined.
-/
namespace Trajectory.Tar

open Scanner

/-- What a scan of plain bytes finds at an offset. -/
def findingAt (data : List UInt8) (offset : Nat) : Finding :=
  let block := (data.drop offset).take blockLength
  if block.length = blockLength then classify block offset
  else if block = [] then .finished none
  else .finished (some (.truncated offset block.length))

/-- A scan of plain bytes looks at the block at its offset, wherever it has read before. -/
theorem find_plain (data : List UInt8) (position offset : Nat) (done : Bool) :
    ∃ after, find ⟨⟨data, position, [], none, none⟩, offset, done⟩ =
      (findingAt data offset, ⟨data, after, [], none, none⟩) := by
  unfold find findingAt Source.seek
  dsimp only
  rw [Source.fill_plain]
  by_cases whole : ((data.drop offset).take blockLength).length = blockLength
  · rw [if_pos whole, if_pos whole]
    exact ⟨_, rfl⟩
  · rw [if_neg whole, if_neg whole]
    cases (data.drop offset).take blockLength with
    | nil => exact ⟨_, rfl⟩
    | cons first rest => exact ⟨_, rfl⟩

/-- A step goes on behind the entry found, and ends the scan where there is none. -/
theorem next_plain (data : List UInt8) (position offset : Nat) :
    ∃ after, next ⟨⟨data, position, [], none, none⟩, offset, false⟩ =
      match findingAt data offset with
      | .entry found =>
        (.entry found, ⟨⟨data, after, [], none, none⟩, offset + entryLength found.size, false⟩)
      | finding => (finding, ⟨⟨data, after, [], none, none⟩, offset, true⟩) := by
  obtain ⟨after, found⟩ := find_plain data position offset false
  refine ⟨after, ?_⟩
  simp only [next, Bool.false_eq_true, ↓reduceIte, found]
  cases findingAt data offset <;> rfl

/-- An entry is found only where a whole block is. -/
theorem length_of_findingAt {data : List UInt8} {offset : Nat} {found : Entry}
    (entry : findingAt data offset = .entry found) : offset + blockLength ≤ data.length := by
  unfold findingAt at entry
  dsimp only at entry
  split at entry
  · next whole =>
    rw [List.length_take, List.length_drop] at whole
    have positive : 0 < blockLength := by decide
    omega
  · split at entry <;> contradiction

/-- The contents of an entry start behind its header. -/
theorem offset_of_findingAt {data : List UInt8} {offset : Nat} {found : Entry}
    (entry : findingAt data offset = .entry found) : found.offset = offset + blockLength := by
  unfold findingAt at entry
  dsimp only at entry
  split at entry
  · unfold classify at entry
    split at entry
    · rw [← Finding.entry.inj entry]
    · contradiction
    · split at entry <;> contradiction
    · contradiction
  · split at entry <;> contradiction

/-- The entries that a scan of plain bytes finds from one offset to another, each with its end. -/
inductive Trail (data : List UInt8) : Nat → List (Entry × Nat) → Nat → Prop where
  /-- Nothing is found before the place itself. -/
  | here (offset : Nat) : Trail data offset [] offset
  /-- An entry is found, and others from its end on. -/
  | step {offset stop : Nat} {found : Entry} {later : List (Entry × Nat)}
    (entry : findingAt data offset = .entry found)
    (rest : Trail data (offset + entryLength found.size) later stop) :
    Trail data offset ((found, offset + entryLength found.size) :: later) stop

namespace Trail

variable {data : List UInt8} {start stop : Nat} {entries : List (Entry × Nat)}

/-- A trail leads forward, by a block for each entry at least, which lies inside the data. -/
theorem le_stop (trail : Trail data start entries stop) :
    start + blockLength * entries.length ≤ stop := by
  induction trail with
  | here offset => exact Nat.le_refl _
  | step entry rest ih =>
    simp only [entryLength] at ih
    rw [List.length_cons, Nat.mul_add]
    omega

/-- A trail ends behind its last entry: the entries on it, padded, follow each other. -/
theorem stop_eq (trail : Trail data start entries stop) :
    stop = start + (entries.map fun found => entryLength found.1.size).sum := by
  induction trail with
  | here offset => rfl
  | step entry rest ih => rw [ih, List.map_cons, List.sum_cons, Nat.add_assoc]

/-- The headers on a trail lie inside the data. -/
theorem le_length (trail : Trail data start entries stop) (some_entry : entries ≠ []) :
    start + blockLength * entries.length ≤ data.length := by
  induction trail with
  | here offset => contradiction
  | @step offset stop found later entry rest ih =>
    have inside := length_of_findingAt entry
    by_cases last : later = []
    · rw [last, List.length_singleton]
      omega
    · have further := ih last
      simp only [entryLength] at further
      rw [List.length_cons, Nat.mul_add]
      omega

/-- A trail has no more entries than there are whole blocks. -/
theorem count_le (trail : Trail data start entries stop) :
    entries.length ≤ data.length / blockLength := by
  by_cases none : entries = []
  · rw [none]
    exact Nat.zero_le _
  · have inside := trail.le_length none
    rw [Nat.le_div_iff_mul_le (by decide), Nat.mul_comm]
    omega

/-- The contents of every entry on a trail lie before its end. -/
theorem extent_le (trail : Trail data start entries stop) {entry : Entry × Nat}
    (member : entry ∈ entries) : entry.1.offset + entry.1.size ≤ stop := by
  induction trail with
  | here offset => contradiction
  | step found rest ih =>
    have further := rest.le_stop
    have place := offset_of_findingAt found
    cases List.mem_cons.mp member with
    | inl first =>
      simp only [entryLength] at further
      rw [first]
      dsimp only
      omega
    | inr later => exact ih later

/-- Trails that meet are one trail. -/
theorem append {stop' : Nat} {later : List (Entry × Nat)} (trail : Trail data start entries stop)
    (rest : Trail data stop later stop') : Trail data start (entries ++ later) stop' := by
  induction trail with
  | here offset => exact rest
  | step entry _ ih => exact .step entry (ih rest)

/-- A trail is found in all data with the same blocks before its end. -/
theorem congr {other : List UInt8} (trail : Trail data start entries stop)
    (same : ∀ offset, offset + blockLength ≤ data.length → offset + blockLength ≤ stop →
      (other.drop offset).take blockLength = (data.drop offset).take blockLength) :
    Trail other start entries stop := by
  induction trail with
  | here offset => exact .here offset
  | @step offset stop found later entry rest ih =>
    have inside := length_of_findingAt entry
    have before := rest.le_stop
    simp only [entryLength] at before
    have within : offset + blockLength ≤ stop := by omega
    have block := same offset inside within
    apply Trail.step
    · rw [← entry, findingAt, findingAt, block]
    · exact ih same

end Trail

/-- A scan that takes enough steps follows a trail to the first place without an entry. -/
theorem run_of_trail {data : List UInt8} {start stop : Nat} {entries : List (Entry × Nat)}
    (trail : Trail data start entries stop) (last : ∀ found, findingAt data stop ≠ .entry found)
    {steps : Nat} (enough : entries.length < steps) (position : Nat) :
    ∃ after, run steps ⟨⟨data, position, [], none, none⟩, start, false⟩ =
      ⟨entries, findingAt data stop, ⟨⟨data, after, [], none, none⟩, stop, true⟩⟩ := by
  induction trail generalizing steps position with
  | here offset =>
    obtain ⟨steps, rfl⟩ : ∃ more, steps = more + 1 := ⟨steps - 1, by omega⟩
    obtain ⟨after, step⟩ := next_plain data position offset
    refine ⟨after, ?_⟩
    rw [run, step]
    cases finding : findingAt data offset with
    | entry found => exact absurd finding (last found)
    | finished warning => rfl
    | failed error => rfl
  | @step offset stop found later entry rest ih =>
    obtain ⟨steps, rfl⟩ : ∃ more, steps = more + 1 := ⟨steps - 1, by omega⟩
    obtain ⟨between, step⟩ := next_plain data position offset
    rw [List.length_cons] at enough
    obtain ⟨after, followed⟩ := ih last (Nat.lt_of_succ_lt_succ enough) between
    refine ⟨after, ?_⟩
    rw [run, step, entry]
    dsimp only
    rw [followed]

/-- However many steps it takes, a scan follows a trail; if that is short of the steps, nothing
is found at its end. -/
theorem trail_run (data : List UInt8) (steps position start : Nat) :
    let found := run steps ⟨⟨data, position, [], none, none⟩, start, false⟩
    Trail data start found.entries found.scanner.offset ∧
      (found.entries.length < steps →
        ∀ entry, findingAt data found.scanner.offset ≠ .entry entry) := by
  induction steps generalizing position start with
  | zero => exact ⟨.here start, fun less => absurd less (Nat.not_lt_zero _)⟩
  | succ steps ih =>
    obtain ⟨after, step⟩ := next_plain data position start
    rw [run, step]
    cases finding : findingAt data start with
    | entry found =>
      obtain ⟨trail, ended⟩ := ih after (start + entryLength found.size)
      refine ⟨.step finding trail, fun less => ended ?_⟩
      exact Nat.lt_of_succ_lt_succ less
    | finished warning =>
      refine ⟨.here start, fun _ entry same => ?_⟩
      have impossible := finding.symm.trans same
      contradiction
    | failed error =>
      refine ⟨.here start, fun _ entry same => ?_⟩
      have impossible := finding.symm.trans same
      contradiction

/-- A whole scan of plain bytes follows a trail from their start, to the first place without an
entry. -/
theorem trail_scan (data : List UInt8) :
    Trail data 0 (scan (.ofBytes data)).entries (scan (.ofBytes data)).scanner.offset ∧
      ∀ entry, findingAt data (scan (.ofBytes data)).scanner.offset ≠ .entry entry := by
  obtain ⟨trail, ended⟩ := trail_run data (data.length / blockLength + 1) 0 0
  exact ⟨trail, ended (Nat.lt_succ_of_le trail.count_le)⟩

/-- The trail from the start of plain bytes to the first place without an entry is what a scan
finds. -/
theorem scan_of_trail {data : List UInt8} {stop : Nat} {entries : List (Entry × Nat)}
    (trail : Trail data 0 entries stop) (last : ∀ found, findingAt data stop ≠ .entry found) :
    ∃ after, scan (.ofBytes data) =
      ⟨entries, findingAt data stop, ⟨⟨data, after, [], none, none⟩, stop, true⟩⟩ :=
  run_of_trail trail last (Nat.lt_succ_of_le trail.count_le) 0

end Trajectory.Tar
