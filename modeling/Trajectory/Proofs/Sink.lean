import Trajectory.Sink
/-!
# What a sink takes

Runs of bytes written in order are taken as one run. A sink without a limit takes every run whole,
and one with a limit takes of it what fits into the room that is left.
-/
namespace Trajectory.Sink

/-- A sink without a limit takes a run whole. -/
theorem write_unlimited (received bytes : List UInt8) :
    (⟨received, none⟩ : Sink).write bytes = (.ok (), ⟨received ++ bytes, none⟩) := by
  simp [write, fitting]

/-- A sink with a limit takes what fits, and fails exactly if this is not the whole run. -/
theorem write_limited (received : List UInt8) (limit : Nat) (bytes : List UInt8) :
    (⟨received, some limit⟩ : Sink).write bytes =
      (if bytes.length ≤ limit - received.length then .ok () else .error .writeZero,
        ⟨received ++ bytes.take (limit - received.length), some limit⟩) := by
  have taken : bytes.take (min bytes.length (limit - received.length)) =
      bytes.take (limit - received.length) := by
    rw [Nat.min_comm, ← List.take_eq_take_min]
  unfold write fitting
  dsimp only [Option.elim_some]
  rw [taken, List.length_take]
  by_cases fits : bytes.length ≤ limit - received.length
  · rw [if_pos fits, if_pos (Nat.min_eq_right fits)]
  · have more : ¬ min (limit - received.length) bytes.length = bytes.length := by omega
    rw [if_neg fits, if_neg more]

/-- Runs of bytes that are written in order are taken as one run. -/
theorem writeAll_eq_write (sink : Sink) (runs : List (List UInt8)) :
    sink.writeAll runs = sink.write runs.flatten := by
  obtain ⟨received, limit⟩ := sink
  induction runs generalizing received with
  | nil => cases limit <;> simp [writeAll, write]
  | cons run later ih =>
    rw [writeAll, List.flatten_cons]
    cases limit with
    | none =>
      rw [write_unlimited, write_unlimited]
      dsimp only
      rw [ih, write_unlimited, List.append_assoc]
    | some limit =>
      rw [write_limited, write_limited, List.length_append]
      by_cases fits : run.length ≤ limit - received.length
      · have room : limit - (received ++ run).length = limit - received.length - run.length := by
          rw [List.length_append, Nat.sub_add_eq]
        have together : later.flatten.length ≤ limit - received.length - run.length ↔
            run.length + later.flatten.length ≤ limit - received.length := by omega
        rw [if_pos fits, List.take_of_length_le fits]
        dsimp only
        rw [ih, write_limited, room, List.take_append, List.take_of_length_le fits,
          List.append_assoc]
        simp only [together]
      · -- The room ends inside this run, so nothing of the later runs is taken.
        have more : ¬ run.length + later.flatten.length ≤ limit - received.length := by omega
        rw [if_neg fits, if_neg more, List.take_append_of_le_length (by omega)]

end Trajectory.Sink
