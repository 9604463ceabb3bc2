import Trajectory.Proofs.Sink
import Trajectory.Proofs.Tar.Image
/-!
# Archives that run out of room

Entries, the end of an archive and raw bytes are written to a sink one after the other. A sink that
runs out of room receives the first of the bytes that one without a limit receives. What is written
tells its size exactly if all its bytes fit, and an entry that can have no header is refused before
a byte of it is written.
-/
namespace Trajectory.Tar

/-- What is written to a sink. -/
inductive Portion where
  /-- An entry. -/
  | entry (item : Item)
  /-- The end of the archive. -/
  | closing
  /-- Bytes as they are. -/
  | raw (bytes : List UInt8)
  deriving DecidableEq, Repr

namespace Portion

/-- Write a portion to a sink, giving the bytes it takes. -/
def put (sink : Sink) : Portion → Except Error Nat × Sink
  | entry item => append sink item.path item.contents item.time
  | closing => finish sink
  | raw bytes =>
    match sink.write bytes with
    | (.ok (), after) => (.ok bytes.length, after)
    | (.error fault, after) => (.error (.io fault), after)

/-- Write portions in order, whatever becomes of each. -/
def putAll (sink : Sink) : List Portion → List (Except Error Nat) × Sink
  | [] => ([], sink)
  | portion :: later =>
    let (result, after) := portion.put sink
    let (results, last) := putAll after later
    (result :: results, last)

/-- The bytes of a portion; an entry that can have no header has none. -/
def bytes : Portion → List UInt8
  | entry item => item.bytes
  | closing => Bytes.zeros closingSize
  | raw bytes => bytes

/-- Why a portion is refused wherever it is written: the path of an entry has more than 254 bytes,
or its contents have 8 GiB or more. -/
def refusal? : Portion → Option HeaderLimit
  | entry item =>
    if 254 < (Utf8.encode item.path).length then
      some (.pathTooLong (Utf8.encode item.path).length)
    else if 8 * 2 ^ 30 ≤ item.contents.length then some (.sizeTooLarge item.contents.length)
    else none
  | closing | raw _ => none

/-- The size of a portion that is not refused. -/
def size : Portion → Nat
  | entry item => entryLength item.contents.length
  | closing => 1024
  | raw bytes => bytes.length

/-- What comes of a portion where there is room for a number of bytes. -/
def outcome (room : Nat) (portion : Portion) : Except Error Nat :=
  match portion.refusal? with
  | some limit => .error (.limit limit)
  | none => if portion.size ≤ room then .ok portion.size else .error (.io .writeZero)

/-- A portion that is refused has no header. -/
theorem encode_of_refused {item : Item} {limit : HeaderLimit}
    (refused : (entry item).refusal? = some limit) :
    Header.encode item.path item.contents.length item.time = .error limit := by
  have bounds : Header.nameWidth + Header.leadLimit = 254 ∧ Header.numberLimit = 8 * 2 ^ 30 := by
    decide
  unfold refusal? at refused
  dsimp only at refused
  by_cases long : 254 < (Utf8.encode item.path).length
  · rw [if_pos long] at refused
    obtain rfl := Option.some.inj refused
    exact Header.encode_of_long (bounds.1 ▸ long) _ _
  · rw [if_neg long] at refused
    by_cases large : 8 * 2 ^ 30 ≤ item.contents.length
    · rw [if_pos large] at refused
      obtain rfl := Option.some.inj refused
      exact Header.encode_of_large (bounds.1 ▸ Nat.not_lt.mp long) (bounds.2 ▸ large) _
    · rw [if_neg large] at refused
      contradiction

/-- An entry that is not refused has a header. -/
theorem fits_of_not_refused {item : Item} (taken : (entry item).refusal? = none) : item.Fits := by
  rw [Item.fits_iff]
  unfold refusal? at taken
  dsimp only at taken
  by_cases long : 254 < (Utf8.encode item.path).length
  · rw [if_pos long] at taken
    contradiction
  · rw [if_neg long] at taken
    by_cases large : 8 * 2 ^ 30 ≤ item.contents.length
    · rw [if_pos large] at taken
      contradiction
    · exact ⟨Nat.not_lt.mp long, Nat.not_le.mp large⟩

/-- A portion that is refused leaves a sink as it was. -/
theorem put_of_refused {portion : Portion} {limit : HeaderLimit}
    (refused : portion.refusal? = some limit) (sink : Sink) :
    portion.bytes = [] ∧ portion.put sink = (.error (.limit limit), sink) := by
  cases portion with
  | entry item =>
    have unbuilt := encode_of_refused refused
    constructor
    · rw [bytes, Item.bytes, unbuilt]
    · rw [put, append, unbuilt]
  | closing | raw _ => contradiction

/-- A portion that is not refused has as many bytes as its size tells, and they are written as one
run. -/
theorem put_of_not_refused {portion : Portion} (taken : portion.refusal? = none) (sink : Sink) :
    portion.bytes.length = portion.size ∧
      portion.put sink =
        match sink.write portion.bytes with
        | (.ok (), after) => (.ok portion.size, after)
        | (.error fault, after) => (.error (.io fault), after) := by
  cases portion with
  | entry item =>
    obtain ⟨header, encoded⟩ := fits_of_not_refused taken
    refine ⟨Item.length_bytes encoded, ?_⟩
    rw [put, append, encoded]
    dsimp only
    rw [Sink.writeAll_eq_write, Item.flatten_entryRuns encoded]
    rfl
  | closing =>
    refine ⟨Bytes.length_zeros _, ?_⟩
    rw [put, finish, Sink.writeAll_eq_write, flatten_closingRuns]
    rfl
  | raw bytes => exact ⟨rfl, rfl⟩

/-- A sink without a limit receives the bytes of a portion. -/
theorem put_unlimited (received : List UInt8) (portion : Portion) :
    (portion.put ⟨received, none⟩).2 = ⟨received ++ portion.bytes, none⟩ := by
  cases decided : portion.refusal? with
  | some limit =>
    obtain ⟨nothing, left⟩ := put_of_refused decided ⟨received, none⟩
    rw [left, nothing, List.append_nil]
  | none =>
    obtain ⟨-, written⟩ := put_of_not_refused decided ⟨received, none⟩
    rw [written, Sink.write_unlimited]

/-- A sink with a limit receives of a portion what fits into the room that is left, and this room
decides what comes of it. -/
theorem put_limited (received : List UInt8) (limit : Nat) (portion : Portion) :
    portion.put ⟨received, some limit⟩ =
      (portion.outcome (limit - received.length),
        ⟨received ++ portion.bytes.take (limit - received.length), some limit⟩) := by
  unfold outcome
  cases decided : portion.refusal? with
  | some reason =>
    obtain ⟨nothing, left⟩ := put_of_refused decided ⟨received, some limit⟩
    rw [left, nothing, List.take_nil, List.append_nil]
  | none =>
    obtain ⟨length, written⟩ := put_of_not_refused decided ⟨received, some limit⟩
    rw [written, Sink.write_limited, length]
    by_cases fits : portion.size ≤ limit - received.length
    · rw [if_pos fits]
      exact congrArg (·, _) (if_pos fits).symm
    · rw [if_neg fits]
      exact congrArg (·, _) (if_neg fits).symm

/-- A sink without a limit receives the bytes of all portions in order. -/
theorem putAll_unlimited (received : List UInt8) (portions : List Portion) :
    (putAll ⟨received, none⟩ portions).2 = ⟨received ++ portions.flatMap bytes, none⟩ := by
  induction portions generalizing received with
  | nil => rw [putAll, List.flatMap_nil, List.append_nil]
  | cons portion later ih =>
    rw [putAll]
    dsimp only
    rw [put_unlimited, ih, List.flatMap_cons, List.append_assoc]

/-- A sink with a limit receives the first of the bytes of all portions in order. -/
theorem putAll_limited (received : List UInt8) (limit : Nat) (portions : List Portion) :
    (putAll ⟨received, some limit⟩ portions).2 =
      ⟨received ++ (portions.flatMap bytes).take (limit - received.length), some limit⟩ := by
  induction portions generalizing received with
  | nil => rw [putAll, List.flatMap_nil, List.take_nil, List.append_nil]
  | cons portion later ih =>
    have room : limit - (received ++ portion.bytes.take (limit - received.length)).length =
        limit - received.length - portion.bytes.length := by
      rw [List.length_append, List.length_take]
      omega
    rw [putAll]
    dsimp only
    rw [put_limited]
    dsimp only
    rw [ih, room, List.flatMap_cons, List.take_append, List.append_assoc]

/-- There is a result for each portion. -/
theorem length_putAll (sink : Sink) (portions : List Portion) :
    (putAll sink portions).1.length = portions.length := by
  induction portions generalizing sink with
  | nil => rfl
  | cons portion later ih =>
    rw [putAll]
    dsimp only
    rw [List.length_cons, List.length_cons, ih]

/-- Parts behind others are written to the sink that these leave. -/
theorem putAll_append (sink : Sink) (before later : List Portion) :
    (putAll sink (before ++ later)).1 =
      (putAll sink before).1 ++ (putAll (putAll sink before).2 later).1 := by
  induction before generalizing sink with
  | nil => rfl
  | cons portion before ih =>
    rw [List.cons_append, putAll, putAll]
    dsimp only
    rw [ih, List.cons_append]

end Portion

open Portion

/-- A sink that runs out of room receives of an archive the first bytes that one without a limit
receives, as many as there is room for. An entry with a path of more than 254 bytes is refused, and
adds nothing, whatever room is left; so is one whose contents no size field can tell. Any other
portion is written whole, and tells its size, exactly if all its bytes fit into the room that the
portions before it leave; if they do not, those that fit are written and the fault of the sink is
told. -/
theorem received_until_full (limit : Nat) (portions : List Portion) :
    let free (portions : List Portion) := (putAll (.empty none) portions).2.received
    let held (portions : List Portion) := (putAll (.empty (some limit)) portions).2.received
    free portions = portions.flatMap bytes ∧
      held portions = (free portions).take (min limit (free portions).length) ∧
      (putAll (.empty (some limit)) portions).1.length = portions.length ∧
      ∀ before portion later, portions = before ++ portion :: later →
        let room := limit - (free before).length
        (putAll (.empty (some limit)) portions).1[before.length]? = some (portion.outcome room) ∧
          held (before ++ [portion]) = held before ++ portion.bytes.take room ∧
          (portion.refusal?.isSome → portion.bytes = []) ∧
          (portion.refusal? = none → portion.bytes.length = portion.size) := by
  intro free held
  have whole (portions : List Portion) : free portions = portions.flatMap bytes :=
    congrArg Sink.received (putAll_unlimited [] portions)
  have cut (portions : List Portion) : held portions = (portions.flatMap bytes).take limit :=
    congrArg Sink.received (putAll_limited [] limit portions)
  refine ⟨whole portions, ?_, length_putAll _ _, ?_⟩
  · rw [cut, whole, ← List.take_eq_take_min]
  · rintro before portion later rfl room
    have left : limit - ((before.flatMap bytes).take limit).length = room := by
      have total : room = limit - (before.flatMap bytes).length := by rw [← whole]
      rw [total, List.length_take]
      omega
    have sink : (putAll (.empty (some limit)) before).2 =
        ⟨(before.flatMap bytes).take limit, some limit⟩ :=
      putAll_limited [] limit before
    refine ⟨?_, ?_, fun refused => ?_, fun taken => ?_⟩
    · have behind : (putAll (.empty (some limit)) before).1.length ≤ before.length :=
        Nat.le_of_eq (length_putAll _ _)
      rw [putAll_append, List.getElem?_append_right behind, length_putAll, Nat.sub_self, sink,
        putAll, put_limited, left]
      rfl
    · rw [cut, cut, List.flatMap_append, List.flatMap_singleton, List.take_append]
      congr 2
      rw [← left, List.length_take]
      omega
    · obtain ⟨reason, decided⟩ := Option.isSome_iff_exists.mp refused
      exact (put_of_refused decided (.empty none)).1
    · exact (put_of_not_refused taken (.empty none)).1

example :
    (putAll (.empty (some 1026)) [.raw [1, 2], .entry ⟨"a", [3], 0⟩, .raw [4]]).1 =
      [.ok 2, .ok 1024, .error (.io .writeZero)] := by
  decide +kernel

end Trajectory.Tar
