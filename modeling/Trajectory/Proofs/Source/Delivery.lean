import Trajectory.Proofs.Source
/-!
# Buffers and the ways in which bytes arrive

What a source delivers is told by its reads, whatever room they have: interruptions, pieces of
the bytes in order, and after the last byte the end or a fault. Filling a buffer depends on what is
delivered and on nothing else of how it arrives. It takes the bytes that the buffer has room for and
leaves the rest, or it takes all there are and meets what comes after them.
-/
namespace Trajectory

namespace Arrival

/-- The bytes that arrive. -/
def piece : Arrival → List UInt8
  | bytes piece => piece
  | interrupted | failed _ => []

/-- The reply of a source whose bytes come next that lets something arrive. -/
def reply : Arrival → Reply
  | bytes [] => .nothing
  | bytes (first :: rest) => .upTo (first :: rest).length
  | interrupted => .interrupted
  | failed fault => .failed fault

end Arrival

namespace Source

/-- A source delivers bytes and then fails, or ends if there is no fault, within a number of reads.
With any room, a read is interrupted or brings the next of the bytes, and only after all of them it
ends or fails. -/
def DeliversWithin : Nat → Source → List UInt8 → Option IoError → Prop
  | 0, _, _, _ => False
  | reads + 1, source, bytes, fault => ∀ room, 0 < room →
    match source.read room with
    | (.interrupted, after) => DeliversWithin reads after bytes fault
    | (.bytes [], _) => bytes = [] ∧ fault = none
    | (.bytes (first :: rest), after) =>
      ∃ left, bytes = first :: rest ++ left ∧ DeliversWithin reads after left fault
    | (.failed reason, _) => bytes = [] ∧ fault = some reason

/-- A source delivers bytes and then fails, or ends if there is no fault. -/
def Delivers (source : Source) (bytes : List UInt8) (fault : Option IoError) : Prop :=
  ∃ reads, DeliversWithin reads source bytes fault

/-- A source whose reads go as listed, and which ends after those. What a read has no room for is
left for the next. -/
def playing (arrivals : List Arrival) : Source :=
  ⟨arrivals.flatMap Arrival.piece, 0, arrivals.map Arrival.reply, none, none⟩

/-- The bytes that arrive before the first end or fault, and the fault. -/
def supply : List Arrival → List UInt8 × Option IoError
  | [] => ([], none)
  | .bytes [] :: _ => ([], none)
  | .bytes (first :: rest) :: later => (first :: rest ++ (supply later).1, (supply later).2)
  | .interrupted :: later => supply later
  | .failed fault :: _ => ([], some fault)

/-- The source whose reads are not interrupted, and otherwise go as they do. -/
def calm (source : Source) : Source :=
  { source with replies := source.replies.filter (· ≠ .interrupted) }

/-- A read goes behind what arrives, which is no more than there is room for. -/
theorem moved_of_read {source after : Source} {room : Nat} {arrival : Arrival}
    (arrived : source.read room = (arrival, after)) :
    after.data = source.data ∧ after.position = source.position + arrival.piece.length ∧
      arrival.piece.length ≤ room := by
  have taken {count : Nat} (within : count ≤ room) {other : Source}
      (read : other.take count = (arrival, after)) :
      after.data = other.data ∧ after.position = other.position + arrival.piece.length ∧
        arrival.piece.length ≤ room := by
    obtain ⟨rfl, rfl⟩ := Prod.mk.inj read
    exact ⟨rfl, rfl, Nat.le_trans (List.length_take_le ..) within⟩
  have limited : source.limit.elim room (min · room) ≤ room := by
    cases source.limit with
    | none => exact Nat.le_refl _
    | some most => exact Nat.min_le_right ..
  unfold read at arrived
  split at arrived
  case h_1 =>
    have moved := taken (Nat.min_le_right ..) arrived
    exact moved
  case h_5 =>
    split at arrived
    · split at arrived
      · obtain ⟨rfl, rfl⟩ := Prod.mk.inj arrived
        exact ⟨rfl, rfl, Nat.zero_le _⟩
      · exact taken limited arrived
    · exact taken limited arrived
  all_goals
    obtain ⟨rfl, rfl⟩ := Prod.mk.inj arrived
    exact ⟨rfl, rfl, Nat.zero_le _⟩

/-- What a read of a source that delivers brings, and what is left to be delivered. -/
theorem Delivers.reads {source : Source} {bytes : List UInt8} {fault : Option IoError}
    (delivers : source.Delivers bytes fault) {room : Nat} (wanted : 0 < room) :
    match source.read room with
    | (.interrupted, after) => after.Delivers bytes fault
    | (.bytes [], _) => bytes = [] ∧ fault = none
    | (.bytes (first :: rest), after) =>
      ∃ left, bytes = first :: rest ++ left ∧ after.Delivers left fault
    | (.failed reason, _) => bytes = [] ∧ fault = some reason := by
  obtain ⟨reads, within⟩ := delivers
  cases reads with
  | zero => exact within.elim
  | succ reads =>
    have one := within room wanted
    revert one
    obtain ⟨arrival, after⟩ := source.read room
    intro one
    cases arrival with
    | interrupted => exact ⟨reads, one⟩
    | failed reason => exact one
    | bytes piece =>
      cases piece with
      | nil => exact one
      | cons first rest =>
        obtain ⟨left, parts, later⟩ := one
        exact ⟨left, parts, reads, later⟩

/-- A length is filled with the first of the bytes delivered, and the rest is delivered then; if
they are too few, what comes after them ends it. -/
theorem fill_of_delivers {source : Source} {bytes : List UInt8} {fault : Option IoError}
    (delivers : source.Delivers bytes fault) (length : Nat) :
    ∃ after, source.fill length =
        (bytes.take length, if length ≤ bytes.length then .full else fault.elim .dry .failed,
          after) ∧
      after.data = source.data ∧
      after.position = source.position + (bytes.take length).length ∧
      (length ≤ bytes.length → after.Delivers (bytes.drop length) fault) := by
  fun_induction fill source length generalizing bytes with
  | case1 source =>
    refine ⟨source, ?_, rfl, rfl, fun _ => ?_⟩
    · rw [if_pos (Nat.zero_le _), List.take_zero]
    · rwa [List.drop_zero]
  | case2 source length wanted after arrived =>
    have read := delivers.reads (Nat.pos_of_ne_zero wanted)
    rw [arrived] at read
    obtain ⟨rfl, rfl⟩ := read
    obtain ⟨same, place, -⟩ := moved_of_read arrived
    have few : ¬ length ≤ ([] : List UInt8).length := Nat.not_le.mpr (Nat.pos_of_ne_zero wanted)
    rw [if_neg few, List.take_nil]
    exact ⟨after, rfl, same, place, fun enough => absurd enough few⟩
  | case3 source length wanted first rest after arrived more ending last filled ih =>
    have read := delivers.reads (Nat.pos_of_ne_zero wanted)
    rw [arrived] at read
    obtain ⟨left, rfl, later⟩ := read
    obtain ⟨stop, further, data, position, goes_on⟩ := ih later
    obtain ⟨rfl, outcome⟩ := Prod.mk.inj (filled.symm.trans further)
    obtain ⟨rfl, rfl⟩ := Prod.mk.inj outcome
    obtain ⟨same, place, within⟩ := moved_of_read arrived
    change (first :: rest).length ≤ length at within
    change after.position = source.position + (first :: rest).length at place
    have taken : (first :: rest ++ left).take length =
        first :: rest ++ left.take (length - (first :: rest).length) := by
      rw [List.take_append, List.take_of_length_le within]
    have dropped : (first :: rest ++ left).drop length =
        left.drop (length - (first :: rest).length) := by
      rw [List.drop_append, List.drop_of_length_le within, List.nil_append]
    have enough : length ≤ (first :: rest ++ left).length ↔
        length - (first :: rest).length ≤ left.length := by
      rw [List.length_append]
      omega
    refine ⟨last, ?_, data.trans same, ?_, fun all => ?_⟩
    · rw [taken]
      simp only [enough]
    · rw [position, place, taken, List.length_append, Nat.add_assoc]
    · rw [dropped]
      exact goes_on (enough.mp all)
  | case4 source length wanted after arrived ih =>
    have read := delivers.reads (Nat.pos_of_ne_zero wanted)
    rw [arrived] at read
    obtain ⟨stop, filled, data, position, goes_on⟩ := ih read
    obtain ⟨same, place, -⟩ := moved_of_read arrived
    exact ⟨stop, filled, data.trans same, position.trans (by rw [place]; rfl), goes_on⟩
  | case5 source length wanted reason after arrived =>
    have read := delivers.reads (Nat.pos_of_ne_zero wanted)
    rw [arrived] at read
    obtain ⟨rfl, rfl⟩ := read
    obtain ⟨same, place, -⟩ := moved_of_read arrived
    have few : ¬ length ≤ ([] : List UInt8).length := Nat.not_le.mpr (Nat.pos_of_ne_zero wanted)
    rw [if_neg few, List.take_nil]
    exact ⟨after, rfl, same, place, fun enough => absurd enough few⟩

/-- The reads of a source go as listed from now on. -/
structure Plays (source : Source) (arrivals : List Arrival) : Prop where
  /-- The bytes that come next are those listed. -/
  coming : source.coming = arrivals.flatMap Arrival.piece
  /-- The replies let each of them arrive. -/
  replies : source.replies = arrivals.map Arrival.reply
  /-- A read after those ends the source. -/
  plain : source.fault = none

/-- A source that has played everything has ended. -/
theorem Plays.read_nil {source : Source} (plays : source.Plays []) (room : Nat) :
    ∃ after, source.read room = (.bytes [], after) := by
  have nothing : source.data.drop source.position = [] := plays.coming
  simp only [read, plays.replies, List.map_nil, plays.plain, take, nothing, List.take_nil]
  exact ⟨_, rfl⟩

/-- An arrival without bytes is what a read brings, and the others are left. -/
theorem Plays.read_of_nil {source : Source} {arrival : Arrival} {later : List Arrival}
    (plays : source.Plays (arrival :: later)) (none : arrival.piece = []) (room : Nat) :
    ∃ after, source.read room = (arrival, after) ∧ after.Plays later := by
  have replies := plays.replies
  have coming := plays.coming
  rw [List.map_cons] at replies
  rw [List.flatMap_cons, none, List.nil_append] at coming
  refine ⟨{ source with replies := later.map Arrival.reply }, ?_, coming, rfl, plays.plain⟩
  cases arrival with
  | bytes piece =>
    obtain rfl : piece = [] := none
    simp only [read, replies, Arrival.reply]
  | interrupted => simp only [read, replies, Arrival.reply]
  | failed fault => simp only [read, replies, Arrival.reply]

/-- A piece is let through up to its length. -/
theorem reply_of_ne_nil {piece : List UInt8} (some_bytes : piece ≠ []) :
    (Arrival.bytes piece).reply = .upTo piece.length := by
  obtain ⟨first, rest, rfl⟩ := List.exists_cons_of_ne_nil some_bytes
  rfl

/-- Of a piece a read brings what there is room for, and the rest of it is left. -/
theorem Plays.read_of_piece {source : Source} {piece : List UInt8} {later : List Arrival}
    (plays : source.Plays (.bytes piece :: later)) (some_bytes : piece ≠ []) (room : Nat) :
    ∃ after, source.read room = (.bytes (piece.take room), after) ∧
      after.Plays (if room < piece.length then .bytes (piece.drop room) :: later else later) := by
  have replies := plays.replies
  have coming : source.data.drop source.position = piece ++ later.flatMap Arrival.piece :=
    plays.coming
  rw [List.map_cons, reply_of_ne_nil some_bytes] at replies
  have fitting : (source.data.drop source.position).take (min piece.length room) =
      piece.take room := by
    rw [coming, List.take_append_of_le_length (Nat.min_le_left ..), Nat.min_comm,
      ← List.take_eq_take_min]
  refine ⟨{ source with
      position := source.position + (piece.take room).length
      replies :=
        if room < piece.length then .upTo (piece.length - room) :: later.map Arrival.reply
        else later.map Arrival.reply }, ?_, ?_, ?_, plays.plain⟩
  · simp only [read, replies, take, fitting]
  · change source.data.drop (source.position + (piece.take room).length) = _
    rw [← List.drop_drop, coming]
    by_cases short : room < piece.length
    · have length : (piece.take room).length = room := List.length_take_of_le (Nat.le_of_lt short)
      rw [if_pos short, length, List.drop_append_of_le_length (Nat.le_of_lt short),
        List.flatMap_cons]
      rfl
    · rw [if_neg short, List.take_of_length_le (Nat.not_lt.mp short), List.drop_left]
  · by_cases short : room < piece.length
    · have left : piece.drop room ≠ [] := by
        rw [ne_eq, List.drop_eq_nil_iff]
        exact Nat.not_le.mpr short
      rw [if_pos short, if_pos short, List.map_cons, reply_of_ne_nil left, List.length_drop]
    · rw [if_neg short, if_neg short]

/-- A piece is supplied before what comes behind it. -/
theorem supply_of_ne_nil {piece : List UInt8} (some_bytes : piece ≠ []) (later : List Arrival) :
    supply (.bytes piece :: later) = (piece ++ (supply later).1, (supply later).2) := by
  obtain ⟨first, rest, rfl⟩ := List.exists_cons_of_ne_nil some_bytes
  rfl

/-- What plays delivers what is listed before the first end or fault. A read that brings no byte
uses up an arrival, and the others bring a byte at least. -/
theorem Plays.delivers {source : Source} {arrivals : List Arrival} (plays : source.Plays arrivals) :
    source.Delivers (supply arrivals).1 (supply arrivals).2 := by
  suffices within : ∀ reads, (arrivals.flatMap Arrival.piece).length + arrivals.length < reads →
      DeliversWithin reads source (supply arrivals).1 (supply arrivals).2 from
    ⟨_, within _ (Nat.lt_succ_self _)⟩
  intro reads
  induction reads generalizing source arrivals with
  | zero => intro impossible; contradiction
  | succ reads ih =>
    intro bound room wanted
    cases arrivals with
    | nil =>
      obtain ⟨after, read⟩ := plays.read_nil room
      rw [read]
      exact ⟨rfl, rfl⟩
    | cons arrival later =>
      rw [List.flatMap_cons, List.length_append, List.length_cons] at bound
      cases arrival with
      | interrupted =>
        obtain ⟨after, read, others⟩ := plays.read_of_nil rfl room
        rw [read]
        have rest := ih others (by omega)
        exact rest
      | failed fault =>
        obtain ⟨after, read, -⟩ := plays.read_of_nil rfl room
        rw [read]
        exact ⟨rfl, rfl⟩
      | bytes piece =>
        by_cases none : piece = []
        · subst none
          obtain ⟨after, read, -⟩ := plays.read_of_nil rfl room
          rw [read]
          exact ⟨rfl, rfl⟩
        · obtain ⟨after, read, others⟩ := plays.read_of_piece none room
          change piece.length + (later.flatMap Arrival.piece).length + (later.length + 1) <
            reads + 1 at bound
          have positive : 0 < piece.length := List.length_pos_iff.mpr none
          have brings : 0 < (piece.take room).length := by
            rw [List.length_take]
            omega
          obtain ⟨first, rest, parts⟩ := List.exists_cons_of_length_pos brings
          rw [read, parts, supply_of_ne_nil none]
          by_cases short : room < piece.length
          · have left : piece.drop room ≠ [] := by
              rw [ne_eq, List.drop_eq_nil_iff]
              exact Nat.not_le.mpr short
            rw [if_pos short] at others
            have fewer : ((Arrival.bytes (piece.drop room) :: later).flatMap Arrival.piece).length +
                (Arrival.bytes (piece.drop room) :: later).length < reads := by
              rw [List.flatMap_cons, List.length_append, List.length_cons]
              change (piece.drop room).length + _ + _ < _
              rw [List.length_drop]
              omega
            have rest_within := ih others fewer
            rw [supply_of_ne_nil left] at rest_within
            refine ⟨_, ?_, rest_within⟩
            rw [← parts, ← List.append_assoc, List.take_append_drop]
          · rw [if_neg short] at others
            have rest_within := ih others (by omega)
            refine ⟨_, ?_, rest_within⟩
            rw [← parts, List.take_of_length_le (Nat.not_lt.mp short)]

/-- A read that is interrupted leaves a source that is as calm, and any other goes as it does
without interruptions. -/
theorem read_calm {source after : Source} {room : Nat} {arrival : Arrival}
    (arrived : source.read room = (arrival, after)) :
    if arrival = .interrupted then after.calm = source.calm
    else source.calm.read room = (arrival, after.calm) := by
  obtain ⟨data, position, replies, limit, fault⟩ := source
  cases replies with
  | nil =>
    have calm_read : (⟨data, position, [], limit, fault⟩ : Source).calm.read room =
      (arrival, after) := arrived
    have quiet : arrival ≠ .interrupted ∧ after.calm = after := by
      unfold read at arrived
      dsimp only at arrived
      split at arrived
      · split at arrived
        · obtain ⟨rfl, rfl⟩ := Prod.mk.inj arrived
          exact ⟨by simp, rfl⟩
        · obtain ⟨rfl, rfl⟩ := Prod.mk.inj arrived
          exact ⟨by simp, rfl⟩
      · obtain ⟨rfl, rfl⟩ := Prod.mk.inj arrived
        exact ⟨by simp, rfl⟩
    rw [if_neg quiet.1, quiet.2, calm_read]
  | cons reply later =>
    cases reply with
    | upTo count =>
      obtain ⟨rfl, rfl⟩ := Prod.mk.inj arrived
      rw [if_neg (by simp)]
      by_cases short : room < count
      · simp [calm, read, take, short]
      · simp [calm, read, take, short]
    | nothing =>
      obtain ⟨rfl, rfl⟩ := Prod.mk.inj arrived
      rw [if_neg (by simp)]
      rfl
    | interrupted =>
      obtain ⟨rfl, rfl⟩ := Prod.mk.inj arrived
      rw [if_pos rfl]
      rfl
    | failed reason =>
      obtain ⟨rfl, rfl⟩ := Prod.mk.inj arrived
      rw [if_neg (by simp)]
      rfl

/-- Interruptions change nothing of how a length is filled. -/
theorem fill_calm (source : Source) (length : Nat) :
    source.calm.fill length =
      ((source.fill length).1, (source.fill length).2.1, (source.fill length).2.2.calm) := by
  fun_induction fill source length with
  | case1 source =>
    unfold fill
    rw [if_pos rfl]
  | case2 source length wanted after arrived =>
    have read := read_calm arrived
    rw [if_neg (by simp)] at read
    unfold fill
    rw [if_neg wanted, read]
  | case3 source length wanted first rest after arrived more ending last filled ih =>
    have read := read_calm arrived
    rw [if_neg (by simp)] at read
    unfold fill
    rw [if_neg wanted, read]
    dsimp only
    rw [ih, filled]
  | case4 source length wanted after arrived ih =>
    have read := read_calm arrived
    rw [if_pos rfl] at read
    rw [← read, ih]
  | case5 source length wanted reason after arrived =>
    have read := read_calm arrived
    rw [if_neg (by simp)] at read
    unfold fill
    rw [if_neg wanted, read]

/-- Filling a buffer does not depend on how the bytes arrive, but only on which arrive before the
source first ends or fails. Reads may go in any way listed, and what is listed is then delivered. If
enough bytes are delivered, the buffer is filled with the first of them, and the source has moved by
no more than these and delivers the rest. If the source ends before, the bytes are at the front of
the buffer, with the rest of it as it was, and their number is told; if it fails before, its fault
is told. Without the interruptions all goes as with them. -/
theorem fillBuffer_of_any_arrival (buffer : List UInt8) :
    (∀ arrivals, (playing arrivals).Delivers (supply arrivals).1 (supply arrivals).2) ∧
      (∀ (source : Source) bytes fault, source.Delivers bytes fault →
        (buffer.length ≤ bytes.length → ∃ after,
          source.fillBuffer buffer =
              (bytes.take buffer.length, .ok (false, buffer.length), after) ∧
            after.data = source.data ∧ after.position = source.position + buffer.length ∧
            after.Delivers (bytes.drop buffer.length) fault) ∧
        (bytes.length < buffer.length → fault = none → ∃ after,
          source.fillBuffer buffer =
            (bytes ++ buffer.drop bytes.length, .ok (true, bytes.length), after)) ∧
        ∀ reason, bytes.length < buffer.length → fault = some reason → ∃ after,
          source.fillBuffer buffer =
            (bytes ++ buffer.drop bytes.length, .error reason, after)) ∧
      ∀ source : Source, source.calm.fillBuffer buffer =
        ((source.fillBuffer buffer).1, (source.fillBuffer buffer).2.1,
          (source.fillBuffer buffer).2.2.calm) := by
  refine ⟨fun arrivals => Plays.delivers ⟨rfl, rfl, rfl⟩, fun source bytes fault delivers => ?_,
    fun source => ?_⟩
  · obtain ⟨after, filled, data, position, goes_on⟩ := fill_of_delivers delivers buffer.length
    refine ⟨fun enough => ⟨after, ?_, data, ?_, goes_on enough⟩, fun few ended => ⟨after, ?_⟩,
      fun reason few failed => ⟨after, ?_⟩⟩
    · rw [fillBuffer, filled, if_pos enough]
      dsimp only
      rw [List.length_take_of_le enough]
    · rw [position, List.length_take_of_le enough]
    · subst ended
      rw [fillBuffer, filled, if_neg (Nat.not_le.mpr few),
        List.take_of_length_le (Nat.le_of_lt few)]
      rfl
    · subst failed
      rw [fillBuffer, filled, if_neg (Nat.not_le.mpr few),
        List.take_of_length_le (Nat.le_of_lt few)]
      rfl
  · rw [fillBuffer, fillBuffer, fill_calm]
    obtain ⟨bytes, ending, after⟩ := source.fill buffer.length
    cases ending <;> rfl

example :
    ((playing [.bytes [1, 2], .interrupted, .bytes [3, 4]]).fillBuffer [0, 0, 0]).1 =
      [1, 2, 3] := by
  cbv

end Source

end Trajectory
