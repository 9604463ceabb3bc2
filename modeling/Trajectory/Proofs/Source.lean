import Trajectory.Source
/-!
# Sources that hold nothing back

A reliable source answers every read with an interruption or with a byte at least, as long as
there are any. Where it cuts its bytes into reads makes no difference to what is read from it: a
length is filled with the bytes that come next, and runs dry only where they end.
-/
namespace Trajectory

/-- An answer that changes nothing, or brings a byte at least. -/
def Reply.Brings : Reply → Prop
  | .upTo count => 0 < count
  | .interrupted => True
  | .nothing | .failed _ => False

namespace Source

/-- A source that ends only where its bytes do, and never fails. -/
structure Reliable (source : Source) : Prop where
  /-- No reply ends the source early. -/
  replies : ∀ reply ∈ source.replies, reply.Brings
  /-- Nor does a read after those. -/
  limit : source.limit ≠ some 0
  /-- No read fails. -/
  fault : source.fault = none

/-- Moving to a position changes nothing of how reads go. -/
theorem Reliable.seek {source : Source} (reliable : source.Reliable) (position : Nat) :
    (source.seek position).Reliable :=
  ⟨reliable.replies, reliable.limit, reliable.fault⟩

/-- The source of the same bytes, a number of them further on, and as reliable. -/
structure Advances (source : Source) (count : Nat) (after : Source) : Prop where
  /-- It holds nothing back. -/
  reliable : after.Reliable
  /-- It has the same bytes. -/
  data : after.data = source.data
  /-- It has moved by as many bytes as were read. -/
  position : after.position = source.position + count

/-- The bytes that come next. -/
def coming (source : Source) : List UInt8 := source.data.drop source.position

/-- Behind a piece, the bytes that come next are those that came after it. -/
theorem Advances.coming {source after : Source} {count : Nat}
    (advances : source.Advances count after) : after.coming = source.coming.drop count := by
  rw [Source.coming, advances.data, advances.position, ← List.drop_drop, Source.coming]

/-- Advancing twice is advancing by both. -/
theorem Advances.trans {source between after : Source} {count more : Nat}
    (first : source.Advances count between) (second : between.Advances more after) :
    source.Advances (count + more) after where
  reliable := second.reliable
  data := second.data.trans first.data
  position := by rw [second.position, first.position, Nat.add_assoc]

/-- Taking the next bytes goes behind them. -/
theorem advances_take {source : Source} (reliable : source.Reliable) (count : Nat) :
    ∃ after, source.take count = (.bytes (source.coming.take count), after) ∧
      source.Advances (source.coming.take count).length after :=
  ⟨_, rfl, ⟨reliable.replies, reliable.limit, reliable.fault⟩, rfl, rfl⟩

/-- Answers after the first bring bytes too if all of them do. -/
theorem Reliable.later {source : Source} (reliable : source.Reliable) {reply : Reply}
    {later : List Reply} (listed : source.replies = reply :: later) :
    reply.Brings ∧ ({ source with replies := later } : Source).Reliable := by
  have all := reliable.replies
  rw [listed] at all
  have others := fun other member => all other (List.mem_cons_of_mem _ member)
  exact ⟨all reply List.mem_cons_self, others, reliable.limit, reliable.fault⟩

/-- A read of a reliable source is interrupted, or brings the next bytes, one at least if there
are any. -/
theorem read_of_reliable {source : Source} (reliable : source.Reliable) {room : Nat}
    (wanted : 0 < room) :
    (∃ after, source.read room = (.interrupted, after) ∧ source.Advances 0 after) ∨
      ∃ count after, 0 < count ∧ count ≤ room ∧
        source.read room = (.bytes (source.coming.take count), after) ∧
        source.Advances (source.coming.take count).length after := by
  cases listed : source.replies with
  | nil =>
    have some_bytes : 0 < source.limit.elim room (min · room) := by
      cases bound : source.limit with
      | none => exact wanted
      | some most =>
        have positive : most ≠ 0 := fun zero => reliable.limit (zero ▸ bound)
        exact Nat.lt_min.mpr ⟨Nat.pos_of_ne_zero positive, wanted⟩
    have within : source.limit.elim room (min · room) ≤ room := by
      cases source.limit with
      | none => exact Nat.le_refl _
      | some most => exact Nat.min_le_right ..
    obtain ⟨after, taken, advances⟩ := advances_take reliable (source.limit.elim room (min · room))
    refine .inr ⟨_, after, some_bytes, within, ?_, advances⟩
    simp only [read, listed, reliable.fault, taken]
  | cons reply later =>
    obtain ⟨brings, others⟩ := reliable.later listed
    cases reply with
    | interrupted =>
      refine .inl ⟨{ source with replies := later }, ?_, others, rfl, rfl⟩
      simp only [read, listed]
    | upTo most =>
      have some_bytes : 0 < most := brings
      have left : Reliable { source with
          replies := if room < most then .upTo (most - room) :: later else later } := by
        refine ⟨fun reply member => ?_, reliable.limit, reliable.fault⟩
        dsimp only at member
        split at member
        · next more =>
          cases List.mem_cons.mp member with
          | inl same => exact same ▸ Nat.sub_pos_of_lt more
          | inr other => exact others.replies reply other
        · exact others.replies reply member
      obtain ⟨after, taken, advances⟩ := advances_take left (min most room)
      refine .inr ⟨_, after, Nat.lt_min.mpr ⟨some_bytes, wanted⟩, Nat.min_le_right .., ?_,
        advances.reliable, advances.data, advances.position⟩
      simp only [read, listed]
      exact taken
    | nothing => exact brings.elim
    | failed fault => exact brings.elim

/-- An interruption leaves a reliable source where it is. -/
theorem advances_of_interrupted {source after : Source} (reliable : source.Reliable) {room : Nat}
    (wanted : 0 < room) (arrived : source.read room = (.interrupted, after)) :
    source.Advances 0 after := by
  rcases read_of_reliable reliable wanted with ⟨between, read, advances⟩ | ⟨_, _, _, _, read, _⟩
  · rw [(Prod.mk.inj (arrived.symm.trans read)).2]
    exact advances
  · exact absurd (arrived.symm.trans read) (by simp)

/-- A piece read from a reliable source is what comes next, and empty only at the end. -/
theorem advances_of_bytes {source after : Source} (reliable : source.Reliable) {room : Nat}
    (wanted : 0 < room) {piece : List UInt8} (arrived : source.read room = (.bytes piece, after)) :
    piece.length ≤ room ∧ source.coming = piece ++ after.coming ∧
      (piece = [] → source.coming = []) ∧ source.Advances piece.length after := by
  rcases read_of_reliable reliable wanted with
    ⟨_, read, _⟩ | ⟨count, between, some_bytes, within, read, advances⟩
  · exact absurd (arrived.symm.trans read) (by simp)
  · obtain ⟨same, rfl⟩ := Prod.mk.inj (arrived.symm.trans read)
    obtain rfl := Arrival.bytes.inj same
    have short : (source.coming.take count).length ≤ count := List.length_take_le ..
    refine ⟨Nat.le_trans short within, ?_, fun none => ?_, advances⟩
    · rw [advances.coming, List.length_take, List.take_eq_take_min, List.take_append_drop]
    · exact (List.take_eq_nil_iff.mp none).resolve_left (Nat.ne_of_gt some_bytes)

/-- A reliable source does not fail. -/
theorem read_ne_failed {source after : Source} (reliable : source.Reliable) {room : Nat}
    (wanted : 0 < room) (fault : IoError) : source.read room ≠ (.failed fault, after) := by
  intro failed
  rcases read_of_reliable reliable wanted with ⟨_, read, _⟩ | ⟨_, _, _, _, read, _⟩
  · exact absurd (failed.symm.trans read) (by simp)
  · exact absurd (failed.symm.trans read) (by simp)

/-- A length is filled from a reliable source with the bytes that come next, however it cuts
them; it runs dry exactly if they are too few. -/
theorem fill_of_reliable {source : Source} (reliable : source.Reliable) (length : Nat) :
    ∃ after, source.fill length =
        (source.coming.take length,
          if (source.coming.take length).length = length then .full else .dry, after) ∧
      source.Advances (source.coming.take length).length after := by
  fun_induction fill source length with
  | case1 source => exact ⟨source, by simp, reliable, rfl, by simp⟩
  | case2 source length wanted after arrived =>
    obtain ⟨-, -, ended, advances⟩ :=
      advances_of_bytes reliable (Nat.pos_of_ne_zero wanted) arrived
    rw [ended rfl, List.take_nil, List.length_nil, if_neg (Ne.symm wanted)]
    exact ⟨after, rfl, advances⟩
  | case3 source length wanted first rest after arrived later ending last filled ih =>
    obtain ⟨within, parts, -, advances⟩ :=
      advances_of_bytes reliable (Nat.pos_of_ne_zero wanted) arrived
    obtain ⟨stop, further, goes⟩ := ih advances.reliable
    obtain ⟨rfl, outcome⟩ := Prod.mk.inj (filled.symm.trans further)
    obtain ⟨rfl, rfl⟩ := Prod.mk.inj outcome
    have taken : source.coming.take length =
        first :: rest ++ after.coming.take (length - (first :: rest).length) := by
      rw [parts, List.take_append, List.take_of_length_le within]
    rw [taken, List.length_append]
    refine ⟨last, ?_, advances.trans goes⟩
    have whole (more : Nat) : more = length - (first :: rest).length ↔
        (first :: rest).length + more = length := by omega
    simp only [whole]
  | case4 source length wanted after arrived ih =>
    have advances := advances_of_interrupted reliable (Nat.pos_of_ne_zero wanted) arrived
    obtain ⟨stop, filled, further⟩ := ih advances.reliable
    rw [advances.coming, List.drop_zero] at filled further
    have all := advances.trans further
    rw [Nat.zero_add] at all
    exact ⟨stop, filled, all⟩
  | case5 source length wanted fault after arrived =>
    exact absurd arrived (read_ne_failed reliable (Nat.pos_of_ne_zero wanted) fault)

/-- An exact length is read from a reliable source exactly if so many bytes come next. -/
theorem readExact_of_reliable {source : Source} (reliable : source.Reliable) (length : Nat) :
    (source.readExact length).1 =
      if length ≤ source.coming.length then .ok (source.coming.take length)
      else .error .unexpectedEnd := by
  obtain ⟨after, filled, -⟩ := fill_of_reliable reliable length
  have whole : (source.coming.take length).length = length ↔ length ≤ source.coming.length := by
    rw [List.length_take]
    omega
  rw [readExact, filled]
  by_cases enough : length ≤ source.coming.length
  · simp only [if_pos (whole.mpr enough), if_pos enough]
  · simp only [if_neg fun same => enough (whole.mp same), if_neg enough]

end Source

end Trajectory
