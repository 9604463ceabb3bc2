import Trajectory.IoError
/-!
# Sources read piecemeal

A source holds bytes and a position, and answers a read as it likes: with fewer bytes than
asked for, with an interruption that changes nothing, as if it were at its end, or with a fault.
How the coming reads go is listed in `replies`; when the list is used up, a read gives as many
bytes as are left, up to a limit. `Source.fill` reads until a length is reached or the source
runs dry, and passes over interruptions.
-/
namespace Trajectory

/-- How a source answers one read. -/
inductive Reply where
  /-- At most this many bytes; what one read leaves of them is for the next. -/
  | upTo (count : Nat)
  /-- No bytes, as at the end. -/
  | nothing
  /-- An interruption, after which the read may be repeated. -/
  | interrupted
  /-- A fault. -/
  | failed (fault : IoError)
  deriving DecidableEq, Repr

/-- Bytes read from a position on, and how the reads go. -/
structure Source where
  /-- All the bytes there are. -/
  data : List UInt8
  /-- Position of the next read. -/
  position : Nat
  /-- How the coming reads go, in order. -/
  replies : List Reply
  /-- Most bytes of one read after those; all that is asked for without a limit. -/
  limit : Option Nat
  /-- Reads after those, from a position on, fail. -/
  fault : Option (Nat × IoError)
  deriving DecidableEq, Repr

/-- What one read brings. -/
inductive Arrival where
  /-- The bytes read, none at the end of the source. -/
  | bytes (piece : List UInt8)
  /-- Nothing yet. -/
  | interrupted
  /-- A fault. -/
  | failed (fault : IoError)
  deriving DecidableEq, Repr

/-- How filling a buffer ends. -/
inductive Filling where
  /-- The whole length was read. -/
  | full
  /-- The source ran dry first. -/
  | dry
  /-- A read failed first. -/
  | failed (fault : IoError)
  deriving DecidableEq, Repr

namespace Source

/-- A source of plain bytes, which reads as far as asked. -/
def ofBytes (data : List UInt8) : Source := ⟨data, 0, [], none, none⟩

/-- Move to a position, which may lie past the end. -/
def seek (source : Source) (position : Nat) : Source := { source with position := position }

/-- The next bytes, and the source after them. -/
def take (source : Source) (count : Nat) : Arrival × Source :=
  let piece := (source.data.drop source.position).take count
  (.bytes piece, { source with position := source.position + piece.length })

/-- Read once, with room for a number of bytes. -/
def read (source : Source) (room : Nat) : Arrival × Source :=
  match source.replies with
  | .upTo count :: later =>
    { source with replies := if room < count then .upTo (count - room) :: later else later }.take
      (min count room)
  | .nothing :: later => (.bytes [], { source with replies := later })
  | .interrupted :: later => (.interrupted, { source with replies := later })
  | .failed fault :: later => (.failed fault, { source with replies := later })
  | [] =>
    match source.fault with
    | some (start, fault) =>
      if start ≤ source.position then (.failed fault, source)
      else source.take (source.limit.elim room (min · room))
    | none => source.take (source.limit.elim room (min · room))

/-- An interruption uses up a reply. -/
theorem length_replies_of_interrupted {source after : Source} {room : Nat}
    (interrupted : source.read room = (.interrupted, after)) :
    after.replies.length < source.replies.length := by
  unfold read at interrupted
  split at interrupted
  case h_3 later listed => simp_all [← (Prod.mk.inj interrupted).2]
  case h_5 =>
    split at interrupted
    · split at interrupted <;> simp [take] at interrupted
    · simp [take] at interrupted
  all_goals simp [take] at interrupted

/-- Read until a length is reached or the source runs dry: the bytes read, how it ended, and
the source afterwards. -/
def fill (source : Source) (length : Nat) : List UInt8 × Filling × Source :=
  if length = 0 then ([], .full, source)
  else
    match _arrival : source.read length with
    | (.bytes [], after) => ([], .dry, after)
    | (.bytes (first :: rest), after) =>
      let (later, ending, last) := fill after (length - (first :: rest).length)
      (first :: rest ++ later, ending, last)
    | (.interrupted, after) => fill after length
    | (.failed fault, after) => ([], .failed fault, after)
termination_by (length, source.replies.length)
decreasing_by
  · apply Prod.Lex.left
    simp only [List.length_cons]
    omega
  · exact Prod.Lex.right _ (length_replies_of_interrupted ‹_›)

/-- Fill a buffer from its front: the buffer afterwards, whether the source ran dry and how many
bytes were read, or the fault, and the source afterwards. What is not reached stays as it was. -/
def fillBuffer (source : Source) (buffer : List UInt8) :
    List UInt8 × Except IoError (Bool × Nat) × Source :=
  match source.fill buffer.length with
  | (bytes, .full, after) => (bytes, .ok (false, bytes.length), after)
  | (bytes, .dry, after) =>
    (bytes ++ buffer.drop bytes.length, .ok (true, bytes.length), after)
  | (bytes, .failed fault, after) => (bytes ++ buffer.drop bytes.length, .error fault, after)

/-- Read an exact length or fail. -/
def readExact (source : Source) (length : Nat) : Except IoError (List UInt8) × Source :=
  match source.fill length with
  | (bytes, .full, after) => (.ok bytes, after)
  | (_, .dry, after) => (.error .unexpectedEnd, after)
  | (_, .failed fault, after) => (.error fault, after)

/-- A source of plain bytes gives what is there, as far as asked. -/
theorem read_plain (data : List UInt8) (position room : Nat) :
    (⟨data, position, [], none, none⟩ : Source).read room =
      (.bytes ((data.drop position).take room),
        ⟨data, position + ((data.drop position).take room).length, [], none, none⟩) := rfl

/-- Filling from plain bytes takes what is there, and runs dry if that is too little. -/
theorem fill_plain (data : List UInt8) (position length : Nat) :
    (⟨data, position, [], none, none⟩ : Source).fill length =
      ((data.drop position).take length,
        if ((data.drop position).take length).length = length then .full else .dry,
        ⟨data, position + ((data.drop position).take length).length, [], none, none⟩) := by
  have dry (start wanted : Nat) (some_wanted : wanted ≠ 0) (passed : data.length ≤ start) :
      (⟨data, start, [], none, none⟩ : Source).fill wanted =
        ([], .dry, ⟨data, start, [], none, none⟩) := by
    unfold fill
    rw [if_neg some_wanted, read_plain, List.drop_of_length_le passed, List.take_nil]
    rfl
  by_cases nothing : length = 0
  · subst nothing
    unfold fill
    simp
  · have missing : ¬ 0 = length := fun same => nothing same.symm
    cases piece : (data.drop position).take length with
    | nil =>
      have passed : data.length ≤ position := by simpa [nothing] using piece
      simp [dry position length nothing passed, missing]
    | cons first rest =>
      have bound : (first :: rest).length ≤ length := piece ▸ List.length_take_le ..
      unfold fill
      rw [if_neg nothing, read_plain, piece]
      dsimp only
      by_cases whole : (first :: rest).length = length
      · rw [if_pos whole, whole, Nat.sub_self]
        unfold fill
        simp
      · have short : (first :: rest).length < length := Nat.lt_of_le_of_ne bound whole
        have size := congrArg List.length piece
        rw [List.length_take, List.length_drop] at size
        rw [if_neg whole, dry _ _ (by omega) (by omega)]
        simp

/-- Reading an exact length from plain bytes gives the bytes there if they are enough. -/
theorem readExact_plain (data : List UInt8) (position length : Nat) :
    (⟨data, position, [], none, none⟩ : Source).readExact length =
      (if ((data.drop position).take length).length = length then
          .ok ((data.drop position).take length)
        else .error .unexpectedEnd,
        ⟨data, position + ((data.drop position).take length).length, [], none, none⟩) := by
  unfold readExact
  rw [fill_plain]
  by_cases whole : ((data.drop position).take length).length = length
  · simp only [if_pos whole]
  · simp only [if_neg whole]

end Source

end Trajectory
