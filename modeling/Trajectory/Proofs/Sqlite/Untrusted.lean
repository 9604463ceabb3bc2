import Trajectory.Proofs.Archive.Opened
import Trajectory.Proofs.Sqlite.Listing
/-!
# Reading rows of any kind

The two tables of a database may hold rows that no archive wrote: sizes and levels that do not agree
with the pieces, or pieces that do not decode. A read puts the pieces of a path together as its row
says, and reports the row as corrupt where they do not make up exactly the recorded size. A level
that is unknown is noticed with the first piece, or by the size: where there is no piece and the
size is zero, it is not noticed.
-/
namespace Trajectory.Sqlite

/-- Pieces are decoded to parts, one after the other, each into what is left of a space. -/
inductive InTurn {ε : Type} (decode : Nat → List UInt8 → Except ε (List UInt8)) :
    Nat → List (List UInt8) → List (List UInt8) → Prop where
  /-- No piece is left. -/
  | done (space : Nat) : InTurn decode space [] []
  /-- A piece is decoded, and then the others. -/
  | next {space : Nat} {piece part : List UInt8} {pieces parts : List (List UInt8)}
    (decoded : decode space piece = .ok part)
    (later : InTurn decode (space - part.length) pieces parts) :
    InTurn decode space (piece :: pieces) (part :: parts)

namespace InTurn

variable {ε η : Type} {decode : Nat → List UInt8 → Except ε (List UInt8)} {space : Nat}
  {pieces parts others : List (List UInt8)}

/-- Decoders that give the same parts give them in turn. -/
theorem mono {other : Nat → List UInt8 → Except η (List UInt8)}
    (same : ∀ space piece part, decode space piece = .ok part → other space piece = .ok part)
    (turn : InTurn decode space pieces parts) : InTurn other space pieces parts := by
  induction turn with
  | done space => exact .done space
  | next decoded later ih => exact .next (same _ _ _ decoded) ih

/-- Pieces are decoded in one way at most. -/
theorem unique (turn : InTurn decode space pieces parts)
    (again : InTurn decode space pieces others) : parts = others := by
  induction turn generalizing others with
  | done space =>
    cases again with
    | done => rfl
  | next decoded later ih =>
    cases again with
    | next decoded_again later_again =>
      obtain rfl := Except.ok.inj (decoded.symm.trans decoded_again)
      rw [ih later_again]

end InTurn

/-- Pieces are put together from the parts that they decode to in turn, if these have the size in
all. -/
theorem assemble_eq_ok_iff {level : Int} {size : Nat} {found bytes : List UInt8}
    {pieces : List (List UInt8)} :
    assemble level size found pieces = .ok bytes ↔
      ∃ parts, InTurn (decodePiece level) (size - found.length) pieces parts ∧
        found ++ parts.flatten = bytes ∧ bytes.length = size := by
  induction pieces generalizing found with
  | nil =>
    rw [assemble]
    constructor
    · intro whole
      split at whole
      · next filled =>
        obtain rfl := Except.ok.inj whole
        exact ⟨[], .done _, List.append_nil _, filled⟩
      · contradiction
    · rintro ⟨parts, turn, rfl, filled⟩
      cases turn with
      | done =>
        rw [List.flatten_nil, List.append_nil] at filled ⊢
        rw [if_pos filled]
  | cons piece later ih =>
    rw [assemble]
    cases decoded : decodePiece level (size - found.length) piece with
    | error fault =>
      constructor
      · intro whole
        contradiction
      · rintro ⟨parts, turn, -⟩
        cases turn with
        | next decoded_again => simp [decoded] at decoded_again
    | ok part =>
      dsimp only
      have left : size - (found ++ part).length = size - found.length - part.length := by
        rw [List.length_append]
        omega
      rw [ih, left]
      constructor
      · rintro ⟨parts, turn, rfl, filled⟩
        exact ⟨part :: parts, .next decoded turn,
          by rw [List.flatten_cons, List.append_assoc], filled⟩
      · rintro ⟨parts, turn, rfl, filled⟩
        cases turn with
        | next decoded_again turn =>
          obtain rfl := Except.ok.inj (decoded.symm.trans decoded_again)
          exact ⟨_, turn, by rw [List.flatten_cons, List.append_assoc], filled⟩

/-- A piece that is stored as it is decodes to itself, if there is room. -/
theorem decodePiece_raw {space : Nat} {piece part : List UInt8} :
    decodePiece rawLevel space piece = .ok part ↔ piece = part ∧ piece.length ≤ space := by
  rw [decodePiece, if_pos rfl]
  split
  · next longer => simp [Nat.not_le.mpr longer]
  · next fits => simp [Nat.not_lt.mp fits]

/-- A piece that is a block decodes as the block does. -/
theorem decodePiece_block {space : Nat} {piece part : List UInt8} :
    decodePiece lz4Level space piece = .ok part ↔ Lz4.decode space piece = .ok part := by
  rw [decodePiece, if_neg (by decide), if_pos rfl]
  cases Lz4.decode space piece with
  | ok bytes => simp
  | error error => simp

/-- Pieces that are stored as they are decode to themselves in turn, if there is room for all. -/
theorem inTurn_raw {space : Nat} {pieces parts : List (List UInt8)} :
    InTurn (decodePiece rawLevel) space pieces parts ↔
      pieces = parts ∧ pieces.flatten.length ≤ space := by
  induction pieces generalizing space parts with
  | nil =>
    constructor
    · intro turn
      cases turn with
      | done => exact ⟨rfl, Nat.zero_le _⟩
    · rintro ⟨rfl, -⟩
      exact .done space
  | cons piece later ih =>
    rw [List.flatten_cons, List.length_append]
    constructor
    · intro turn
      cases turn with
      | next decoded turn =>
        obtain ⟨rfl, fits⟩ := decodePiece_raw.mp decoded
        obtain ⟨rfl, others_fit⟩ := ih.mp turn
        exact ⟨rfl, by omega⟩
    · rintro ⟨rfl, fit⟩
      exact .next (decodePiece_raw.mpr ⟨rfl, by omega⟩) (ih.mpr ⟨rfl, by omega⟩)

/-- Blocks decode in turn as the decoder of blocks does it. -/
theorem inTurn_blocks {space : Nat} {pieces parts : List (List UInt8)} :
    InTurn (decodePiece lz4Level) space pieces parts ↔ InTurn Lz4.decode space pieces parts :=
  ⟨.mono fun _ _ _ => decodePiece_block.mp, .mono fun _ _ _ => decodePiece_block.mpr⟩

/-- Pieces of an unknown level decode in turn only where there are none. -/
theorem inTurn_unknown {level : Int} (not_raw : level ≠ rawLevel) (not_block : level ≠ lz4Level)
    {space : Nat} {pieces parts : List (List UInt8)} :
    InTurn (decodePiece level) space pieces parts ↔ pieces = [] ∧ parts = [] := by
  constructor
  · intro turn
    cases turn with
    | done => exact ⟨rfl, rfl⟩
    | next decoded =>
      rw [decodePiece, if_neg not_raw, if_neg not_block] at decoded
      contradiction
  · rintro ⟨rfl, rfl⟩
    exact .done space

/-- The contents of a row with a size are put together from the parts that its pieces decode to. -/
theorem contents_eq_ok_iff {size level : Int} {pieces : List (List UInt8)} {bytes : List UInt8} :
    contents size level pieces = .ok bytes ↔
      ∃ parts, InTurn (decodePiece level) size.toNat pieces parts ∧ parts.flatten = bytes ∧
        (bytes.length : Int) = size := by
  rw [contents]
  split
  · next negative =>
    constructor
    · intro whole
      contradiction
    · rintro ⟨parts, -, -, filled⟩
      omega
  · next sized =>
    rw [assemble_eq_ok_iff]
    have same (bytes : List UInt8) : bytes.length = size.toNat ↔ (bytes.length : Int) = size := by
      omega
    simp only [List.length_nil, Nat.sub_zero, List.nil_append, same]

namespace Database

variable {rows : Database}

/-- A row is that of its path. -/
theorem file?_of_mem {row : FileRow} (listed : row ∈ rows.fileRows) :
    rows.file? row.path = some row := by
  cases found : rows.file? row.path with
  | none =>
    have absent := List.find?_eq_none.mp found row listed
    simp at absent
  | some other =>
    have accepted := List.find?_some found
    have same : other.path = row.path := of_decide_eq_true accepted
    exact congrArg some (List.inj_on_of_nodup_map rows.distinct
      (List.mem_of_find?_eq_some found) listed same)

/-- The pieces of a path are its piece rows in the order of their numbers, where each has a number
of its own. -/
theorem pieces_eq {path : String} {numbered : List PieceRow}
    (all : numbered.Perm (rows.pieceRows.filter (·.path = path)))
    (ascending : numbered.Pairwise (·.index < ·.index)) : rows.pieces path = numbered := by
  have perm : (rows.pieces path).Perm numbered := (List.mergeSort_perm _ _).trans all.symm
  have sorted : (rows.pieces path).Pairwise (·.index ≤ ·.index) := by
    refine (List.pairwise_mergeSort (fun first second third => ?_) (fun first second => ?_) _).imp
      fun ordered => of_decide_eq_true ordered
    · simp only [decide_eq_true_eq]
      omega
    · simp only [Bool.or_eq_true, decide_eq_true_eq]
      omega
  refine List.Perm.eq_of_pairwise (fun first second first_in second_in le ge => ?_) sorted
    (ascending.imp Int.le_of_lt) perm
  have same : first.index = second.index := Int.le_antisymm le ge
  have nodup : (numbered.map (·.index)).Nodup := (List.pairwise_map.mpr ascending).imp Int.ne_of_lt
  exact List.inj_on_of_nodup_map nodup (perm.subset first_in) second_in same

/-- The entry of a path with a row is what the pieces of the path make up as the row says. -/
theorem entry_of_mem {row : FileRow} (listed : row ∈ rows.fileRows) {numbered : List PieceRow}
    (all : numbered.Perm (rows.pieceRows.filter (·.path = row.path)))
    (ascending : numbered.Pairwise (·.index < ·.index)) :
    rows.entry row.path = contents row.size row.level (numbered.map (·.contents)) := by
  rw [entry, file?_of_mem listed, pieces_eq all ascending]

/-- A read gives contents if these are the entry of the path. -/
theorem reading_eq_ok_iff {path : String} {bytes : List UInt8} :
    rows.reading path = .ok bytes ↔ rows.entry path = .ok bytes := by
  rw [reading]
  cases rows.entry path <;> simp [Except.mapError]

/-- A read that gives no contents reports that they are corrupt. -/
theorem corrupt_of_ne_ok {path : String} (fails : ∀ bytes, rows.reading path ≠ .ok bytes) :
    ∃ fault, rows.reading path = .error (.corrupt (.contents path fault)) := by
  cases found : rows.entry path with
  | ok bytes => exact absurd (reading_eq_ok_iff.mpr found) (fails bytes)
  | error fault =>
    rw [reading, found]
    exact ⟨fault, rfl⟩

end Database

namespace Session

/-- A session that is open reads in some rows: those it finds in its file, or those of its batch. -/
structure ReadsIn (session : Session) (volume : Volume) (rows : Database) : Prop where
  /-- It is open. -/
  isOpen : session.archive.closed = false
  /-- The rows are what it comes to see. -/
  sees : ∃ committed settled, session.committed volume = (.ok committed, settled) ∧
    session.archive.view committed = rows

variable {session : Session} {volume : Volume} {rows : Database}

/-- What a session reads is what its rows say. -/
theorem ReadsIn.read (readsIn : session.ReadsIn volume rows) (path : String) :
    (session.read volume path).1 = rows.reading path := by
  obtain ⟨committed, settled, found, rfl⟩ := readsIn.sees
  rw [Session.read, readsIn.isOpen, if_neg Bool.false_ne_true, found]
  exact Archive.read_of_open readsIn.isOpen committed path

/-- A session that was started for reading reads in the rows of its file. -/
theorem readsIn_of_start {file : String} {sizes : PieceSizes} {after : Volume}
    (started : start volume file .read sizes = (.ok session, after))
    (stored : after.content session.connection.number = .database rows) :
    session.ReadsIn after rows := by
  obtain ⟨connection, between, found_rows, -, found, rfl⟩ := start_cases started
  have looked : connection.look between fileTable = (.ok found_rows, after) := found
  have steady := Connection.steady_of_look looked
  obtain rfl : found_rows = rows := Content.database.inj (steady.content.symm.trans stored)
  exact ⟨rfl, found_rows, after, steady.look rfl rfl fileTable, rfl⟩

/-- What reading a path gives that has a row, whatever the rows. A negative size is corrupt. So is
an unknown level, but for one that is noticed neither by a piece nor by the size. Pieces stored as
they are, in the order of their numbers, are the contents if their lengths sum up to the size, and
blocks if each decodes into the space that is left and what they decode to sums up to it; otherwise
the entry is corrupt. -/
theorem read_of_any_rows (readsIn : session.ReadsIn volume rows) {row : FileRow}
    (listed : row ∈ rows.fileRows) {numbered : List PieceRow}
    (all : numbered.Perm (rows.pieceRows.filter (·.path = row.path)))
    (ascending : numbered.Pairwise (·.index < ·.index)) :
    let pieces := numbered.map (·.contents)
    let answer := ((Trajectory.Archive.sqlite session).read volume row.path).1
    let Corrupt := ∃ fault, answer = .error (.corrupt (.contents row.path fault))
    (row.size < 0 → Corrupt) ∧
      (row.level ≠ rawLevel → row.level ≠ lz4Level →
        if row.size = 0 ∧ pieces = [] then answer = .ok [] else Corrupt) ∧
      (row.level = rawLevel →
        if pieces.flatten.length = row.size then answer = .ok pieces.flatten else Corrupt) ∧
      (row.level = lz4Level →
        (∀ parts, InTurn Lz4.decode row.size.toNat pieces parts →
          if parts.flatten.length = row.size then answer = .ok parts.flatten else Corrupt) ∧
        ((∀ parts, ¬ InTurn Lz4.decode row.size.toNat pieces parts) → Corrupt)) := by
  intro pieces answer Corrupt
  have reads : answer = rows.reading row.path := readsIn.read row.path
  have ok_iff (bytes : List UInt8) : answer = .ok bytes ↔
      ∃ parts, InTurn (decodePiece row.level) row.size.toNat pieces parts ∧
        parts.flatten = bytes ∧ (bytes.length : Int) = row.size := by
    rw [reads, Database.reading_eq_ok_iff, Database.entry_of_mem listed all ascending,
      contents_eq_ok_iff]
  have corrupt (fails : ∀ bytes, answer ≠ .ok bytes) : Corrupt := by
    obtain ⟨fault, reported⟩ := Database.corrupt_of_ne_ok (reads ▸ fails)
    exact ⟨fault, reads.trans reported⟩
  have decide_by {parts : List (List UInt8)}
      (turn : InTurn (decodePiece row.level) row.size.toNat pieces parts) :
      if parts.flatten.length = row.size then answer = .ok parts.flatten else Corrupt := by
    split
    · next filled => exact (ok_iff _).mpr ⟨parts, turn, rfl, filled⟩
    · next missing =>
      refine corrupt fun bytes ok => ?_
      obtain ⟨others, again, rfl, filled⟩ := (ok_iff bytes).mp ok
      exact missing (turn.unique again ▸ filled)
  refine ⟨fun negative => corrupt fun bytes ok => ?_, fun not_raw not_block => ?_,
    fun raw => ?_, fun block => ⟨fun parts turn => ?_, fun undecoded => corrupt fun bytes ok => ?_⟩⟩
  · obtain ⟨-, -, -, filled⟩ := (ok_iff bytes).mp ok
    omega
  · split
    · next nothing =>
      obtain ⟨empty, none⟩ := nothing
      exact (ok_iff []).mpr
        ⟨[], (inTurn_unknown not_raw not_block).mpr ⟨none, rfl⟩, rfl, empty.symm⟩
    · next something =>
      refine corrupt fun bytes ok => something ?_
      obtain ⟨parts, turn, rfl, filled⟩ := (ok_iff bytes).mp ok
      obtain ⟨none, rfl⟩ := (inTurn_unknown not_raw not_block).mp turn
      exact ⟨filled.symm, none⟩
  · by_cases fits : pieces.flatten.length ≤ row.size.toNat
    · exact decide_by (raw ▸ inTurn_raw.mpr ⟨rfl, fits⟩)
    · have longer : ¬ (pieces.flatten.length : Int) = row.size := by omega
      rw [if_neg longer]
      refine corrupt fun bytes ok => ?_
      obtain ⟨parts, turn, -⟩ := (ok_iff bytes).mp ok
      exact fits (inTurn_raw.mp (raw ▸ turn)).2
  · exact decide_by (block ▸ inTurn_blocks.mpr turn)
  · obtain ⟨parts, turn, -⟩ := (ok_iff bytes).mp ok
    exact undecoded parts (inTurn_blocks.mp (block ▸ turn))

/-- Two blocks with numbers against the order of their rows, which make up the size together. -/
theorem read_of_any_rows_blocks :
    ∃ session volume, start ⟨[(["t.sqlite"], .file 0)], [.database
        ⟨[⟨"a", 5, 7, 1⟩], [⟨"a", [0x20, 4, 5], 9⟩, ⟨"a", [0x30, 1, 2, 3], -1⟩], by decide⟩],
          [], 0⟩ "t.sqlite" .read .standard = (.ok session, volume) ∧
      ((Trajectory.Archive.sqlite session).read volume "a").1 = .ok [1, 2, 3, 4, 5] := by
  let row : FileRow := ⟨"a", 5, 7, 1⟩
  let rows : Database :=
    ⟨[row], [⟨"a", [0x20, 4, 5], 9⟩, ⟨"a", [0x30, 1, 2, 3], -1⟩], by decide⟩
  let volume : Volume := ⟨[(["t.sqlite"], .file 0)], [.database rows], [], 0⟩
  let session : Session :=
    ⟨"t.sqlite", ⟨0, some "t.sqlite", false⟩, .ofDatabase .read .standard rows⟩
  have started : start volume "t.sqlite" .read .standard = (.ok session, volume) := by
    decide +kernel
  have readsIn : session.ReadsIn volume rows := readsIn_of_start started rfl
  have turn : InTurn Lz4.decode 5 [[0x30, 1, 2, 3], [0x20, 4, 5]] [[1, 2, 3], [4, 5]] :=
    .next (by decide) (.next (by decide) (.done _))
  obtain ⟨-, -, -, blocks⟩ := @read_of_any_rows session volume rows readsIn row
    (by decide) [⟨"a", [0x30, 1, 2, 3], -1⟩, ⟨"a", [0x20, 4, 5], 9⟩] (by decide) (by decide)
  exact ⟨session, volume, started, (blocks rfl).1 _ turn⟩

/-- An unknown level is not always noticed: without pieces, an entry of size zero reads as empty. -/
theorem unknown_level_read_as_empty :
    ¬ ∀ {session : Session} {volume : Volume} {rows : Database} {row : FileRow},
      session.ReadsIn volume rows → row ∈ rows.fileRows →
      row.level ≠ rawLevel → row.level ≠ lz4Level →
      ∃ fault, ((Trajectory.Archive.sqlite session).read volume row.path).1 =
        .error (.corrupt (.contents row.path fault)) := by
  intro noticed
  let row : FileRow := ⟨"a", 0, 0, 7⟩
  let rows : Database := ⟨[row], [], by decide⟩
  let volume : Volume := ⟨[(["t.sqlite"], .file 0)], [.database rows], [], 0⟩
  let session : Session :=
    ⟨"t.sqlite", ⟨0, some "t.sqlite", false⟩, .ofDatabase .read .standard rows⟩
  have started : start volume "t.sqlite" .read .standard = (.ok session, volume) := by
    decide +kernel
  obtain ⟨fault, reported⟩ := @noticed session volume rows row
    (readsIn_of_start started rfl) (by decide) (by decide) (by decide)
  have empty : ((Trajectory.Archive.sqlite session).read volume "a").1 = .ok [] := by
    decide +kernel
  rw [empty] at reported
  contradiction

end Session

end Trajectory.Sqlite
