import Trajectory.Proofs.Ledger
import Trajectory.Proofs.Tar.Scan
import Trajectory.Proofs.Tar.Spelling
/-!
# Images of tar archives

An archive is its body, which ends where its last entry does, and whatever follows. Writing
continues it: the bytes of the new items go behind the body, two blocks of zeros end the archive,
and a scan finds the entries there were and then the new ones.
-/
namespace Trajectory.Tar

/-- Contents written under a path at a time. -/
structure Item where
  /-- The path. -/
  path : String
  /-- The contents. -/
  contents : List UInt8
  /-- The time of writing. -/
  time : Nat
  deriving DecidableEq, Repr

namespace Item

/-- What a ledger keeps of an item. -/
def written (item : Item) : String × List UInt8 := (item.path, item.contents)

/-- The bytes of an item: header, contents and padding; none if it can have no header. -/
def bytes (item : Item) : List UInt8 :=
  match Header.encode item.path item.contents.length item.time with
  | .ok header => header ++ item.contents ++ Bytes.zeros (paddingLength item.contents.length)
  | .error _ => []

/-- An item has a header. -/
def Fits (item : Item) : Prop :=
  ∃ header, Header.encode item.path item.contents.length item.time = .ok header

/-- The item that is read back: its header spells the path. -/
def spelled (item : Item) : Item := { item with path := Header.restored item.path }

/-- An item has a header, from which its path is read back. -/
def Sound (item : Item) : Prop :=
  Header.Plain item.path ∧
    ∃ header, Header.encode item.path item.contents.length item.time = .ok header

/-- An item has a header exactly if its path and its contents are short enough. -/
theorem fits_iff (item : Item) :
    item.Fits ↔ (Utf8.encode item.path).length ≤ 254 ∧ item.contents.length < 8 * 2 ^ 30 := by
  have limits : Header.nameWidth + Header.leadLimit = 254 ∧ Header.numberLimit = 8 * 2 ^ 30 := by
    decide
  have fits := @Header.encode_ok_iff item.path item.contents.length item.time
  rwa [limits.1, limits.2] at fits

/-- An item is read back as it is exactly if a header can spell its path. -/
theorem spelled_eq_iff {item : Item} : item.spelled = item ↔ Header.Faithful item.path := by
  rw [← Header.restored_eq_iff]
  constructor
  · exact fun same => congrArg Item.path same
  · intro same
    rw [spelled, same]

/-- An item whose path is read back is read back as it is. -/
theorem spelled_of_sound {item : Item} (sound : item.Sound) : item.spelled = item := by
  exact spelled_eq_iff.mpr (Header.faithful_of_plain sound.1)

/-- The bytes of an item that has a header. -/
theorem bytes_of_encode {item : Item} {header : List UInt8}
    (encoded : Header.encode item.path item.contents.length item.time = .ok header) :
    item.bytes =
      header ++ item.contents ++ Bytes.zeros (paddingLength item.contents.length) := by
  rw [bytes, encoded]

/-- The runs of an entry are the bytes of its item. -/
theorem flatten_entryRuns {item : Item} {header : List UInt8}
    (encoded : Header.encode item.path item.contents.length item.time = .ok header) :
    (entryRuns header item.contents).flatten = item.bytes := by
  rw [bytes_of_encode encoded, entryRuns]
  simp

/-- An item that has a header takes the bytes of an entry. -/
theorem length_bytes {item : Item} {header : List UInt8}
    (encoded : Header.encode item.path item.contents.length item.time = .ok header) :
    item.bytes.length = entryLength item.contents.length := by
  rw [bytes_of_encode encoded, List.length_append, List.length_append, Bytes.length_zeros,
    Header.length_encode encoded, entryLength]

/-- An item that has a header takes some bytes. -/
theorem bytes_ne_nil {item : Item} {header : List UInt8}
    (encoded : Header.encode item.path item.contents.length item.time = .ok header) :
    item.bytes ≠ [] := by
  intro none
  have length := length_bytes encoded
  rw [none, List.length_nil, entryLength, blockLength] at length
  omega

end Item

/-- The runs that end an archive are two blocks of zeros. -/
theorem flatten_closingRuns : closingRuns.flatten = Bytes.zeros closingSize := by
  rw [closingRuns, List.flatten_cons, List.flatten_singleton, Bytes.zeros_append]
  rfl

/-- What an entry of an archive holds. -/
def Entry.held (data : List UInt8) (entry : Entry) : String × List UInt8 :=
  (entry.path, (data.drop entry.offset).take entry.size)

/-- What the entries of an archive hold, in order. -/
def stored (data : List UInt8) : Ledger :=
  (scan (.ofBytes data)).entries.map fun found => found.1.held data

/-- An archive up to the end of its last entry; padding that is missing is filled in. -/
def body (data : List UInt8) : List UInt8 :=
  Bytes.resize data (scan (.ofBytes data)).scanner.offset

/-- The body of an archive takes the bytes of its entries, each with its padding. -/
theorem length_body (data : List UInt8) :
    (body data).length =
      ((scan (.ofBytes data)).entries.map fun found => entryLength found.1.size).sum := by
  rw [body, Bytes.length_resize, (trail_scan data).1.stop_eq, Nat.zero_add]

/-- What the entries of an archive hold once its body is filled in: contents that end early go on
in zeros. -/
def filled (data : List UInt8) : Ledger :=
  (scan (.ofBytes data)).entries.map fun found => found.1.held (body data)

/-- An archive whose scan meets no fault, and whose entries have all their contents. -/
structure Intact (data : List UInt8) : Prop where
  /-- The scan meets no fault. -/
  scanned : ∀ error, (scan (.ofBytes data)).ending ≠ .failed error
  /-- The contents of every entry lie inside the file. -/
  complete : ∀ found ∈ (scan (.ofBytes data)).entries,
    found.1.offset + found.1.size ≤ data.length

/-- An archive continues another with items that were written to it. -/
structure Continues (first : List UInt8) (items : List Item) (data : List UInt8) : Prop where
  /-- It can be read. -/
  intact : Intact data
  /-- It holds what the other held, and then the items. -/
  stored : stored data = Tar.stored first ++ items.map Item.written
  /-- Its body is that of the other, with the bytes of the items behind it. -/
  body : body data = Tar.body first ++ items.flatMap Item.bytes

/-- An archive continues itself with nothing. -/
theorem Continues.refl {data : List UInt8} (intact : Intact data) : Continues data [] data :=
  ⟨intact, (List.append_nil _).symm, (List.append_nil _).symm⟩

/-- Continuing twice is continuing with the items of both. -/
theorem Continues.trans {first second third : List UInt8} {items later : List Item}
    (one : Continues first items second) (two : Continues second later third) :
    Continues first (items ++ later) third := by
  refine ⟨two.intact, ?_, ?_⟩
  · rw [two.stored, one.stored, List.map_append, List.append_assoc]
  · rw [two.body, one.body, List.flatMap_append, List.append_assoc]

/-- Nothing is stored in an empty file. -/
theorem scan_nil : ∃ after, scan (.ofBytes []) =
    ⟨[], .finished none, ⟨⟨[], after, [], none, none⟩, 0, true⟩⟩ :=
  scan_of_trail (.here 0) fun _ same => nomatch same

/-- An empty file is intact. -/
theorem intact_nil : Intact [] := by
  obtain ⟨after, scanned⟩ := scan_nil
  constructor
  · rw [scanned]
    intro error
    simp
  · rw [scanned]
    intro found member
    contradiction

/-- An empty file holds nothing. -/
theorem filled_nil : filled [] = [] := by
  obtain ⟨after, scanned⟩ := scan_nil
  rw [filled, scanned]
  rfl

/-- A block of zeros ends a scan. -/
theorem findingAt_zeros {data : List UInt8} {offset : Nat}
    (zeros : (data.drop offset).take blockLength = Bytes.zeros blockLength) :
    findingAt data offset = .finished none := by
  have blank : (Bytes.zeros blockLength).all (· = 0) = true := by
    simp [Bytes.zeros]
  have ended : Header.decode (Bytes.zeros blockLength) offset = .ok none := by
    rw [Header.decode, if_pos blank]
  unfold findingAt
  dsimp only
  rw [zeros, if_pos (Bytes.length_zeros _), Scanner.classify, ended]

/-- Where its header is, a scan finds an item, under the path that the header spells. -/
theorem findingAt_header {data header : List UInt8} {offset time size : Nat} {path : String}
    (encoded : Header.encode path size time = .ok header)
    (block : (data.drop offset).take blockLength = header) :
    findingAt data offset = .entry ⟨Header.restored path, offset + blockLength, size⟩ := by
  unfold findingAt
  dsimp only
  rw [block, if_pos (Header.length_encode encoded), Scanner.classify,
    Header.decode_encode encoded offset]

/-- The bytes of items are a trail of entries that hold what was written, as it is spelled. -/
theorem trail_items {data : List UInt8} {items : List Item} {offset : Nat}
    (fits : ∀ item ∈ items, item.Fits)
    (present : Bytes.At data offset (items.flatMap Item.bytes)) :
    ∃ entries, Trail data offset entries (offset + (items.flatMap Item.bytes).length) ∧
      entries.map (fun found => found.1.held data) =
        items.map (fun item => item.spelled.written) ∧
      ∀ found ∈ entries, found.1.offset + found.1.size ≤ data.length := by
  induction items generalizing offset with
  | nil => exact ⟨[], .here _, rfl, fun _ member => nomatch member⟩
  | cons item later ih =>
    obtain ⟨header, encoded⟩ := fits item List.mem_cons_self
    have block := Header.length_encode encoded
    have length := Item.length_bytes encoded
    rw [List.flatMap_cons] at present ⊢
    have first := present.left
    rw [Item.bytes_of_encode encoded] at first
    have contents := first.left.right
    rw [block] at contents
    have found := findingAt_header encoded (block ▸ first.left.left.slice)
    obtain ⟨entries, trail, holds, inside⟩ :=
      ih (fun other member => fits other (List.mem_cons_of_mem _ member)) present.right
    rw [length, Nat.add_assoc] at trail
    rw [List.length_append, length]
    refine ⟨_, .step found trail, ?_, ?_⟩
    · rw [List.map_cons, List.map_cons, holds]
      refine congrArg (· :: _) ?_
      rw [Item.written, Item.spelled, Entry.held, contents.slice]
    · intro other member
      cases List.mem_cons.mp member with
      | inl same =>
        rw [same]
        exact contents.le_length
      | inr later => exact inside other later

/-- Contents inside an archive and its body are where they were in whatever begins with the body. -/
theorem slice_body {data : List UInt8} {offset size : Nat} (inside : offset + size ≤ data.length)
    (before : offset + size ≤ (scan (.ofBytes data)).scanner.offset) (rest : List UInt8) :
    ((body data ++ rest).drop offset).take size = (data.drop offset).take size := by
  have within : offset + size ≤ (body data).length := by
    rw [body, Bytes.length_resize]
    exact before
  rw [Bytes.slice_append _ within, body, Bytes.slice_resize inside before]

/-- Two blocks of zeros end the scan of what goes before them. -/
theorem findingAt_closing (data : List UInt8) :
    findingAt (data ++ Bytes.zeros closingSize) data.length = .finished none := by
  have zeros : Bytes.zeros closingSize = Bytes.zeros blockLength ++ Bytes.zeros blockLength := by
    rw [Bytes.zeros_append]
    rfl
  have closing : Bytes.At (data ++ Bytes.zeros closingSize) data.length
      (Bytes.zeros blockLength ++ Bytes.zeros blockLength) :=
    ⟨data, [], by rw [List.append_nil, zeros], rfl⟩
  have first := closing.left.slice
  rw [Bytes.length_zeros] at first
  exact findingAt_zeros first

/-- A scan of the body of an archive, the bytes of items and two blocks of zeros finds the entries
of the archive and then those of the items. -/
theorem scan_continued (first : List UInt8) {items : List Item}
    (fits : ∀ item ∈ items, item.Fits) :
    let data := body first ++ items.flatMap Item.bytes ++ Bytes.zeros closingSize
    ∃ new after, scan (.ofBytes data) =
        ⟨(scan (.ofBytes first)).entries ++ new, .finished none, ⟨⟨data, after, [], none, none⟩,
          (body first).length + (items.flatMap Item.bytes).length, true⟩⟩ ∧
      new.map (fun found => found.1.held data) = items.map (fun item => item.spelled.written) ∧
      ∀ found ∈ new, found.1.offset + found.1.size ≤ data.length := by
  intro data
  have length : (body first).length = (scan (.ofBytes first)).scanner.offset :=
    Bytes.length_resize _ _
  have parts : data = body first ++ (items.flatMap Item.bytes ++ Bytes.zeros closingSize) :=
    List.append_assoc ..
  have old := (trail_scan first).1.congr fun offset inside before =>
    parts ▸ slice_body inside before (items.flatMap Item.bytes ++ Bytes.zeros closingSize)
  have present : Bytes.At data (body first).length (items.flatMap Item.bytes) :=
    ⟨body first, Bytes.zeros closingSize, parts, rfl⟩
  obtain ⟨new, trail, holds, inside⟩ := trail_items fits present
  have closing : findingAt data ((body first).length + (items.flatMap Item.bytes).length) =
      .finished none := by
    rw [← List.length_append]
    exact findingAt_closing _
  rw [length] at trail closing
  have ended : ∀ entry, findingAt data ((scan (.ofBytes first)).scanner.offset +
      (items.flatMap Item.bytes).length) ≠ .entry entry := by
    intro entry
    rw [closing]
    exact nofun
  obtain ⟨after, scanned⟩ := scan_of_trail (old.append trail) ended
  rw [closing] at scanned
  refine ⟨new, after, ?_, holds, inside⟩
  rw [scanned, length]

/-- What an archive holds once its body is filled in is what it held, if nothing was missing. -/
theorem filled_of_intact {data : List UInt8} (intact : Intact data) :
    filled data = stored data := by
  refine List.map_congr_left fun found listed => ?_
  have before := (trail_scan data).1.extent_le listed
  have same := slice_body (intact.complete found listed) before []
  rw [List.append_nil] at same
  rw [Entry.held, Entry.held, same]

/-- The body of an archive, whatever it was cut off at, with items behind it and two blocks of
zeros is an archive without faults. It holds the contents there were, filled in, and the items as
they are spelled. -/
theorem intact_closed (first : List UInt8) {items : List Item}
    (fits : ∀ item ∈ items, item.Fits) :
    let data := body first ++ items.flatMap Item.bytes ++ Bytes.zeros closingSize
    Intact data ∧ (scan (.ofBytes data)).ending = .finished none ∧
      stored data = filled first ++ items.map (fun item => item.spelled.written) ∧
      body data = body first ++ items.flatMap Item.bytes := by
  intro data
  obtain ⟨new, after, (scanned : scan (.ofBytes data) = _),
    (holds : new.map (fun found => found.1.held data) = _), inside⟩ := scan_continued first fits
  have parts : data = body first ++ (items.flatMap Item.bytes ++ Bytes.zeros closingSize) :=
    List.append_assoc ..
  have in_body : ∀ found ∈ (scan (.ofBytes first)).entries,
      found.1.offset + found.1.size ≤ (body first).length := by
    intro found listed
    rw [body, Bytes.length_resize]
    exact (trail_scan first).1.extent_le listed
  refine ⟨⟨?_, ?_⟩, ?_, ?_, ?_⟩
  · intro error
    simp [scanned]
  · rw [scanned]
    intro found member
    cases List.mem_append.mp member with
    | inl listed =>
      have longer : (body first).length ≤ data.length := by
        rw [parts, List.length_append]
        exact Nat.le_add_right _ _
      exact Nat.le_trans (in_body found listed) longer
    | inr added => exact inside found added
  · rw [scanned]
  · rw [stored, scanned, List.map_append, holds, filled]
    refine congrArg (· ++ _) (List.map_congr_left fun found listed => ?_)
    rw [Entry.held, Entry.held, parts, Bytes.slice_append _ (in_body found listed)]
  · rw [body, scanned]
    dsimp only
    have within : (body first ++ items.flatMap Item.bytes).length ≤ data.length :=
      (List.prefix_append _ (Bytes.zeros closingSize)).length_le
    rw [← List.length_append, Bytes.resize_of_le within]
    exact List.take_left

/-- Behind the body of an archive, the bytes of sound items and two blocks of zeros continue it. -/
theorem continues_body {first : List UInt8} (intact : Intact first) {items : List Item}
    (sound : ∀ item ∈ items, item.Sound) :
    let data := body first ++ items.flatMap Item.bytes ++ Bytes.zeros closingSize
    Continues first items data ∧ (scan (.ofBytes data)).ending = .finished none := by
  intro data
  obtain ⟨whole, ending, holds, same_body⟩ :=
    intact_closed first fun item member => (sound item member).2
  have spelled : items.map (fun item => item.spelled.written) = items.map Item.written := by
    refine List.map_congr_left fun item member => ?_
    rw [Item.spelled_of_sound (sound item member)]
  rw [filled_of_intact intact, spelled] at holds
  exact ⟨⟨whole, holds, same_body⟩, ending⟩

end Trajectory.Tar
