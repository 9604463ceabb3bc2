import Trajectory.Proofs.Sink
import Trajectory.Proofs.Source
import Trajectory.Proofs.Tar.Image
/-!
# Archives that are cut off

What was appended to a sink is found again by a scan, wherever the archive is cut off and however
its source cuts the bytes into reads. Exactly the entries whose headers are there whole are found,
in order and without a fault, and each is read if its contents are there too.
-/
namespace Trajectory.Tar

open Scanner

/-- A step of a scan looks at the block at its offset, however a reliable source cuts it. -/
theorem find_of_reliable {scanner : Scanner} (reliable : scanner.source.Reliable) :
    ∃ after, scanner.find = (findingAt scanner.source.data scanner.offset, after) ∧
      after.Reliable ∧ after.data = scanner.source.data := by
  obtain ⟨after, filled, advances⟩ :=
    Source.fill_of_reliable (reliable.seek scanner.offset) blockLength
  refine ⟨after, ?_, advances.reliable, advances.data⟩
  have coming : (scanner.source.seek scanner.offset).coming =
      scanner.source.data.drop scanner.offset := rfl
  rw [find, filled, coming]
  unfold findingAt
  dsimp only
  by_cases whole : ((scanner.source.data.drop scanner.offset).take blockLength).length =
      blockLength
  · rw [if_pos whole, if_pos whole]
  · rw [if_neg whole, if_neg whole]
    cases (scanner.source.data.drop scanner.offset).take blockLength with
    | nil => rfl
    | cons first rest => rfl

/-- A step goes on behind an entry that it finds, and stops at anything else. -/
theorem next_of_reliable {source : Source} (reliable : source.Reliable) (offset : Nat) :
    ∃ after, next ⟨source, offset, false⟩ =
        (match findingAt source.data offset with
        | .entry found => (.entry found, ⟨after, offset + entryLength found.size, false⟩)
        | finding => (finding, ⟨after, offset, true⟩)) ∧
      after.Reliable ∧ after.data = source.data := by
  obtain ⟨after, found, still, same⟩ := @find_of_reliable ⟨source, offset, false⟩ reliable
  refine ⟨after, ?_, still, same⟩
  simp only [next, Bool.false_eq_true, ↓reduceIte, found]
  cases findingAt source.data offset <;> rfl

/-- Steps through a reliable source find what steps through its bytes find. -/
theorem run_of_reliable (steps : Nat) {source : Source} (reliable : source.Reliable)
    (position offset : Nat) :
    let plain := run steps ⟨⟨source.data, position, [], none, none⟩, offset, false⟩
    ∃ after, run steps ⟨source, offset, false⟩ =
        { plain with scanner := { plain.scanner with source := after } } ∧
      after.Reliable ∧ after.data = source.data := by
  induction steps generalizing source position offset with
  | zero => exact ⟨source, rfl, reliable, rfl⟩
  | succ steps ih =>
    obtain ⟨after, cut_step, still, same⟩ := next_of_reliable reliable offset
    obtain ⟨behind, step⟩ := next_plain source.data position offset
    rw [run, run, step, cut_step]
    cases findingAt source.data offset with
    | entry entry =>
      obtain ⟨last, rest, further, kept⟩ := ih still behind (offset + entryLength entry.size)
      rw [same] at rest kept
      refine ⟨last, ?_, further, kept⟩
      simp only [rest]
    | finished warning => exact ⟨after, rfl, still, same⟩
    | failed error => exact ⟨after, rfl, still, same⟩

/-- A scan of a reliable source finds what a scan of its bytes finds. -/
theorem scan_of_reliable {source : Source} (reliable : source.Reliable) :
    let plain := scan (.ofBytes source.data)
    ∃ after, scan source = { plain with scanner := { plain.scanner with source := after } } ∧
      after.Reliable ∧ after.data = source.data :=
  run_of_reliable (source.data.length / blockLength + 1) reliable 0 0

/-- The contents of an entry are read from a reliable source exactly if they are there whole. -/
theorem readContents_of_reliable {source : Source} (reliable : source.Reliable) (entry : Entry) :
    (readContents source entry).1 =
      if entry.size ≤ (source.data.drop entry.offset).length then
        .ok ((source.data.drop entry.offset).take entry.size)
      else .error .unexpectedEnd :=
  Source.readExact_of_reliable (reliable.seek entry.offset) entry.size

/-- A trail ends behind its last entry, or where it began. -/
theorem Trail.stop_eq_last {data : List UInt8} {start stop : Nat} {entries : List (Entry × Nat)}
    (trail : Trail data start entries stop) : stop = entries.getLast?.elim start (·.2) := by
  induction trail with
  | here offset => rfl
  | @step offset stop found later entry rest ih =>
    rw [List.getLast?_cons, Option.elim_some, ih]
    cases later.getLast? with
    | none => rfl
    | some last => rfl

/-- Items with the offsets of their headers, the first at an offset. -/
def layout (offset : Nat) : List Item → List (Item × Nat)
  | [] => []
  | item :: later =>
    (item, offset) :: layout (offset + entryLength item.contents.length) later

/-- The entry of an item whose header is at an offset, and its end. -/
def Item.entryAt (item : Item) (offset : Nat) : Entry × Nat :=
  (⟨item.path, offset + blockLength, item.contents.length⟩,
    offset + entryLength item.contents.length)

/-- Headers laid out from an offset on are there or behind. -/
theorem le_of_mem_layout {items : List Item} {start : Nat} {placed : Item × Nat}
    (member : placed ∈ layout start items) : start ≤ placed.2 := by
  induction items generalizing start with
  | nil => contradiction
  | cons item later ih =>
    cases List.mem_cons.mp member with
    | inl first => exact first ▸ Nat.le_refl _
    | inr other => exact Nat.le_trans (Nat.le_add_right _ _) (ih other)

/-- Only items of a list are laid out. -/
theorem mem_of_mem_layout {items : List Item} {start : Nat} {placed : Item × Nat}
    (member : placed ∈ layout start items) : placed.1 ∈ items := by
  induction items generalizing start with
  | nil => contradiction
  | cons item later ih =>
    cases List.mem_cons.mp member with
    | inl first => exact first ▸ List.mem_cons_self
    | inr other => exact List.mem_cons_of_mem _ (ih other)

/-- The bytes of each item are where it is laid out. -/
theorem at_of_mem_layout {data : List UInt8} {items : List Item} {start : Nat}
    (fits : ∀ item ∈ items, item.Fits) (present : Bytes.At data start (items.flatMap Item.bytes))
    {placed : Item × Nat} (member : placed ∈ layout start items) :
    Bytes.At data placed.2 placed.1.bytes := by
  induction items generalizing start with
  | nil => contradiction
  | cons first later ih =>
    obtain ⟨header, encoded⟩ := fits first List.mem_cons_self
    rw [List.flatMap_cons] at present
    cases List.mem_cons.mp member with
    | inl same => exact same ▸ present.left
    | inr other =>
      have behind := present.right
      rw [Item.length_bytes encoded] at behind
      exact ih (fun item listed => fits item (List.mem_cons_of_mem _ listed)) behind other

/-- The laid out items whose headers end before a cut. -/
def layoutBefore (cut offset : Nat) (items : List Item) : List (Item × Nat) :=
  (layout offset items).filter fun placed => placed.2 + blockLength ≤ cut

/-- A scan ends without a fault where there is no whole block. -/
theorem findingAt_of_short {data : List UInt8} {offset : Nat}
    (short : data.length < offset + blockLength) :
    ∃ warning, findingAt data offset = .finished warning := by
  have part : ((data.drop offset).take blockLength).length ≠ blockLength := by
    rw [List.length_take, List.length_drop]
    have positive : 0 < blockLength := by decide
    omega
  unfold findingAt
  dsimp only
  rw [if_neg part]
  split
  · exact ⟨_, rfl⟩
  · exact ⟨_, rfl⟩

/-- Where an archive has at most its end, a scan of what is left of it ends without a fault. -/
theorem findingAt_cut {whole : List UInt8} {offset : Nat} (cut : Nat)
    (closing : whole.drop offset = [] ∨ whole.drop offset = Bytes.zeros closingSize) :
    ∃ warning, findingAt (whole.take cut) offset = .finished warning := by
  by_cases short : (whole.take cut).length < offset + blockLength
  · exact findingAt_of_short short
  · have inside : offset + blockLength ≤ (whole.take cut).length := Nat.not_lt.mp short
    have block := Bytes.slice_of_prefix (List.take_prefix cut whole) inside
    cases closing with
    | inl ended =>
      have size := congrArg List.length block
      rw [ended, Bytes.length_slice inside, List.take_nil, List.length_nil] at size
      contradiction
    | inr zeros =>
      rw [zeros, ← List.drop_zero (l := Bytes.zeros closingSize), Bytes.slice_zeros] at block
      exact ⟨none, findingAt_zeros block.symm⟩

/-- The scan of an archive that is cut off follows the items whose headers are there, and ends
without a fault behind them. -/
theorem trail_cut {whole tail : List UInt8} {items : List Item} {offset : Nat} (cut : Nat)
    (fits : ∀ item ∈ items, item.Fits) (faithful : ∀ item ∈ items, Header.Faithful item.path)
    (closing : tail = [] ∨ tail = Bytes.zeros closingSize)
    (parts : whole.drop offset = items.flatMap Item.bytes ++ tail) :
    ∃ stop warning, Trail (whole.take cut) offset
        ((layoutBefore cut offset items).map fun placed => placed.1.entryAt placed.2) stop ∧
      findingAt (whole.take cut) stop = .finished warning := by
  induction items generalizing offset with
  | nil =>
    rw [List.flatMap_nil, List.nil_append] at parts
    obtain ⟨warning, ended⟩ := findingAt_cut cut (parts ▸ closing)
    exact ⟨offset, warning, .here offset, ended⟩
  | cons item later ih =>
    obtain ⟨header, encoded⟩ := fits item List.mem_cons_self
    rw [List.flatMap_cons, List.append_assoc] at parts
    by_cases there : offset + blockLength ≤ cut
    · have length := Item.length_bytes encoded
      have block : ((whole.take cut).drop offset).take blockLength = header := by
        rw [List.drop_take, List.take_take, Nat.min_eq_left (by omega), parts,
          Item.bytes_of_encode encoded, List.append_assoc, List.append_assoc,
          List.take_left' (Header.length_encode encoded)]
      have found := findingAt_header encoded block
      rw [Header.restored_of_faithful (faithful item List.mem_cons_self)] at found
      have behind : whole.drop (offset + entryLength item.contents.length) =
          later.flatMap Item.bytes ++ tail := by
        rw [← List.drop_drop, parts, ← length, List.drop_left]
      obtain ⟨stop, warning, trail, ended⟩ :=
        ih (fun other member => fits other (List.mem_cons_of_mem _ member))
          (fun other member => faithful other (List.mem_cons_of_mem _ member)) behind
      refine ⟨stop, warning, ?_, ended⟩
      rw [layoutBefore, layout, List.filter_cons_of_pos (by simpa using there), List.map_cons]
      exact .step found trail
    · -- The headers of the items behind are not there either.
      have none : layoutBefore cut offset (item :: later) = [] := by
        refine List.filter_eq_nil_iff.mpr fun placed member => ?_
        have behind := le_of_mem_layout member
        simp only [decide_eq_true_eq]
        omega
      have short : (whole.take cut).length < offset + blockLength := by
        rw [List.length_take]
        omega
      obtain ⟨warning, ended⟩ := findingAt_of_short short
      exact ⟨offset, warning, none ▸ .here offset, ended⟩

/-- Append items to a sink in order: those that were taken, and the sink afterwards. -/
def appendAll (sink : Sink) : List Item → List Item × Sink
  | [] => ([], sink)
  | item :: later =>
    match append sink item.path item.contents item.time with
    | (.ok _, after) => (item :: (appendAll after later).1, (appendAll after later).2)
    | (.error _, after) => appendAll after later

/-- The items that were taken into an archive, finished or not, and its bytes. -/
def build (items : List Item) (finished : Bool) : List Item × List UInt8 :=
  let (taken, sink) := appendAll (.empty none) items
  (taken, (if finished then (finish sink).2 else sink).received)

/-- The items whose paths and contents are short enough for a header. -/
def shortItems (items : List Item) : List Item :=
  items.filter fun item =>
    (Utf8.encode item.path).length ≤ 254 ∧ item.contents.length < 8 * 2 ^ 30

/-- Short items have a header. -/
theorem fits_of_mem_shortItems {items : List Item} {item : Item}
    (member : item ∈ shortItems items) : item.Fits :=
  item.fits_iff.mpr (of_decide_eq_true (List.mem_filter.mp member).2)

/-- A sink without a limit takes everything. -/
theorem writeAll_unlimited (received : List UInt8) (runs : List (List UInt8)) :
    (⟨received, none⟩ : Sink).writeAll runs = (.ok (), ⟨received ++ runs.flatten, none⟩) := by
  rw [Sink.writeAll_eq_write, Sink.write_unlimited]

/-- Exactly the short items are taken, and their bytes follow each other. -/
theorem appendAll_unlimited (received : List UInt8) (items : List Item) :
    appendAll ⟨received, none⟩ items =
      (shortItems items, ⟨received ++ (shortItems items).flatMap Item.bytes, none⟩) := by
  induction items generalizing received with
  | nil => rw [appendAll, shortItems, List.filter_nil, List.flatMap_nil, List.append_nil]
  | cons item later ih =>
    rw [appendAll, append]
    cases encoded : Header.encode item.path item.contents.length item.time with
    | ok header =>
      have short : shortItems (item :: later) = item :: shortItems later :=
        List.filter_cons_of_pos (decide_eq_true (item.fits_iff.mp ⟨header, encoded⟩))
      dsimp only
      rw [writeAll_unlimited, Item.flatten_entryRuns encoded]
      dsimp only
      rw [ih, short, List.flatMap_cons, List.append_assoc]
    | error limit =>
      have long : ¬ item.Fits := by
        rintro ⟨header, fits⟩
        have impossible := encoded.symm.trans fits
        contradiction
      have left_out : shortItems (item :: later) = shortItems later :=
        List.filter_cons_of_neg fun short => long (item.fits_iff.mpr (of_decide_eq_true short))
      dsimp only
      rw [ih, left_out]

/-- An archive is the bytes of the items taken, and two blocks of zeros if it is finished. -/
theorem build_eq (items : List Item) (finished : Bool) :
    build items finished = (shortItems items, (shortItems items).flatMap Item.bytes ++
      if finished then Bytes.zeros closingSize else []) := by
  rw [build, Sink.empty, appendAll_unlimited, List.nil_append]
  cases finished with
  | false => simp
  | true => simp only [finish, writeAll_unlimited, flatten_closingRuns, ↓reduceIte]

/-- The contents of each item taken are behind the header that it was laid out with. -/
theorem contents_of_mem_layout {items : List Item} {finished : Bool} {placed : Item × Nat}
    (member : placed ∈ layout 0 (build items finished).1) :
    Bytes.At (build items finished).2 (placed.2 + blockLength) placed.1.contents := by
  rw [build_eq] at member ⊢
  have fits : ∀ item ∈ shortItems items, item.Fits := fun _ => fits_of_mem_shortItems
  have present : Bytes.At ((shortItems items).flatMap Item.bytes ++
      if finished then Bytes.zeros closingSize else []) 0 ((shortItems items).flatMap Item.bytes) :=
    ⟨[], _, rfl, rfl⟩
  have bytes := at_of_mem_layout fits present member
  obtain ⟨header, encoded⟩ := fits placed.1 (mem_of_mem_layout member)
  rw [Item.bytes_of_encode encoded] at bytes
  have contents := bytes.left.right
  rwa [Header.length_encode encoded] at contents

/-- Contents that were put into an archive are read from what is left of it exactly if they end
before the cut. -/
theorem readContents_cut {source : Source} (reliable : source.Reliable) {whole : List UInt8}
    {cut : Nat} (same : source.data = whole.take cut) {item : Item} {offset : Nat}
    (contents : Bytes.At whole (offset + blockLength) item.contents)
    (there : offset + blockLength ≤ cut) :
    (readContents source (item.entryAt offset).1).1 =
      if offset + blockLength + item.contents.length ≤ cut then .ok item.contents
      else .error .unexpectedEnd := by
  have inside := contents.le_length
  have enough : item.contents.length ≤
      ((whole.take cut).drop (offset + blockLength)).length ↔
        offset + blockLength + item.contents.length ≤ cut := by
    rw [List.length_drop, List.length_take]
    omega
  rw [readContents_of_reliable reliable, same, Item.entryAt]
  dsimp only
  by_cases complete : offset + blockLength + item.contents.length ≤ cut
  · have left : offset + blockLength + item.contents.length ≤ (whole.take cut).length := by
      rw [List.length_take]
      exact Nat.le_min.mpr ⟨complete, inside⟩
    have piece := Bytes.slice_of_prefix (List.take_prefix cut whole) left
    rw [if_pos (enough.mpr complete), if_pos complete, ← piece, contents.slice]
  · rw [if_neg fun some => complete (enough.mp some), if_neg complete]

/-- A scan undoes building. Of an archive that was built from items, wherever it is cut off and
however its source cuts the bytes into reads, a scan finds exactly the items taken whose headers
are there whole, in order and each where its contents were put. It ends without a fault behind
the last of them, and an entry is read exactly if its contents are there whole. -/
theorem scan_build_cut {items : List Item} (faithful : ∀ item ∈ items, Header.Faithful item.path)
    (finished : Bool) (cut : Nat) :
    let taken := (build items finished).1
    let whole := (build items finished).2
    let there := layoutBefore cut 0 taken
    taken = shortItems items ∧
      (∀ placed ∈ layout 0 taken,
        Bytes.At whole (placed.2 + blockLength) placed.1.contents) ∧
      ∀ source : Source, source.Reliable → source.data = whole.take cut →
        (∃ warning after, scan source =
          ⟨there.map fun placed => placed.1.entryAt placed.2, .finished warning,
            ⟨after, there.getLast?.elim 0 fun placed =>
              placed.2 + entryLength placed.1.contents.length, true⟩⟩) ∧
        ∀ placed ∈ there, (readContents source (placed.1.entryAt placed.2).1).1 =
          if placed.2 + blockLength + placed.1.contents.length ≤ cut then .ok placed.1.contents
          else .error .unexpectedEnd := by
  intro taken whole there
  have contents : ∀ placed ∈ layout 0 taken,
      Bytes.At whole (placed.2 + blockLength) placed.1.contents :=
    fun _ => contents_of_mem_layout
  have short : taken = shortItems items := congrArg Prod.fst (build_eq items finished)
  refine ⟨short, contents, fun source reliable same => ⟨?_, fun placed member => ?_⟩⟩
  · have fits : ∀ item ∈ taken, item.Fits :=
      fun item member => fits_of_mem_shortItems (short ▸ member)
    have spelled : ∀ item ∈ taken, Header.Faithful item.path :=
      fun item member => faithful item (List.mem_of_mem_filter (short ▸ member))
    have closing : (if finished then Bytes.zeros closingSize else []) = [] ∨
        (if finished then Bytes.zeros closingSize else []) = Bytes.zeros closingSize := by
      cases finished
      · exact .inl rfl
      · exact .inr rfl
    have parts : whole.drop 0 = taken.flatMap Item.bytes ++
        if finished then Bytes.zeros closingSize else [] := by
      rw [List.drop_zero, short]
      exact congrArg Prod.snd (build_eq items finished)
    obtain ⟨stop, warning, trail, ended⟩ := trail_cut cut fits spelled closing parts
    obtain ⟨position, plain⟩ := scan_of_trail trail (by simp [ended])
    obtain ⟨after, scanned, -⟩ := scan_of_reliable reliable
    have place : stop = there.getLast?.elim 0 fun placed =>
        placed.2 + entryLength placed.1.contents.length := by
      rw [trail.stop_eq_last, List.getLast?_map]
      cases there.getLast? <;> rfl
    refine ⟨warning, after, ?_⟩
    rw [scanned, same, plain, ended, ← place]
  · obtain ⟨listed, before⟩ := List.mem_filter.mp member
    exact readContents_cut reliable same (contents placed listed) (of_decide_eq_true before)

/-- Two items in an archive that is cut off behind the second header, from a source that is
interrupted and gives one byte, then seven at most: both are found, and the first is read. -/
theorem scan_build_cut_two :
    let items : List Item := [⟨"a", [1, 2, 3], 0⟩, ⟨"b", [4], 0⟩]
    let source : Source :=
      ⟨(build items true).2.take 1536, 0, [.interrupted, .upTo 1], some 7, none⟩
    (∃ warning after, scan source =
      ⟨[(⟨"a", 512, 3⟩, 1024), (⟨"b", 1536, 1⟩, 2048)], .finished warning, ⟨after, 2048, true⟩⟩) ∧
      (readContents source ⟨"a", 512, 3⟩).1 = .ok [1, 2, 3] ∧
      (readContents source ⟨"b", 1536, 1⟩).1 = .error .unexpectedEnd := by
  intro items source
  have faithful : ∀ item ∈ items, Header.Faithful item.path := by
    intro item member
    apply Header.faithful_of_plain
    simp only [items, List.mem_cons, List.not_mem_nil, or_false] at member
    rcases member with rfl | rfl
    · simp [Header.Plain]
    · simp [Header.Plain]
  obtain ⟨taken, -, finds⟩ := scan_build_cut faithful true 1536
  have all : shortItems items = items := by decide +kernel
  have reliable : source.Reliable := by
    refine ⟨?_, by simp [source], rfl⟩
    intro reply member
    simp only [source, List.mem_cons, List.not_mem_nil, or_false] at member
    rcases member with rfl | rfl
    · trivial
    · exact Nat.one_pos
  have cut : source.data = (build items true).2.take 1536 := by simp only [source]
  obtain ⟨scanned, reads⟩ := finds source reliable cut
  rw [taken, all] at scanned reads
  exact ⟨scanned, reads (⟨"a", [1, 2, 3], 0⟩, 0) (by decide +kernel),
    reads (⟨"b", [4], 0⟩, 1024) (by decide +kernel)⟩

end Trajectory.Tar
