import Trajectory.Proofs.Tar.Growth
/-!
# Sessions with damaged tar archives

A session can append to an archive that was cut off inside its last entry. What it writes is read
back as long as no item is taken while the cursor is astray, which only a read of the entry that
was cut off can bring about. The entries that were there stay as they were, but for one: closing
fills in what was missing, and the entry that was cut off no longer shows it.
-/
namespace Trajectory.Tar

namespace Course

/-- A write that succeeds among other calls takes its item between theirs. -/
theorem taken_between {course : Course} {item : Item} {immediate : Bool} {earlier : List Call}
    (accepted : ((course.run earlier).archive.write (course.run earlier).file item.time item.path
      item.contents immediate).1 = .ok ()) (later : List Call) :
    ∃ more, (course.run (earlier ++ .write item immediate :: later)).taken =
        (course.run earlier).taken ++ item :: more ∧
      ∀ other ∈ more, ∃ immediate, .write other immediate ∈ later := by
  obtain ⟨more, taken, written⟩ :=
    taken_run ((course.run earlier).call (.write item immediate)) later
  rw [taken_of_ok accepted, List.append_assoc] at taken
  refine ⟨more, ?_, written⟩
  rw [run, List.foldl_append]
  exact taken

/-- Every session with an archive that is not damaged is steady. -/
theorem steady_of_intact {file : Option (List UInt8)} {course : Course}
    (started : start file = .ok course) (intact : Intact (file.getD [])) (calls : List Call) :
    course.Steady false calls := by
  obtain ⟨writer, grows⟩ := grows_of_start started
  exact (grows.steady_of_intact intact calls).1

end Course

/-! ## Entries that were there -/

section Kept

variable {first data : List UInt8} {path : String} {extent : Extent}

/-- A file that goes on behind the entries of an archive has its entry under every path that is not
in what follows. -/
theorem get?_of_entries {later : List (Entry × Nat)}
    (entries : (scan (.ofBytes data)).entries = (scan (.ofBytes first)).entries ++ later)
    (unwritten : path ∉ later.map (·.1.path)) :
    (Archive.reading data).catalog.get? path = (Archive.reading first).catalog.get? path := by
  unfold Archive.reading Archive.ofScan
  rw [entries, List.map_append, Catalog.ofList_append]
  apply Catalog.get?_insertAll_of_not_mem
  rw [List.map_map]
  exact unwritten

/-- An entry that can be read is read the same from a file that begins with what the archive had of
its entries. -/
theorem read_of_occupied (kept : occupied first <+: data)
    (listed : (Archive.reading first).catalog.get? path = some extent)
    (still : (Archive.reading data).catalog.get? path = some extent) {contents : List UInt8}
    (answered : ((Archive.reading first).read first path).1 = .ok contents) :
    ((Archive.reading data).read data path).1 = .ok contents := by
  have before := Archive.le_offset_of_listed listed
  rw [Archive.read_listed listed] at answered
  rw [Archive.read_listed still]
  by_cases whole : ((first.drop extent.offset).take extent.size).length = extent.size
  · have same : (data.drop extent.offset).take extent.size =
        (first.drop extent.offset).take extent.size := by
      by_cases inside : extent.offset + extent.size ≤ first.length
      · exact slice_of_occupied kept inside before
      · -- only nothing can be read from past the end
        have nothing : extent.size = 0 := by
          rw [List.length_take, List.length_drop] at whole
          omega
        rw [nothing, List.take_zero, List.take_zero]
    rw [same, if_pos whole]
    rwa [if_pos whole] at answered
  · rw [if_neg whole] at answered
    contradiction

/-- An entry that was cut off is read from a file with room for it, as what there was of it and
further bytes. -/
theorem read_of_short (kept : occupied first <+: data) (room : (body first).length ≤ data.length)
    (listed : (Archive.reading first).catalog.get? path = some extent)
    (still : (Archive.reading data).catalog.get? path = some extent) {error : ArchiveError}
    (failed : ((Archive.reading first).read first path).1 = .error error) :
    ∃ filler, filler ≠ [] ∧
      ((Archive.reading data).read data path).1 = .ok (first.drop extent.offset ++ filler) ∧
      (first.drop extent.offset ++ filler).length = extent.size ∧
      (body first <+: data → filler = Bytes.zeros filler.length) := by
  have before := Archive.le_offset_of_listed listed
  have length : (body first).length = (scan (.ofBytes first)).scanner.offset :=
    Bytes.length_resize _ _
  rw [Archive.read_listed listed] at failed
  rw [Archive.read_listed still]
  by_cases whole : ((first.drop extent.offset).take extent.size).length = extent.size
  · rw [if_pos whole] at failed
    contradiction
  rw [List.length_take, List.length_drop] at whole
  have cut : first.length < extent.offset + extent.size := by omega
  have all : occupied first = first := List.take_of_length_le (by omega)
  rw [all] at kept
  obtain ⟨rest, rfl⟩ := kept
  have parts := Bytes.slice_past (Nat.le_of_lt cut) rest
  have inside : extent.offset + extent.size ≤ (first ++ rest).length := by omega
  have size := congrArg List.length parts
  rw [Bytes.length_slice inside] at size
  rw [if_pos (Bytes.length_slice inside)]
  refine ⟨_, ?_, congrArg Except.ok parts, size.symm, fun filled => ?_⟩
  · intro nothing
    rw [nothing, List.append_nil, List.length_drop] at size
    omega
  · have shape : body first = first ++
        Bytes.zeros ((scan (.ofBytes first)).scanner.offset - first.length) := by
      rw [body, Bytes.resize, List.take_of_length_le (by omega)]
    have same := Bytes.slice_of_prefix filled (length ▸ before)
    rw [parts, shape, Bytes.slice_past (Nat.le_of_lt cut)] at same
    rw [List.append_cancel_left same, Bytes.slice_zeros, Bytes.length_zeros]

end Kept

/-- An archive of one entry that was cut off anywhere behind its header opens with the entry. -/
theorem open_cut {item : Item} (fits : item.Fits) (faithful : Header.Faithful item.path)
    {count : Nat} (some_header : blockLength ≤ count)
    (within : count ≤ entryLength item.contents.length) (mode : Access) :
    Archive.openExisting mode (item.bytes.take count) =
      (.ok ⟨mode, if mode = .read then .reader else
          .writer ⟨[], entryLength item.contents.length⟩,
        .insert .empty item.path ⟨blockLength, item.contents.length⟩,
        entryLength item.contents.length, true⟩, none) := by
  obtain ⟨header, encoded⟩ := fits
  have block : ((item.bytes.take count).drop 0).take blockLength = header := by
    rw [List.drop_zero, List.take_take, Nat.min_eq_left some_header, Item.bytes_of_encode encoded,
      List.append_assoc, List.take_left' (Header.length_encode encoded)]
  have found := findingAt_header encoded block
  rw [Header.restored_of_faithful faithful, Nat.zero_add] at found
  have short : (item.bytes.take count).length ≤ entryLength item.contents.length :=
    Nat.le_trans (List.length_take_le _ _) within
  have ended : findingAt (item.bytes.take count) (entryLength item.contents.length) =
      .finished none := by
    unfold findingAt
    rw [List.drop_of_length_le short, List.take_nil]
    rfl
  have trail := Trail.step found (.here _)
  rw [Nat.zero_add] at trail
  obtain ⟨after, scanned⟩ := scan_of_trail trail (by rw [ended]; exact nofun)
  rw [ended] at scanned
  rw [Archive.openExisting_of_scanned (by rw [scanned]; exact nofun), scanned]
  rfl

/-- An entry of five bytes opens when it was cut off behind three of them. -/
theorem open_three_of_five (mode : Access) :
    Archive.openExisting mode ((Item.bytes ⟨"a", [1, 2, 3, 4, 5], 0⟩).take 515) =
      (.ok ⟨mode, if mode = .read then .reader else .writer ⟨[], 1024⟩,
        .insert .empty "a" ⟨512, 5⟩, 1024, true⟩, none) := by
  have fits : Item.Fits ⟨"a", [1, 2, 3, 4, 5], 0⟩ := (Item.fits_iff _).mpr (by decide +kernel)
  have faithful : Header.Faithful "a" := Header.faithful_of_plain (by simp [Header.Plain])
  have some_header : blockLength ≤ 515 := by decide
  have within : 515 ≤ entryLength [1, 2, 3, 4, 5].length := by decide
  exact open_cut fits faithful some_header within mode

/-- A session that appends leaves alone what it does not write. The file that is closed has the
entries that were there and others behind them, which are those of the items taken if no item was
taken while the cursor was astray. When it is opened again, every path that was listed and is not
among the others is listed, and reads as it did, unless its entry was cut off: that was an error,
and is now what there was of the contents, filled in. -/
theorem append_keeps_entries {file : List UInt8} {before : Archive} {warning : Option Warning}
    (opened : Archive.openExisting .read file = (.ok before, warning)) (calls : List Call) :
    ∃ course, Course.start (some file) = .ok course ∧
      let now := course.run calls
      ∃ later, (scan (.ofBytes now.closed)).entries = (scan (.ofBytes file)).entries ++ later ∧
        (course.Steady false calls →
          (∃ after, Archive.openExisting .read now.closed = (.ok after, none)) ∧
            later.map (·.1.path) = now.taken.map fun item => Header.restored item.path) ∧
        ∀ after warning, Archive.openExisting .read now.closed = (.ok after, warning) →
          ∀ path ∈ before.catalog.names, path ∉ later.map (·.1.path) →
            path ∈ after.catalog.names ∧
              (∀ contents, (before.read file path).1 = .ok contents →
                (after.read now.closed path).1 = .ok contents) ∧
              ∀ error, (before.read file path).1 = .error error →
                ∃ extent filler, before.catalog.get? path = some extent ∧ filler ≠ [] ∧
                  (after.read now.closed path).1 = .ok (file.drop extent.offset ++ filler) ∧
                  (file.drop extent.offset ++ filler).length = extent.size ∧
                  (course.Steady false calls → filler = Bytes.zeros filler.length) := by
  obtain ⟨course, started⟩ := Course.start_of_opened (congrArg Prod.fst opened)
  obtain ⟨writer, grows⟩ := Course.grows_of_start started
  rw [Option.getD_some] at grows
  refine ⟨course, started, ?_⟩
  intro now
  obtain ⟨end_writer, (stands : now.Stands _ _ _ _)⟩ := grows.toStands.run calls
  obtain ⟨kept, room⟩ := stands.closed
  obtain ⟨later, entries⟩ := entries_of_occupied kept
  have grown (steady : course.Steady false calls) : ∃ after, now.Grows _ file after _ :=
    grows.run steady
  refine ⟨later, entries, fun steady => ?_, ?_⟩
  · obtain ⟨_, ended⟩ := grown steady
    obtain ⟨reader, reopened, -⟩ := ended.reopened
    obtain ⟨new, same, paths⟩ := ended.entries_closed
    rw [entries] at same
    rw [List.append_cancel_left same]
    exact ⟨⟨reader, reopened⟩, paths⟩
  · intro after _ reopened path listed unwritten
    obtain rfl := Archive.eq_of_opened opened
    obtain rfl := Archive.eq_of_opened reopened
    have same := get?_of_entries entries unwritten
    have inStep (data : List UInt8) : (Archive.reading data).catalog.InStep :=
      Archive.inStep_ofScan ..
    cases found : (Archive.reading file).catalog.get? path with
    | none => exact absurd listed ((inStep file).get?_eq_none_iff.mp found)
    | some extent =>
      rw [found] at same
      refine ⟨(inStep _).mem_names_of_get? same, fun contents => read_of_occupied kept found same,
        ?_⟩
      intro error failed
      obtain ⟨filler, some_filler, answered, size, zeros⟩ :=
        read_of_short kept room found same failed
      refine ⟨extent, filler, rfl, some_filler, answered, size, fun steady => zeros ?_⟩
      obtain ⟨_, ended⟩ := grown steady
      rw [ended.closed, List.append_assoc]
      exact List.prefix_append _ _

/-- An entry of which three bytes were left is an error, and reads as five once another entry was
written behind it. -/
theorem append_keeps_entries_cut :
    let file := (Item.bytes ⟨"a", [1, 2, 3, 4, 5], 0⟩).take 515
    ∃ before course, Archive.openExisting .read file = (.ok before, none) ∧
      (before.read file "a").1 = .error (.io .unexpectedEnd) ∧
      Course.start (some file) = .ok course ∧
      let now := course.run [.write ⟨"b", [6], 0⟩ false]
      ∃ after, Archive.openExisting .read now.closed = (.ok after, none) ∧
        (after.read now.closed "a").1 = .ok [1, 2, 3, 0, 0] := by
  intro file
  have opened := open_three_of_five .read
  have left : file.drop 512 = [1, 2, 3] := by decide +kernel
  have listed : (Archive.reading file).catalog.get? "a" = some ⟨512, 5⟩ := by
    rw [← Archive.eq_of_opened opened]
    rfl
  have failed : ((Archive.reading file).read file "a").1 = .error (.io .unexpectedEnd) := by
    rw [Archive.read_listed listed, left]
    rfl
  rw [Archive.eq_of_opened opened] at opened
  obtain ⟨course, started, later, -, steadied, kept⟩ :=
    append_keeps_entries opened [.write ⟨"b", [6], 0⟩ false]
  obtain ⟨⟨after, reopened⟩, paths⟩ := steadied ⟨nofun, trivial⟩
  have written : (course.run [.write ⟨"b", [6], 0⟩ false]).taken = [⟨"b", [6], 0⟩] := by
    obtain ⟨writer, grows⟩ := Course.grows_of_start started
    have accepted := (Archive.write_ok_iff grows.channel ⟨"b", [6], 0⟩ course.file false).mpr
      ((Item.fits_iff _).mpr (by decide +kernel))
    have taken := Course.taken_of_ok accepted
    rwa [Course.taken_of_start started] at taken
  have faithful : Header.Faithful "b" := Header.faithful_of_plain (by simp [Header.Plain])
  have others : later.map (·.1.path) = ["b"] := by
    rw [paths, written, List.map_singleton, Header.restored_of_faithful faithful]
  have inStep : (Archive.reading file).catalog.InStep := Archive.inStep_ofScan ..
  obtain ⟨-, -, filled⟩ := kept after none reopened "a" (inStep.mem_names_of_get? listed)
    (by rw [others]; decide)
  obtain ⟨extent, filler, found, -, answered, size, zeros⟩ := filled _ failed
  obtain rfl : ⟨512, 5⟩ = extent := Option.some.inj (listed.symm.trans found)
  dsimp only at answered size
  rw [left, List.length_append, List.length_cons, List.length_cons, List.length_singleton] at size
  have missing : filler.length = 2 := by omega
  rw [left, zeros ⟨nofun, trivial⟩, missing] at answered
  exact ⟨_, course, opened, failed, started, after, reopened, answered⟩

/-- A write that succeeds is not lost. In every session with an archive that opens, the cursor is
where it is taken to be except while it is astray; and if no item is taken then, as in every session
with an archive that is not damaged, an item that is taken is read back until its path is written
again, and once the archive is closed it is found under its path if a header can spell that. -/
theorem taken_items_stay {file : Option (List UInt8)} {course : Course}
    (started : Course.start file = .ok course) (calls : List Call) :
    let now := course.run calls
    (∃ writer, now.archive.channel = .writer writer ∧ (now.archive.inPlace = true →
        (writer.reach = now.archive.stop ↔ course.drift false calls = false))) ∧
      (Intact (file.getD []) → course.Steady false calls) ∧
      (course.Steady false calls → ∀ earlier item immediate later,
        calls = earlier ++ .write item immediate :: later →
        ((course.run earlier).archive.write (course.run earlier).file item.time item.path
          item.contents immediate).1 = .ok () →
        ((∀ other immediate, .write other immediate ∈ later → other.path ≠ item.path) →
          now.archive.mode = .append →
            (now.archive.read now.file item.path).1 = .ok item.contents) ∧
        ((∀ other immediate, .write other immediate ∈ later →
            Header.restored other.path ≠ item.path) →
          Header.Faithful item.path →
            ∃ reader, Archive.openExisting .read now.closed = (.ok reader, none) ∧
              item.path ∈ reader.catalog.names ∧
              (reader.read now.closed item.path).1 = .ok item.contents)) := by
  intro now
  obtain ⟨writer, grows⟩ := Course.grows_of_start started
  refine ⟨?_, fun intact => Course.steady_of_intact started intact calls, ?_⟩
  · obtain ⟨after, stands⟩ := grows.toStands.run calls
    exact ⟨after, stands.channel, stands.placed⟩
  intro steady earlier item immediate later parts accepted
  obtain ⟨after, (grown : now.Grows _ _ _ _)⟩ := grows.run steady
  obtain ⟨more, taken, written⟩ := Course.taken_between accepted later
  rw [← parts] at taken
  constructor
  · intro unwritten appends
    have readable : (if file = none then Access.write else .append) ≠ .write := by
      rw [← grown.mode, appends]
      decide
    refine grown.read_last readable taken fun other member => ?_
    obtain ⟨immediate, found⟩ := written other member
    exact unwritten other immediate found
  · intro unwritten faithful
    refine grown.reopened_last taken (fun other member => ?_) faithful
    obtain ⟨immediate, found⟩ := written other member
    exact unwritten other immediate found

/-- What is appended to an archive that was cut off is read back, at once and after closing. -/
theorem taken_items_stay_cut :
    let file := (Item.bytes ⟨"a", [1, 2, 3, 4, 5], 0⟩).take 515
    ∃ course, Course.start (some file) = .ok course ∧
      let now := course.run [.write ⟨"b", [9], 0⟩ true]
      (now.archive.read now.file "b").1 = .ok [9] ∧
        ∃ reader, Archive.openExisting .read now.closed = (.ok reader, none) ∧
          "b" ∈ reader.catalog.names ∧ (reader.read now.closed "b").1 = .ok [9] := by
  intro file
  have opened := open_three_of_five .append
  obtain ⟨course, started⟩ := Course.start_of_opened (congrArg Prod.fst opened)
  obtain ⟨writer, grows⟩ := Course.grows_of_start started
  have accepted := (Archive.write_ok_iff grows.channel ⟨"b", [9], 0⟩ course.file true).mpr
    ((Item.fits_iff _).mpr (by decide +kernel))
  have mode : (course.run [.write ⟨"b", [9], 0⟩ true]).archive.mode = .append := by
    obtain ⟨after, stands⟩ := grows.toStands.run [.write ⟨"b", [9], 0⟩ true]
    exact stands.mode
  obtain ⟨-, -, stays⟩ := taken_items_stay started [.write ⟨"b", [9], 0⟩ true]
  obtain ⟨reads, reopens⟩ := stays ⟨nofun, trivial⟩ [] _ _ [] rfl accepted
  exact ⟨course, started, reads nofun mode,
    reopens nofun (Header.faithful_of_plain (by simp [Header.Plain]))⟩

/-- An item that is taken while the cursor is astray is lost: it reads as other bytes. -/
theorem astray_item_lost :
    let file := (Item.bytes ⟨"a", [1, 2, 3, 4, 5], 0⟩).take 515
    ∃ course, Course.start (some file) = .ok course ∧
      (course.archive.read course.file "a").1 = .error (.io .unexpectedEnd) ∧
      let astray := course.call (.read "a")
      (astray.archive.write astray.file 0 "b" [9] true).1 = .ok () ∧
        let now := astray.call (.write ⟨"b", [9], 0⟩ true)
        (now.archive.read now.file "b").1 = .ok [0] := by
  intro file
  have opened := open_three_of_five .append
  let catalog : Catalog Extent := .insert .empty "a" ⟨512, 5⟩
  let archive : Archive := ⟨.append, .writer ⟨[], 1024⟩, catalog, 1024, true⟩
  have started : Course.start (some file) = .ok ⟨archive, file, []⟩ := by
    rw [Course.start, opened]
    rfl
  have channel : archive.channel = .writer ⟨[], 1024⟩ := rfl
  have listed : archive.catalog.get? "a" = some ⟨512, 5⟩ := rfl
  have short : ((BufferedWriter.settled ⟨[], 1024⟩ file).drop 512 |>.take 5).length ≠ 5 := by
    decide +kernel
  obtain ⟨position, failed, past, before⟩ :=
    Archive.read_of_short channel (by decide) listed short
  rw [BufferedWriter.settled_of_nil] at failed past
  have astray : Course.call ⟨archive, file, []⟩ (.read "a") =
      ⟨{ archive with channel := .writer ⟨[], position⟩ }, file, []⟩ := by
    rw [Course.call, failed]
  obtain ⟨header, encoded⟩ : Item.Fits ⟨"b", [9], 0⟩ := (Item.fits_iff _).mpr (by decide +kernel)
  have channel : { archive with channel := .writer ⟨[], position⟩ }.channel =
      .writer ⟨[], position⟩ := rfl
  obtain ⟨after, kept, written, settled, -⟩ := Archive.write_of_ok channel encoded file true
  have lost : ((after.settled kept).drop 1536).take 1 = [0] := by
    have places : position = 515 ∨ position = 516 := by
      have length : file.length = 515 := by decide +kernel
      dsimp only at before
      omega
    rw [settled]
    rcases places with rfl | rfl
    · decide +kernel
    · decide +kernel
  let extended : Archive :=
    ⟨.append, .writer after, catalog.insert "b" ⟨1536, 1⟩, 2048, true⟩
  have now : Course.call (Course.call ⟨archive, file, []⟩ (.read "a"))
      (.write ⟨"b", [9], 0⟩ true) = ⟨extended, kept, [⟨"b", [9], 0⟩]⟩ := by
    rw [astray, Course.call, written]
    rfl
  have whole : (((after.settled kept).drop 1536).take 1).length = 1 := by rw [lost]; rfl
  refine ⟨_, started, congrArg Prod.fst failed, ?_, ?_⟩
  · rw [astray, written]
  · have channel : extended.channel = .writer after := rfl
    have listed : extended.catalog.get? "b" = some ⟨1536, 1⟩ := rfl
    have appends : extended.mode ≠ .write := Access.noConfusion
    obtain ⟨_, answered⟩ := Archive.read_of_some channel appends listed whole
    dsimp only
    rw [now, answered, lost]

end Trajectory.Tar
