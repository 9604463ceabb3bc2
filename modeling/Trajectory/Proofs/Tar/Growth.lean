import Trajectory.Proofs.Tar.Course
/-!
# How tar archives grow

An archive may have been cut off inside the contents of its last entry, or go on behind its
entries with something else. Whatever a session calls for, the bytes of the entries that are there
stay where they are, and the cursor is astray exactly if the calls say so. As long as no item is
taken while it is, the items follow the body of the archive, with what was missing filled in, and
everything that was written is read back.
-/
namespace Trajectory.Tar

/-- The bytes that an archive has of its entries. -/
def occupied (data : List UInt8) : List UInt8 := data.take (scan (.ofBytes data)).scanner.offset

/-- An archive has no more of its entries than their body. -/
theorem length_occupied_le (data : List UInt8) : (occupied data).length ≤ (body data).length := by
  rw [occupied, body, Bytes.length_resize]
  exact List.length_take_le _ _

/-- The bytes that an archive has of its entries are all there are, up to their end. -/
theorem le_length_occupied {data : List UInt8} {place : Nat} (inside : place ≤ data.length)
    (before : place ≤ (scan (.ofBytes data)).scanner.offset) :
    place ≤ (occupied data).length := by
  rw [occupied, List.length_take]
  omega

/-- A file that begins with what an archive has of its entries has its bytes there. -/
theorem slice_of_occupied {first data : List UInt8} (kept : occupied first <+: data)
    {offset size : Nat} (inside : offset + size ≤ first.length)
    (before : offset + size ≤ (scan (.ofBytes first)).scanner.offset) :
    (data.drop offset).take size = (first.drop offset).take size := by
  have within := le_length_occupied inside before
  have own : occupied first <+: first := List.take_prefix _ _
  rw [Bytes.slice_of_prefix kept within, Bytes.slice_of_prefix own within]

/-- A file that begins with what an archive has of its entries has the entries. -/
theorem entries_of_occupied {first data : List UInt8} (kept : occupied first <+: data) :
    ∃ later, (scan (.ofBytes data)).entries = (scan (.ofBytes first)).entries ++ later := by
  have old := (trail_scan first).1.congr fun offset inside before =>
    slice_of_occupied kept inside before
  obtain ⟨trail, ended⟩ := trail_run data (data.length / blockLength + 1) 0
    (scan (.ofBytes first)).scanner.offset
  have last := ended (Nat.lt_succ_of_le trail.count_le)
  obtain ⟨after, scanned⟩ := scan_of_trail (old.append trail) last
  exact ⟨_, congrArg Scan.entries scanned⟩

namespace Course

/-- Whatever was called for, a session with a file that held an archive leaves the bytes of its
entries alone, and the cursor is at the end where it is taken to be unless it is astray. -/
structure Stands (mode : Access) (first : List UInt8) (course : Course) (writer : BufferedWriter)
    (astray : Bool) : Prop where
  /-- The mode stays what it was. -/
  mode : course.archive.mode = mode
  /-- The file is open for writing. -/
  channel : course.archive.channel = .writer writer
  /-- The names and what is remembered of them are in step. -/
  inStep : course.archive.catalog.InStep
  /-- The settled file begins with what the archive had of its entries. -/
  kept : occupied first <+: writer.settled course.file
  /-- The entries end behind those there were. -/
  grown : (body first).length ≤ course.archive.stop
  /-- A cursor that is taken to be at the end is behind what the archive had of its entries. -/
  beyond : course.archive.inPlace = true → (occupied first).length ≤ writer.reach
  /-- The contents of every entry lie before the end. -/
  within : ∀ {path extent}, course.archive.catalog.get? path = some extent →
    extent.offset + extent.size ≤ course.archive.stop
  /-- A cursor that is taken to be at the end is there unless it is astray. -/
  placed : course.archive.inPlace = true → (writer.reach = course.archive.stop ↔ astray = false)
  /-- A cursor that is astray is taken to be at the end. -/
  misplaced : astray = true → course.archive.inPlace = true

namespace Stands

variable {mode : Access} {first : List UInt8} {course : Course} {writer : BufferedWriter}
  {astray : Bool}

/-- The next entry goes behind what the archive had of its entries. -/
theorem le_landing (stands : course.Stands mode first writer astray) :
    (occupied first).length ≤ course.archive.landing writer := by
  rw [Archive.landing]
  split
  · next standing => exact stands.beyond standing
  · exact Nat.le_trans (length_occupied_le first) stands.grown

/-- The next entry goes to the end of the entries unless the cursor is astray. -/
theorem landing_iff (stands : course.Stands mode first writer astray) :
    course.archive.landing writer = course.archive.stop ↔ astray = false := by
  rw [Archive.landing]
  split
  · next standing => exact stands.placed standing
  · next moved =>
    have found : astray = false := Bool.eq_false_iff.mpr fun lost => moved (stands.misplaced lost)
    exact ⟨fun _ => found, fun _ => rfl⟩

/-- Whatever a call does, it leaves a session that stands. -/
theorem step (stands : course.Stands mode first writer astray) {call : Call} {next : Course}
    {after : BufferedWriter} (step : Step course writer call next after) :
    next.Stands mode first after (course.strays astray call) := by
  have kept := step.inStep stands.inStep
  cases step with
  | @takes item immediate _ _ writes fits strays settled reached =>
    have landed := stands.le_landing
    have placed := stands.landing_iff
    refine ⟨stands.mode, rfl, kept, ?_, ?_, ?_, ?_, ?_, fun _ => rfl⟩
    · rw [settled]
      exact Bytes.prefix_overwrite stands.kept landed _
    · exact Nat.le_add_right_of_le stands.grown
    · intro _
      rw [reached]
      exact Nat.le_add_right_of_le landed
    · intro path extent listed
      rw [Catalog.get?_insert] at listed
      split at listed
      · rw [← Option.some.inj listed]
        simp only [entryLength]
        omega
      · exact Nat.le_add_right_of_le (stands.within listed)
    · intro _
      rw [reached, strays, ← placed]
      exact Nat.add_right_cancel_iff
  | leaves strays settled =>
    rw [strays]
    refine ⟨stands.mode, rfl, kept, ?_, stands.grown, ?_, stands.within, ?_, ?_⟩
    · rw [settled]
      exact stands.kept
    · exact fun standing => Bool.noConfusion standing
    · exact fun standing => Bool.noConfusion standing
    · exact fun lost => Bool.noConfusion lost
  | fails listed strays settled past short =>
    have before := stands.within listed
    rw [strays]
    refine ⟨stands.mode, rfl, kept, ?_, stands.grown, ?_, stands.within, ?_, id⟩
    · rw [settled]
      exact stands.kept
    · exact fun _ => Nat.le_trans stands.kept.length_le past
    · intro (standing : course.archive.inPlace = true)
      -- the cursor is short of the end of an entry, and no entry ends behind the last
      have apart : after.reach ≠ course.archive.stop := by omega
      rw [standing]
      exact ⟨fun same => absurd same apart, fun found => Bool.noConfusion found⟩
  | stays strays settled reached =>
    rw [strays]
    refine ⟨stands.mode, rfl, kept, ?_, stands.grown, ?_, stands.within, ?_, stands.misplaced⟩
    · rw [settled]
      exact stands.kept
    · rw [reached]
      exact stands.beyond
    · rw [reached]
      exact stands.placed

/-- So does every run of calls. -/
theorem run (stands : course.Stands mode first writer astray) (calls : List Call) :
    ∃ after, (course.run calls).Stands mode first after (course.drift astray calls) := by
  induction calls generalizing course writer astray with
  | nil => exact ⟨writer, stands⟩
  | cons call later ih =>
    obtain ⟨between, step⟩ := course.step stands.channel stands.inStep call
    exact ih (stands.step step)

/-- Closing leaves a file that begins with what the archive had of its entries, and that has room
for their contents. -/
theorem closed (stands : course.Stands mode first writer astray) :
    occupied first <+: course.closed ∧ (body first).length ≤ course.closed.length := by
  have inside := Nat.le_trans (length_occupied_le first) stands.grown
  rw [Course.closed, Archive.close_of_writer stands.channel, List.length_append,
    Bytes.length_resize]
  refine ⟨?_, Nat.le_add_right_of_le stands.grown⟩
  exact (Bytes.prefix_resize stands.kept inside).trans (List.prefix_append _ _)

end Stands

/-- A session that takes no item while the cursor is astray grows the archive: the items follow its
body, and the catalog shows what is written in both. -/
structure Grows (mode : Access) (first : List UInt8) (course : Course) (writer : BufferedWriter)
    (astray : Bool) : Prop extends Stands mode first course writer astray where
  /-- The settled file has the items behind the body of the archive. -/
  image : Bytes.resize (writer.settled course.file) course.archive.stop =
    body first ++ course.taken.flatMap Item.bytes
  /-- The catalog shows what the archive held, filled in, and the items. -/
  shows : Shows course.archive.catalog (body first ++ course.taken.flatMap Item.bytes)
    (filled first ++ course.taken.map Item.written)
  /-- Every item taken has a header. -/
  fits : ∀ item ∈ course.taken, item.Fits
  /-- Every entry has all its contents, if all had at first or an item was taken. -/
  whole : Intact first ∨ course.taken ≠ [] → ∀ {path extent},
    course.archive.catalog.get? path = some extent →
      extent.offset + extent.size ≤ (writer.settled course.file).length

namespace Grows

variable {mode : Access} {first : List UInt8} {course : Course} {writer : BufferedWriter}
  {astray : Bool}

/-- The end of the entries is where the items behind the body end. -/
theorem length_image (grows : course.Grows mode first writer astray) :
    (body first ++ course.taken.flatMap Item.bytes).length = course.archive.stop := by
  rw [← grows.image, Bytes.length_resize]

/-- Whatever a call does, it leaves a session that grows, unless it takes an item while the cursor
is astray. -/
theorem step (grows : course.Grows mode first writer astray) {call : Call} {next : Course}
    {after : BufferedWriter} (step : Step course writer call next after)
    (steady : astray = true → next.taken = course.taken) :
    next.Grows mode first after (course.strays astray call) := by
  have stands := grows.toStands.step step
  cases step with
  | @takes item _ _ kept _ fits _ settled reached =>
    have found : astray = false :=
      Bool.eq_false_iff.mpr fun lost => absurd (steady lost) (by simp)
    obtain ⟨header, encoded⟩ := fits
    have length := Item.length_bytes encoded
    have image : body first ++ (course.taken ++ [item]).flatMap Item.bytes =
        body first ++ course.taken.flatMap Item.bytes ++ item.bytes := by
      rw [List.flatMap_append, List.flatMap_singleton, List.append_assoc]
    -- as the cursor is not astray, the item goes right behind the others
    rw [grows.landing_iff.mpr found] at settled
    have reaches : course.archive.stop + entryLength item.contents.length ≤
        (after.settled kept).length := by
      rw [settled, ← length]
      exact Bytes.le_length_overwrite _ _ (Item.bytes_ne_nil encoded)
    refine ⟨stands, ?_, ?_, ?_, fun _ _ _ listed => Nat.le_trans (stands.within listed) reaches⟩
    · rw [settled, ← length, Bytes.resize_overwrite, grows.image, image]
    · have shows := grows.shows.append ⟨header, encoded⟩
      rw [grows.length_image] at shows
      rw [image, List.map_append, List.map_singleton, ← List.append_assoc]
      exact shows
    · intro other member
      cases List.mem_append.mp member with
      | inl before => exact grows.fits other before
      | inr last => exact List.mem_singleton.mp last ▸ ⟨header, encoded⟩
  | leaves _ settled | fails _ _ settled | stays _ settled =>
    refine ⟨stands, ?_, grows.shows, grows.fits, ?_⟩
    · rw [settled]
      exact grows.image
    · rw [settled]
      exact grows.whole

/-- So does every run of calls that takes no item while the cursor is astray. -/
theorem run (grows : course.Grows mode first writer astray) {calls : List Call}
    (steady : course.Steady astray calls) :
    ∃ after, (course.run calls).Grows mode first after (course.drift astray calls) := by
  induction calls generalizing course writer astray with
  | nil => exact ⟨writer, grows⟩
  | cons call later ih =>
    obtain ⟨between, step⟩ := course.step grows.channel grows.inStep call
    exact ih (grows.step step steady.1) steady.2

/-- Where no entry was short of its contents, the cursor never goes astray. -/
theorem steady_of_intact (grows : course.Grows mode first writer false) (intact : Intact first)
    (calls : List Call) : course.Steady false calls ∧ course.drift false calls = false := by
  induction calls generalizing course writer with
  | nil => exact ⟨trivial, rfl⟩
  | cons call later ih =>
    obtain ⟨after, step⟩ := course.step grows.channel grows.inStep call
    have next := grows.step step Bool.noConfusion
    have found : course.strays false call = false := by
      generalize course.call call = onward at step
      cases step with
      | takes _ _ strays | leaves strays | stays strays => exact strays false
      | fails listed _ _ past short =>
        -- a read stops short only of contents that are not all there
        have inside := grows.whole (.inl intact) listed
        omega
    rw [found] at next
    rw [Steady, drift, found]
    exact ⟨⟨Bool.noConfusion, (ih next).1⟩, (ih next).2⟩

/-- Where every entry has its contents, a session that appends reads back what the archive held,
filled in, and what was written. -/
theorem read (grows : course.Grows mode first writer astray) (appends : mode ≠ .write)
    (complete : Intact first ∨ course.taken ≠ []) (path : String) :
    (course.archive.read course.file path).1 =
      .ok ((filled first ++ course.taken.map Item.written).latest path) := by
  rw [← grows.mode] at appends
  cases listed : course.archive.catalog.get? path with
  | none =>
    rw [Archive.read_of_none grows.channel appends listed, grows.shows.latest_of_none listed]
  | some extent =>
    obtain ⟨before, contents⟩ := grows.shows.found listed
    rw [grows.length_image] at before
    have inside := grows.whole complete listed
    obtain ⟨position, answered⟩ :=
      Archive.read_of_some grows.channel appends listed (Bytes.length_slice inside)
    rw [answered, ← contents, ← grows.image, Bytes.slice_resize inside before]

/-- Closing leaves the body of the archive, the items and two blocks of zeros. -/
theorem closed (grows : course.Grows mode first writer astray) :
    course.closed =
      body first ++ course.taken.flatMap Item.bytes ++ Bytes.zeros closingSize := by
  rw [Course.closed, Archive.close_of_writer grows.channel, grows.image]

/-- The file that is closed has the entries there were and those of the items, under the paths that
their headers spell. -/
theorem entries_closed (grows : course.Grows mode first writer astray) :
    ∃ new, (scan (.ofBytes course.closed)).entries = (scan (.ofBytes first)).entries ++ new ∧
      new.map (·.1.path) = course.taken.map fun item => Header.restored item.path := by
  obtain ⟨new, after, scanned, holds, -⟩ := scan_continued first grows.fits
  have paths := congrArg (List.map Prod.fst) holds
  rw [List.map_map, List.map_map] at paths
  rw [grows.closed]
  exact ⟨new, congrArg Scan.entries scanned, paths⟩

/-- The file that is closed opens to what the archive held, filled in, and the items as they are
spelled. -/
theorem reopened (grows : course.Grows mode first writer astray) :
    let ledger := filled first ++ course.taken.map (fun item => item.spelled.written)
    ∃ reader, Archive.openExisting .read course.closed = (.ok reader, none) ∧
      reader.catalog.names = ledger.byFirst ∧
      ∀ path, (reader.read course.closed path).1 = .ok (ledger.latest path) := by
  obtain ⟨intact, ending, holds, -⟩ := intact_closed first grows.fits
  rw [← grows.closed] at intact ending holds
  intro ledger
  rw [show ledger = stored course.closed from holds.symm]
  exact Archive.reopened_of_intact intact ending

/-- A session that appends reads back the item that it took last under a path. -/
theorem read_last {item : Item} {earlier later : List Item}
    (grows : course.Grows mode first writer astray) (appends : mode ≠ .write)
    (taken : course.taken = earlier ++ item :: later)
    (unwritten : ∀ other ∈ later, other.path ≠ item.path) :
    (course.archive.read course.file item.path).1 = .ok item.contents := by
  have some_taken : course.taken ≠ [] := by
    rw [taken]
    exact List.append_ne_nil_of_right_ne_nil _ (List.cons_ne_nil _ _)
  have other_paths : item.path ∉ (later.map Item.written).map (·.1) := by
    rw [List.map_map, List.mem_map]
    rintro ⟨other, member, same⟩
    exact unwritten other member same
  rw [grows.read appends (.inr some_taken), taken, List.map_append, List.map_cons,
    ← List.append_assoc]
  exact congrArg Except.ok (Ledger.latest_of_last other_paths _ _)

/-- Once the archive is closed, the item is found if a header can spell its path and none behind
it is spelled the same. -/
theorem reopened_last {item : Item} {earlier later : List Item}
    (grows : course.Grows mode first writer astray)
    (taken : course.taken = earlier ++ item :: later)
    (unwritten : ∀ other ∈ later, Header.restored other.path ≠ item.path)
    (faithful : Header.Faithful item.path) :
    ∃ reader, Archive.openExisting .read course.closed = (.ok reader, none) ∧
      item.path ∈ reader.catalog.names ∧
      (reader.read course.closed item.path).1 = .ok item.contents := by
  obtain ⟨reader, opened, names, reads⟩ := grows.reopened
  have spelled : item.spelled.written = (item.path, item.contents) := by
    rw [Item.spelled_eq_iff.mpr faithful, Item.written]
  have other_paths : item.path ∉ (later.map fun other => other.spelled.written).map (·.1) := by
    rw [List.map_map, List.mem_map]
    rintro ⟨other, member, same⟩
    exact unwritten other member same
  rw [taken, List.map_append, List.map_cons, spelled, ← List.append_assoc] at names reads
  refine ⟨reader, opened, ?_, ?_⟩
  · rw [names, Ledger.mem_byFirst, List.map_append, List.mem_append]
    exact .inr List.mem_cons_self
  · rw [reads]
    exact congrArg Except.ok (Ledger.latest_of_last other_paths _ _)

end Grows

/-- The session that starts with what a scan of a file finds. -/
def opening (mode : Access) (file : List UInt8) : Course :=
  ⟨.ofScan mode (.writer ⟨[], (scan (.ofBytes file)).scanner.offset⟩) (scan (.ofBytes file)),
    file, []⟩

/-- Such a session grows the archive in the file. -/
theorem grows_opening (mode : Access) (file : List UInt8) :
    (opening mode file).Grows mode file ⟨[], (scan (.ofBytes file)).scanner.offset⟩ false := by
  have length : (body file).length = (scan (.ofBytes file)).scanner.offset :=
    Bytes.length_resize _ _
  have shows := Archive.shows_ofScan file mode (.writer ⟨[], (scan (.ofBytes file)).scanner.offset⟩)
  refine ⟨⟨rfl, rfl, shows.inStep, List.take_prefix _ _, Nat.le_of_eq length, fun _ => ?_,
    fun listed => ?_, fun _ => ?_, nofun⟩, ?_, ?_, nofun, ?_⟩
  · exact Nat.le_trans (length_occupied_le file) (Nat.le_of_eq length)
  · exact Nat.le_trans (shows.found listed).1 (Nat.le_of_eq length)
  · exact ⟨fun _ => rfl, fun _ => rfl⟩
  · exact (List.append_nil _).symm
  · rw [opening, List.flatMap_nil, List.append_nil, List.map_nil, List.append_nil]
    exact shows
  · rintro (intact | some_taken) path extent listed
    · exact ((Archive.tracks_ofScan intact mode _).found listed).1
    · contradiction

/-- A session starts with what a scan finds, of an empty file if there is none. -/
theorem start_eq {file : Option (List UInt8)} {course : Course}
    (started : start file = .ok course) :
    course = opening (if file = none then .write else .append) (file.getD []) := by
  cases file with
  | none =>
    obtain ⟨after, scanned⟩ := scan_nil
    rw [← Except.ok.inj started, Option.getD_none, opening, scanned]
    rfl
  | some file =>
    have scanned : ∀ error, (scan (.ofBytes file)).ending ≠ .failed error := by
      rw [start] at started
      cases opened : (Archive.openExisting .append file).1 with
      | ok archive => exact Archive.scanned_of_openExisting opened
      | error error =>
        rw [opened] at started
        contradiction
    rw [start, Archive.openExisting_of_scanned scanned] at started
    exact (Except.ok.inj started).symm

/-- Nothing is taken when a session starts. -/
theorem taken_of_start {file : Option (List UInt8)} {course : Course}
    (started : start file = .ok course) : course.taken = [] := by
  rw [start_eq started]
  rfl

/-- A session grows the archive it starts with. -/
theorem grows_of_start {file : Option (List UInt8)} {course : Course}
    (started : start file = .ok course) :
    ∃ writer, course.Grows (if file = none then .write else .append) (file.getD []) writer
      false := by
  rw [start_eq started]
  exact ⟨_, grows_opening _ _⟩

/-- A session can be started with any file that opens in some mode. -/
theorem start_of_opened {file : List UInt8} {mode : Access} {archive : Archive}
    (opened : (Archive.openExisting mode file).1 = .ok archive) :
    ∃ course, start (some file) = .ok course := by
  have scanned := Archive.scanned_of_openExisting opened
  rw [start, Archive.openExisting_of_scanned scanned]
  exact ⟨_, rfl⟩

end Course

end Trajectory.Tar
