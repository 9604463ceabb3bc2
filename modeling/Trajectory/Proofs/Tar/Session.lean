import Trajectory.Proofs.Tar.Growth
/-!
# Sessions with tar archives

Whatever the order in which the calls of a session move the one cursor, a session with an intact
archive grows it: the settled file up to the end of the entries is the body of the archive with the
bytes of the items that were taken behind it, and the catalog tells what was written. Closing
completes the archive, and the next session finds it so.
-/
namespace Trajectory.Tar

namespace Course

/-- A session with the intact archive in a file, if there was one, keeps to what was taken: it
grows the archive by the items, which can all be read back from their headers. -/
structure Keeps (mode : Access) (first : List UInt8) (course : Course) (writer : BufferedWriter) :
    Prop extends Grows mode first course writer false where
  /-- The archive was intact. -/
  intact : Intact first
  /-- Every item taken can be read back from its header. -/
  sound : ∀ item ∈ course.taken, item.Sound

namespace Keeps

variable {mode : Access} {first : List UInt8} {course : Course} {writer : BufferedWriter}

/-- Every read of a session that appends gives the contents written last. -/
theorem read (keeps : course.Keeps mode first writer) (appends : mode ≠ .write) (path : String) :
    (course.archive.read course.file path).1 =
      .ok ((stored first ++ course.taken.map Item.written).latest path) := by
  rw [← filled_of_intact keeps.intact]
  exact keeps.toGrows.read appends (.inl keeps.intact) path

/-- Every run of calls leaves a session that keeps to what was taken: all there is can be read, so
the cursor is never astray. -/
theorem run (keeps : course.Keeps mode first writer) {calls : List Call}
    (plain : ∀ call ∈ calls, call.Plain) : ∃ after, (course.run calls).Keeps mode first after := by
  obtain ⟨steady, found⟩ := keeps.steady_of_intact keeps.intact calls
  obtain ⟨after, grown⟩ := keeps.toGrows.run steady
  rw [found] at grown
  refine ⟨after, grown, keeps.intact, fun item member => ⟨?_, grown.fits item member⟩⟩
  obtain ⟨more, taken, written⟩ := course.taken_run calls
  rw [taken] at member
  cases List.mem_append.mp member with
  | inl before => exact (keeps.sound item before).1
  | inr later =>
    obtain ⟨immediate, called⟩ := written item later
    exact plain _ called

/-- A write succeeds exactly if its path and its contents fit into a header. -/
theorem write_iff (keeps : course.Keeps mode first writer) (item : Item) (immediate : Bool) :
    (course.archive.write course.file item.time item.path item.contents immediate).1 = .ok () ↔
      (Utf8.encode item.path).length ≤ 254 ∧ item.contents.length < 8 * 2 ^ 30 := by
  rw [← Item.fits_iff]
  exact Archive.write_ok_iff keeps.channel item course.file immediate

end Keeps

/-- A session can be started with any file that is not there or holds an intact archive. -/
theorem start_of_intact {file : Option (List UInt8)} (intact : Intact (file.getD [])) :
    ∃ course writer, start file = .ok course ∧ course.taken = [] ∧
      course.Keeps (if file = none then .write else .append) (file.getD []) writer := by
  obtain ⟨course, started⟩ : ∃ course, start file = .ok course := by
    cases file with
    | none => exact ⟨_, rfl⟩
    | some file =>
      have opened := Archive.openExisting_of_scanned intact.scanned .append
      exact start_of_opened (congrArg Prod.fst opened)
  obtain ⟨writer, grows⟩ := grows_of_start started
  have untaken := taken_of_start started
  refine ⟨course, writer, started, untaken, grows, intact, fun item member => ?_⟩
  rw [untaken] at member
  contradiction

end Course

/-- What sessions have left. -/
structure Past where
  /-- The file, if there is one. -/
  file : Option (List UInt8)
  /-- The items of all writes that succeeded, in order. -/
  taken : List Item
  deriving DecidableEq, Repr

namespace Past

/-- What is left after one more session, which is closed. -/
def session (past : Past) (calls : List Call) : Past :=
  match Course.start past.file with
  | .ok course => ⟨some (course.run calls).closed, past.taken ++ (course.run calls).taken⟩
  | .error _ => past

/-- What is left after several sessions in order. -/
def sessions (past : Past) (all : List (List Call)) : Past := all.foldl session past

/-- Sessions that are closed leave a file that continues the archive there was with all items. -/
theorem continues_session {first : List UInt8} {past : Past} {calls : List Call}
    (continued : Continues first past.taken (past.file.getD []))
    (plain : ∀ call ∈ calls, call.Plain) :
    Continues first (past.session calls).taken ((past.session calls).file.getD []) := by
  obtain ⟨course, writer, started, none_taken, keeps⟩ := Course.start_of_intact continued.intact
  obtain ⟨after, kept⟩ := keeps.run plain
  rw [session, started, Option.getD_some, kept.closed]
  exact continued.trans (continues_body continued.intact kept.sound).1

/-- So do any number of sessions in order. -/
theorem continues_sessions {first : List UInt8} {past : Past} {all : List (List Call)}
    (continued : Continues first past.taken (past.file.getD []))
    (plain : ∀ calls ∈ all, ∀ call ∈ calls, call.Plain) :
    Continues first (past.sessions all).taken ((past.sessions all).file.getD []) := by
  induction all generalizing past with
  | nil => exact continued
  | cons calls later ih =>
    have next := continues_session continued (plain calls List.mem_cons_self)
    have plain_later : ∀ other ∈ later, ∀ call ∈ other, call.Plain :=
      fun other member => plain other (List.mem_cons_of_mem _ member)
    exact ih next plain_later

end Past

/-- Sessions with a tar archive are sessions with a ledger of writes. After any sessions with a
file that was not there or held an intact archive, and any calls in one more, a write succeeds
exactly if its path and its contents fit, a session that appends reads back what the ledger has
last, and closing leaves the archive there was, to the padded end of its last entry, with every
item behind it and two blocks of zeros, which opens to the paths and the contents of the ledger. -/
theorem closed_sessions_refine_ledger (file : Option (List UInt8)) (intact : Intact (file.getD []))
    (earlier : List (List Call)) (calls : List Call)
    (plain : ∀ session ∈ calls :: earlier, ∀ call ∈ session, call.Plain) :
    let past := Past.sessions ⟨file, []⟩ earlier
    ∃ course, Course.start past.file = .ok course ∧
      course.archive.mode = (if past.file = none then .write else .append) ∧
      let now := course.run calls
      let items := past.taken ++ now.taken
      let ledger := stored (file.getD []) ++ items.map Item.written
      (course.archive.mode = .append →
        ∀ path, (now.archive.read now.file path).1 = .ok (ledger.latest path)) ∧
      (∀ (item : Item) (immediate : Bool),
        (now.archive.write now.file item.time item.path item.contents immediate).1 = .ok () ↔
          (Utf8.encode item.path).length ≤ 254 ∧ item.contents.length < 8 * 2 ^ 30) ∧
      now.archive.beginBatch = .ok () ∧ (now.archive.endBatch now.file).1 = .ok () ∧
      now.closed =
        body (file.getD []) ++ items.flatMap Item.bytes ++ Bytes.zeros (2 * blockLength) ∧
      (body (file.getD [])).length =
        ((scan (.ofBytes (file.getD []))).entries.map fun found => entryLength found.1.size).sum ∧
      ∃ reader, Archive.openExisting .read now.closed = (.ok reader, none) ∧
        reader.catalog.names = ledger.byFirst ∧
        ∀ path, (reader.read now.closed path).1 = .ok (ledger.latest path) := by
  intro past
  have continued : Continues (file.getD []) past.taken (past.file.getD []) :=
    Past.continues_sessions (.refl intact)
      fun session member => plain session (List.mem_cons_of_mem _ member)
  obtain ⟨course, writer, started, none_taken, keeps⟩ := Course.start_of_intact continued.intact
  obtain ⟨after, kept⟩ := keeps.run (plain calls List.mem_cons_self)
  refine ⟨course, started, keeps.mode, ?_⟩
  intro now items ledger
  have ledger_eq : stored (past.file.getD []) ++ now.taken.map Item.written = ledger := by
    rw [continued.stored, List.append_assoc, ← List.map_append]
  have closed := kept.closed
  obtain ⟨finished, ending⟩ := continues_body continued.intact kept.sound
  rw [← closed] at finished ending
  have opened : Archive.openExisting .read now.closed =
      (.ok (Archive.ofScan .read .reader (scan (.ofBytes now.closed))), none) := by
    rw [Archive.openExisting_of_scanned finished.intact.scanned, ending]
    rfl
  refine ⟨?_, kept.write_iff, ?_, ?_, ?_, length_body _, ?_⟩
  · intro appends path
    have mode := keeps.mode
    rw [appends] at mode
    have readable : (if past.file = none then Access.write else .append) ≠ .write := by
      rw [← mode]
      decide
    rw [← ledger_eq]
    exact kept.read readable path
  · rw [Archive.beginBatch, Archive.requireOpen, kept.channel]
    rfl
  · rw [Archive.endBatch_of_writer kept.channel]
  · rw [closed, continued.body, List.flatMap_append, List.append_assoc (body _)]
    rfl
  · refine ⟨_, opened, ?_, fun path => ?_⟩
    · rw [(Archive.tracks_ofScan finished.intact _ _).names, finished.stored, ledger_eq]
    · rw [← ledger_eq, ← finished.stored]
      exact Archive.read_of_reader finished.intact path

/-- An entry that one session writes is read back by the next, which appends, and after it. -/
theorem closed_sessions_refine_ledger_reopened :
    let past := Past.sessions ⟨none, []⟩ [[.write ⟨"a", [1, 2, 3], 0⟩ false]]
    ∃ course, Course.start past.file = .ok course ∧ course.archive.mode = .append ∧
      let now := course.run [.read "a", .beginBatch, .read "b", .endBatch]
      (now.archive.read now.file "a").1 = .ok [1, 2, 3] ∧
      (now.archive.read now.file "b").1 = .ok [] ∧
      ∃ reader, Archive.openExisting .read now.closed = (.ok reader, none) ∧
        reader.catalog.names = ["a"] ∧ (reader.read now.closed "a").1 = .ok [1, 2, 3] := by
  intro past
  obtain ⟨course, started, mode, reads, -, -, -, -, -, reader, opened, names, later⟩ :=
    closed_sessions_refine_ledger none intact_nil [[.write ⟨"a", [1, 2, 3], 0⟩ false]]
      [.read "a", .beginBatch, .read "b", .endBatch] (by simp [Call.Plain, Header.Plain])
  have taken : (Past.sessions ⟨none, []⟩ [[.write ⟨"a", [1, 2, 3], 0⟩ false]]).taken =
      [⟨"a", [1, 2, 3], 0⟩] := by decide +kernel
  have present : past.file ≠ none := by decide +kernel
  have untaken : course.taken = [] := Course.taken_of_start started
  have now_taken : (course.run [.read "a", .beginBatch, .read "b", .endBatch]).taken = [] :=
    untaken
  have nothing : stored [] = [] := by
    obtain ⟨after, scanned⟩ := scan_nil
    rw [stored, scanned]
    rfl
  rw [if_neg present] at mode
  simp only [Option.getD_none, nothing, now_taken, taken, List.append_nil, List.nil_append]
    at reads names later
  refine ⟨course, started, mode, reads mode "a", reads mode "b", reader, opened, ?_, later "a"⟩
  exact names

end Trajectory.Tar
