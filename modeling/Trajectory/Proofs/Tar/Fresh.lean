import Trajectory.Proofs.Tar.Growth
/-!
# New tar archives

A new archive takes every item that fits, under any path at all. Read back, its entries are under
the paths that their headers spell, so one may have another path, and two may have become one: all
is as it was written exactly if every path is one that a header can spell.
-/
namespace Trajectory.Tar

/-- What items under paths that headers can spell are read back as. -/
theorem written_of_faithful {items : List Item}
    (faithful : ∀ item ∈ items, Header.Faithful item.path) :
    items.map (fun item => item.spelled.written) = items.map Item.written := by
  refine List.map_congr_left fun item member => ?_
  rw [Item.spelled_eq_iff.mpr (faithful item member)]

/-- Items under distinct paths are read back under these paths, in order, exactly if a header can
spell every one. -/
theorem byFirst_spelled_iff {items : List Item} (distinct : (items.map Item.path).Nodup) :
    Ledger.byFirst (items.map fun item => item.spelled.written) = items.map Item.path ↔
      ∀ item ∈ items, Header.Faithful item.path := by
  have paths (items : List Item) : (items.map Item.written).map (·.1) = items.map Item.path := by
    rw [List.map_map]
    rfl
  constructor
  · intro same item member
    -- as many paths are left as there were, so none was dropped and each is the one written
    have kept := (eraseDups_sublist _).eq_of_length ((congrArg List.length same).trans (by simp))
    rw [Ledger.byFirst, kept, List.map_map] at same
    exact Header.restored_eq_iff.mp (List.map_inj_left.mp same item member)
  · intro faithful
    rw [written_of_faithful faithful, Ledger.byFirst, paths, eraseDups_of_nodup distinct]

namespace Course

/-- A call that writes takes its item exactly if that fits. -/
theorem taken_write {course : Course} {writer : BufferedWriter}
    (channel : course.archive.channel = .writer writer) (item : Item) (immediate : Bool) :
    (course.call (.write item immediate)).taken =
      course.taken ++ [item].filter
        fun item => (Utf8.encode item.path).length ≤ 254 ∧ item.contents.length < 8 * 2 ^ 30 := by
  have small := item.fits_iff
  cases encoded : Header.encode item.path item.contents.length item.time with
  | error limit =>
    obtain ⟨after, kept, refused, -⟩ :=
      Archive.write_of_error channel encoded course.file immediate
    have large : ¬ item.Fits := fun ⟨header, fits⟩ => by
      rw [encoded] at fits
      contradiction
    rw [small] at large
    rw [call, refused, List.filter_cons_of_neg (by simpa using large), List.filter_nil,
      List.append_nil]
  | ok header =>
    obtain ⟨after, kept, written, -⟩ := Archive.write_of_ok channel encoded course.file immediate
    have fits := small.mp ⟨header, encoded⟩
    rw [call, written, List.filter_cons_of_pos (by simpa using fits), List.filter_nil]

/-- Calls that only write never lead the cursor astray, and take every item that fits. -/
theorem taken_writes {course : Course} {writer : BufferedWriter}
    (channel : course.archive.channel = .writer writer) (inStep : course.archive.catalog.InStep)
    (writes : List (Item × Bool)) :
    let calls := writes.map fun write => Call.write write.1 write.2
    course.Steady false calls ∧ (course.run calls).taken =
      course.taken ++ (writes.map (·.1)).filter
        fun item => (Utf8.encode item.path).length ≤ 254 ∧ item.contents.length < 8 * 2 ^ 30 := by
  induction writes generalizing course writer with
  | nil => exact ⟨trivial, (List.append_nil _).symm⟩
  | cons write later ih =>
    obtain ⟨item, immediate⟩ := write
    obtain ⟨between, step⟩ := course.step channel inStep (.write item immediate)
    obtain ⟨steady, taken⟩ := ih step.channel (step.inStep inStep)
    have found : course.strays false (.write item immediate) = false := by
      rw [strays]
      split <;> rfl
    refine ⟨⟨fun astray => Bool.noConfusion astray, found.symm ▸ steady⟩, ?_⟩
    have first := taken_write channel item immediate
    rw [first, List.append_assoc, ← List.filter_append] at taken
    exact taken

end Course

/-- A new archive under any distinct paths takes every item whose path and contents are short
enough, and when it is closed it opens without a warning. It then has the entries, in order, under
the paths that their headers spell, where of several under one path the last counts. So the paths
are those written, each with the contents written, exactly if a header can spell every one. -/
theorem fresh_archive_faithful_iff (writes : List (Item × Bool))
    (distinct : (writes.map (·.1.path)).Nodup) :
    let now := Course.run ⟨.create, [], []⟩ (writes.map fun write => .write write.1 write.2)
    let ledger : Ledger := now.taken.map fun item => item.spelled.written
    now.taken = ((writes.map (·.1)).filter fun item =>
        (Utf8.encode item.path).length ≤ 254 ∧ item.contents.length < 8 * 2 ^ 30) ∧
      ∃ reader, Archive.openExisting .read now.closed = (.ok reader, none) ∧
        reader.catalog.names = ledger.byFirst ∧
        (∀ path, (reader.read now.closed path).1 = .ok (ledger.latest path)) ∧
        (reader.catalog.names = now.taken.map Item.path ∧
            (∀ item ∈ now.taken, (reader.read now.closed item.path).1 = .ok item.contents) ↔
          ∀ item ∈ now.taken, Header.Faithful item.path) := by
  intro now ledger
  have started : Course.start none = .ok ⟨.create, [], []⟩ := rfl
  obtain ⟨writer, grows⟩ := Course.grows_of_start started
  obtain ⟨steady, (taken : now.taken = _)⟩ :=
    Course.taken_writes grows.channel grows.inStep writes
  obtain ⟨after, (grown : now.Grows _ _ _ _)⟩ := grows.run steady
  obtain ⟨reader, opened, names, reads⟩ := grown.reopened
  rw [Option.getD_none, filled_nil, List.nil_append] at names reads
  rw [List.nil_append] at taken
  have paths : (now.taken.map Item.path).Nodup := by
    have some_items : now.taken.Sublist (writes.map (·.1)) := taken ▸ List.filter_sublist
    have every := some_items.map Item.path
    rw [List.map_map] at every
    exact distinct.sublist every
  refine ⟨taken, reader, opened, names, reads, ?_⟩
  have spelled := byFirst_spelled_iff paths
  rw [names]
  refine ⟨fun same => spelled.mp same.1, fun faithful => ⟨spelled.mpr faithful, ?_⟩⟩
  intro item member
  have once : ((now.taken.map Item.written).map (·.1)).Nodup := by
    rw [List.map_map]
    exact paths
  have written : (item.path, item.contents) ∈ now.taken.map Item.written :=
    List.mem_map_of_mem member
  rw [reads, written_of_faithful faithful, Ledger.latest_of_nodup once written]

/-- Two entries under paths that a header can spell are both found as they were written. -/
theorem fresh_archive_faithful_iff_two :
    let now := Course.run ⟨.create, [], []⟩
      [.write ⟨"frames/é", [1, 2, 3], 0⟩ false, .write ⟨"b", [], 5⟩ true]
    ∃ reader, Archive.openExisting .read now.closed = (.ok reader, none) ∧
      reader.catalog.names = ["frames/é", "b"] ∧
      (reader.read now.closed "frames/é").1 = .ok [1, 2, 3] := by
  intro now
  obtain ⟨(taken : now.taken = _), reader, opened, -, -, found⟩ := fresh_archive_faithful_iff
    [(⟨"frames/é", [1, 2, 3], 0⟩, false), (⟨"b", [], 5⟩, true)] (by decide)
  have both : now.taken = [⟨"frames/é", [1, 2, 3], 0⟩, ⟨"b", [], 5⟩] := by
    rw [taken]
    decide +kernel
  have faithful : ∀ item ∈ now.taken, Header.Faithful item.path := by
    rw [both]
    simp only [List.mem_cons, List.not_mem_nil, or_false, forall_eq_or_imp, forall_eq]
    exact ⟨⟨by decide, .inl (by decide +kernel)⟩, ⟨by decide, .inl (by decide +kernel)⟩⟩
  obtain ⟨names, reads⟩ := found.mpr faithful
  have first : ⟨"frames/é", [1, 2, 3], 0⟩ ∈ now.taken := both ▸ List.mem_cons_self
  exact ⟨reader, opened, names.trans (congrArg (List.map Item.path) both), reads _ first⟩

/-- A path is cut off at its first NUL: the entry is not found as it was written. -/
theorem nul_ends_path :
    let now := Course.run ⟨.create, [], []⟩ [.write ⟨"x\x00y", [7], 0⟩ true]
    now.taken.map Item.path = ["x\x00y"] ∧
      ∃ reader, Archive.openExisting .read now.closed = (.ok reader, none) ∧
        reader.catalog.names = ["x"] ∧ (reader.read now.closed "x\x00y").1 = .ok [] := by
  intro now
  have started : Course.start none = .ok ⟨.create, [], []⟩ := rfl
  obtain ⟨writer, grows⟩ := Course.grows_of_start started
  obtain ⟨steady, (taken : now.taken = _)⟩ :=
    Course.taken_writes grows.channel grows.inStep [(⟨"x\x00y", [7], 0⟩, true)]
  obtain ⟨after, (grown : now.Grows _ _ _ _)⟩ := grows.run steady
  have one : now.taken = [⟨"x\x00y", [7], 0⟩] := by
    rw [taken]
    decide +kernel
  have cut : Header.restored "x\x00y" = "x" := by decide +kernel
  obtain ⟨reader, opened, names, reads⟩ := grown.reopened
  rw [one, Option.getD_none, filled_nil, List.nil_append, List.map_singleton, Item.written,
    Item.spelled, cut] at names reads
  refine ⟨by rw [one, List.map_singleton], reader, opened, ?_, ?_⟩
  · rw [names]
    decide
  · rw [reads]
    decide

end Trajectory.Tar
