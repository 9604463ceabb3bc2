import Trajectory.Proofs.Tar.Archive
/-!
# Courses of sessions with tar archives

A session opens an archive, calls its operations in any order, and closes it. The calls share one
cursor. A call puts an item where the next entry goes, or gives up the place of the cursor, or
fails to read an entry, which moves the cursor and gives up nothing, or does none of these. Only
after a read that failed can the cursor be astray: taken to be at the end of the entries, and
somewhere else.
-/
namespace Trajectory.Tar

/-- A call of an operation of an open archive. -/
inductive Call where
  /-- Write an entry at a time, perhaps at once. -/
  | write (item : Item) (immediate : Bool)
  /-- Read an entry. -/
  | read (path : String)
  /-- Begin a batch of writes. -/
  | beginBatch
  /-- End a batch of writes. -/
  | endBatch
  deriving DecidableEq, Repr

/-- Calls that write do so under plain paths. -/
def Call.Plain : Call → Prop
  | write item _ => Header.Plain item.path
  | _ => True

/-- A session under way. -/
structure Course where
  /-- The open archive. -/
  archive : Archive
  /-- The bytes of its file. -/
  file : List UInt8
  /-- The items of the writes that succeeded, in order. -/
  taken : List Item
  deriving DecidableEq, Repr

namespace Course

/-- Start a session: an archive that is not there is written anew, any other is appended to. -/
def start : Option (List UInt8) → Except ArchiveError Course
  | none => .ok ⟨.create, [], []⟩
  | some file => (Archive.openExisting .append file).1.map fun archive => ⟨archive, file, []⟩

/-- The session after a call. -/
def call (course : Course) : Call → Course
  | .write item immediate =>
    match course.archive.write course.file item.time item.path item.contents immediate with
    | (.ok (), archive, file) => ⟨archive, file, course.taken ++ [item]⟩
    | (.error _, archive, file) => ⟨archive, file, course.taken⟩
  | .read path =>
    let (_, archive, file) := course.archive.read course.file path
    ⟨archive, file, course.taken⟩
  | .beginBatch => course
  | .endBatch =>
    let (_, archive, file) := course.archive.endBatch course.file
    ⟨archive, file, course.taken⟩

/-- The session after several calls in order. -/
def run (course : Course) (calls : List Call) : Course := calls.foldl call course

/-- The file after the session is closed. -/
def closed (course : Course) : List UInt8 := (course.archive.close course.file).2

/-- Whether the cursor is astray after a call, that is, taken to be at the end of the entries and
somewhere else. A write that fails and a read of an entry give up its place; a read that fails
moves it and does not. -/
def strays (course : Course) (astray : Bool) : Call → Bool
  | .write item immediate =>
    match (course.archive.write course.file item.time item.path item.contents immediate).1 with
    | .ok () => astray
    | .error _ => false
  | .read path =>
    match (course.archive.read course.file path).1 with
    | .ok _ => if path ∈ course.archive.catalog.names then false else astray
    | .error (.io _) => course.archive.inPlace
    | .error _ => astray
  | .beginBatch | .endBatch => astray

/-- Whether the cursor is astray after several calls. -/
def drift (course : Course) (astray : Bool) : List Call → Bool
  | [] => astray
  | call :: later => (course.call call).drift (course.strays astray call) later

/-- No item is taken while the cursor is astray. -/
def Steady (course : Course) (astray : Bool) : List Call → Prop
  | [] => True
  | call :: later =>
    (astray = true → (course.call call).taken = course.taken) ∧
      (course.call call).Steady (course.strays astray call) later

/-- What a call does to a session whose file is open for writing. -/
inductive Step (course : Course) (writer : BufferedWriter) (call : Call) :
    Course → BufferedWriter → Prop where
  /-- An item goes to where the next entry does, and becomes the last. -/
  | takes {item : Item} {immediate : Bool} {after : BufferedWriter} {kept : List UInt8}
    (writes : call = .write item immediate) (fits : item.Fits)
    (strays : ∀ astray, course.strays astray call = astray)
    (settled : after.settled kept =
      Bytes.overwrite (writer.settled course.file) (course.archive.landing writer) item.bytes)
    (reached : after.reach =
      course.archive.landing writer + entryLength item.contents.length) :
    Step course writer call ⟨{ course.archive with
      channel := .writer after
      catalog := course.archive.catalog.insert item.path
        ⟨course.archive.stop + blockLength, item.contents.length⟩
      stop := course.archive.stop + entryLength item.contents.length
      inPlace := true }, kept, course.taken ++ [item]⟩ after
  /-- The cursor is not taken to be at the end any more. -/
  | leaves {after : BufferedWriter} {kept : List UInt8}
    (strays : ∀ astray, course.strays astray call = false)
    (settled : after.settled kept = writer.settled course.file) :
    Step course writer call
      ⟨{ course.archive with channel := .writer after, inPlace := false }, kept, course.taken⟩ after
  /-- The settled file has not all of an entry, and the cursor is left short of its end. -/
  | fails {path : String} {extent : Extent} {after : BufferedWriter} {kept : List UInt8}
    (listed : course.archive.catalog.get? path = some extent)
    (strays : ∀ astray, course.strays astray call = course.archive.inPlace)
    (settled : after.settled kept = writer.settled course.file)
    (past : (writer.settled course.file).length ≤ after.reach)
    (short : after.reach < extent.offset + extent.size) :
    Step course writer call
      ⟨{ course.archive with channel := .writer after }, kept, course.taken⟩ after
  /-- The cursor stays where it is. -/
  | stays {after : BufferedWriter} {kept : List UInt8}
    (strays : ∀ astray, course.strays astray call = astray)
    (settled : after.settled kept = writer.settled course.file)
    (reached : after.reach = writer.reach) :
    Step course writer call
      ⟨{ course.archive with channel := .writer after }, kept, course.taken⟩ after

variable {course : Course} {writer : BufferedWriter}

/-- Passing on what is pending leaves the cursor where it is. -/
theorem Step.of_flush {call : Call} (strays : ∀ astray, course.strays astray call = astray) :
    Step course writer call
      ⟨{ course.archive with channel := .writer (writer.flush course.file).1 },
        writer.settled course.file, course.taken⟩ (writer.flush course.file).1 :=
  .stays strays (writer.settled_flush course.file).1 (writer.settled_flush course.file).2

/-- A call that does nothing leaves the cursor where it is. -/
theorem Step.of_same {call : Call} (channel : course.archive.channel = .writer writer)
    (strays : ∀ astray, course.strays astray call = astray) :
    Step course writer call course writer := by
  have same : { course.archive with channel := .writer writer } = course.archive := by
    rw [← channel]
  have step : Step course writer call
      ⟨{ course.archive with channel := .writer writer }, course.file, course.taken⟩ writer :=
    .stays strays rfl rfl
  rwa [same] at step

/-- The file stays open for writing. -/
theorem Step.channel {call : Call} {next : Course} {after : BufferedWriter}
    (step : Step course writer call next after) : next.archive.channel = .writer after := by
  cases step <;> rfl

/-- The names and what is remembered of them stay in step. -/
theorem Step.inStep {call : Call} {next : Course} {after : BufferedWriter}
    (step : Step course writer call next after) (inStep : course.archive.catalog.InStep) :
    next.archive.catalog.InStep := by
  cases step with
  | takes => exact inStep.insert ..
  | leaves | fails | stays => exact inStep

/-- A write takes its item if that fits, and fails otherwise. -/
theorem step_write (channel : course.archive.channel = .writer writer) (item : Item)
    (immediate : Bool) :
    ∃ after, Step course writer (.write item immediate) (course.call (.write item immediate))
      after := by
  cases encoded : Header.encode item.path item.contents.length item.time with
  | error limit =>
    obtain ⟨after, kept, refused, settled⟩ :=
      Archive.write_of_error channel encoded course.file immediate
    refine ⟨after, ?_⟩
    rw [Course.call, refused]
    refine .leaves (fun astray => ?_) settled
    rw [strays, refused]
  | ok header =>
    obtain ⟨after, kept, written, settled, reached⟩ :=
      Archive.write_of_ok channel encoded course.file immediate
    refine ⟨after, ?_⟩
    rw [Course.call, written]
    refine .takes rfl ⟨header, encoded⟩ (fun astray => ?_) settled reached
    rw [strays, written]

/-- A read gives up the place of the cursor if it gives an entry. -/
theorem step_read (channel : course.archive.channel = .writer writer)
    (inStep : course.archive.catalog.InStep) (path : String) :
    ∃ after, Step course writer (.read path) (course.call (.read path)) after := by
  by_cases writes : course.archive.mode = .write
  · have refused := Archive.read_of_write channel writes course.file path
    refine ⟨writer, ?_⟩
    rw [Course.call, refused]
    refine .of_same channel fun astray => ?_
    rw [strays, refused]
  cases listed : course.archive.catalog.get? path with
  | none =>
    have answered := Archive.read_of_none channel writes listed course.file
    refine ⟨(writer.flush course.file).1, ?_⟩
    rw [Course.call, answered]
    refine .of_flush fun astray => ?_
    rw [strays, answered]
    exact if_neg (inStep.get?_eq_none_iff.mp listed)
  | some extent =>
    by_cases whole : (((writer.settled course.file).drop extent.offset).take
        extent.size).length = extent.size
    · obtain ⟨position, answered⟩ := Archive.read_of_some channel writes listed whole
      refine ⟨⟨[], position⟩, ?_⟩
      rw [Course.call, answered]
      refine .leaves (fun astray => ?_) (BufferedWriter.settled_of_nil position _)
      rw [strays, answered]
      exact if_pos (inStep.mem_names_of_get? listed)
    · obtain ⟨position, answered, past, short⟩ := Archive.read_of_short channel writes listed whole
      refine ⟨⟨[], position⟩, ?_⟩
      rw [Course.call, answered]
      refine .fails listed (fun astray => ?_) (BufferedWriter.settled_of_nil position _) past short
      rw [strays, answered]

/-- Every call does one of these. -/
theorem step (channel : course.archive.channel = .writer writer)
    (inStep : course.archive.catalog.InStep) (call : Call) :
    ∃ after, Step course writer call (course.call call) after := by
  cases call with
  | write item immediate => exact step_write channel item immediate
  | read path => exact step_read channel inStep path
  | beginBatch => exact ⟨writer, .of_same channel fun _ => rfl⟩
  | endBatch =>
    refine ⟨(writer.flush course.file).1, ?_⟩
    rw [Course.call, Archive.endBatch_of_writer channel]
    exact .of_flush fun _ => rfl

/-! ## Items that are taken -/

/-- A write that succeeds takes its item. -/
theorem taken_of_ok {course : Course} {item : Item} {immediate : Bool}
    (accepted : (course.archive.write course.file item.time item.path item.contents
      immediate).1 = .ok ()) :
    (course.call (.write item immediate)).taken = course.taken ++ [item] := by
  rw [call]
  generalize course.archive.write course.file item.time item.path item.contents immediate =
    answer at accepted
  obtain ⟨result, archive, file⟩ := answer
  obtain rfl : result = .ok () := accepted
  rfl

/-- A call takes nothing, or what it writes. -/
theorem taken_call (course : Course) (call : Call) :
    (course.call call).taken = course.taken ∨
      ∃ item immediate, call = .write item immediate ∧
        (course.call call).taken = course.taken ++ [item] := by
  cases call with
  | write item immediate =>
    rw [Course.call]
    split
    · exact .inr ⟨item, immediate, rfl, rfl⟩
    · exact .inl rfl
  | read path => exact .inl rfl
  | beginBatch => exact .inl rfl
  | endBatch => exact .inl rfl

/-- What calls take follows what was taken, and is what they write. -/
theorem taken_run (course : Course) (calls : List Call) :
    ∃ more, (course.run calls).taken = course.taken ++ more ∧
      ∀ item ∈ more, ∃ immediate, .write item immediate ∈ calls := by
  induction calls generalizing course with
  | nil => exact ⟨[], (List.append_nil _).symm, nofun⟩
  | cons call later ih =>
    obtain ⟨more, taken, written⟩ := ih (course.call call)
    have written_later : ∀ item ∈ more, ∃ immediate, .write item immediate ∈ call :: later := by
      intro item member
      obtain ⟨immediate, found⟩ := written item member
      exact ⟨immediate, List.mem_cons_of_mem _ found⟩
    rcases course.taken_call call with same | ⟨item, immediate, writes, one⟩
    · exact ⟨more, same ▸ taken, written_later⟩
    · refine ⟨item :: more, ?_, ?_⟩
      · rw [one, List.append_assoc] at taken
        exact taken
      · intro other member
        cases List.mem_cons.mp member with
        | inl first => exact ⟨immediate, by rw [first, writes]; exact List.mem_cons_self⟩
        | inr rest => exact written_later other rest

end Course

end Trajectory.Tar
