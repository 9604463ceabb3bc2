import Trajectory.Proofs.Record.Label
/-!
# Records and their paths

The path of a record is its segments with slashes between them, and a record is read from the
segments of a path. What a path is read as has the segments of the path, so reading loses nothing
but slashes at the front. A record is read back from its path exactly when none of its fields
imitates a separator, a marker or a pair of tags; these are the records that reading gives.
-/
namespace Trajectory.Record

/-- The segments of the group, none for an empty one. -/
def groupSegments (record : Record) : List (List Char) :=
  if record.group = "" then [] else Text.pieces '/' record.group.toList

/-- The segments after the group. -/
def localSegments (record : Record) : List (List Char) :=
  match record.behavior with
  | .constant => [record.label.render]
  | .discrete => [framesMarker, record.index.toList, record.label.render]
  | .continuous =>
    [varsMarker, record.label.render, record.index.toList ++ record.suffix.toList]

/-- The second segment from the end is a marker. -/
def Marked (segments : List (List Char)) : Prop :=
  ∃ outer marker last, segments = outer ++ [marker, last] ∧
    (marker = framesMarker ∨ marker = varsMarker)

/-- No field of the record imitates what separates the fields of a path. -/
structure Readable (record : Record) : Prop where
  /-- The name is within one segment. -/
  name : '/' ∉ record.name.toList
  /-- The name of a text does not end in a tag of a format and a tag of a resolution that follow
  another piece. -/
  text : record.resolution = .text → ¬ Label.EndsInTags record.name.toList
  /-- A constant property has no index, and no marker as the second segment from the end of its
  group. -/
  constant : record.behavior = .constant →
    record.index = "" ∧ ¬ Marked (Text.pieces '/' record.group.toList)
  /-- The index of a discrete property is within one segment. -/
  discrete : record.behavior = .discrete → '/' ∉ record.index.toList
  /-- The index of a continuous property ends at a dot, and its suffix starts there. -/
  continuous : record.behavior = .continuous →
    '/' ∉ record.index.toList ∧ '.' ∉ record.index.toList ∧ '/' ∉ record.suffix.toList ∧
      (record.suffix = "" ∨ record.suffix.toList.head? = some '.')

/-- A path is its segments with slashes between them. -/
theorem toList_path (record : Record) :
    record.path.toList = Text.join '/' (record.groupSegments ++ record.localSegments) := by
  have rest : record.localPath = Text.join '/' record.localSegments := by
    unfold localPath localSegments
    cases record.behavior <;> simp [Text.join]
  have some_local : record.localSegments ≠ [] := by
    unfold localSegments
    split <;> simp
  unfold path groupSegments
  rw [String.toList_ofList, rest]
  split
  · rw [List.nil_append]
  · rw [Text.join_append (Text.pieces_ne_nil '/' _) some_local, Text.join_pieces]

/-- Every record is made of its own fields. -/
theorem make_fields (record : Record) :
    make record.group record.name record.index record.suffix record.behavior record.format
      record.resolution = record := by
  obtain ⟨group, name, suffix, behavior, format, resolution, index, trimmed, textual, suffixed⟩ :=
    record
  simp only [make, trimSlashes_of_head? trimmed, String.ofList_toList, mk.injEq, true_and, and_true]
  constructor
  · split
    · rfl
    · next other => exact (suffixed other).symm
  · split
    · next same => exact (textual same).symm
    · rfl

/-! ## Reading the segments of a path -/

/-- A path whose third segment from the end marks a discrete property. -/
theorem parse_discrete {path : String} {outer : List (List Char)} {index last : List Char}
    (segments : Text.pieces '/' (trimSlashes path.toList) = outer ++ [framesMarker, index, last]) :
    parse path = ofLabel outer (Label.parse last) index [] .discrete := by
  unfold parse
  rw [segments, List.reverse_append]
  simp

/-- A path whose third segment from the end marks a continuous property. -/
theorem parse_continuous {path : String} {outer : List (List Char)} {second last : List Char}
    (segments : Text.pieces '/' (trimSlashes path.toList) = outer ++ [varsMarker, second, last]) :
    parse path = ofLabel outer (Label.parse second) (last.takeWhile (· ≠ '.'))
      (last.dropWhile (· ≠ '.')) .continuous := by
  unfold parse
  rw [segments, List.reverse_append]
  simp [show varsMarker ≠ framesMarker by decide]

/-- A path without a marker as its third segment from the end. -/
theorem parse_constant {path : String} {outer : List (List Char)} {last : List Char}
    (segments : Text.pieces '/' (trimSlashes path.toList) = outer ++ [last])
    (unmarked : ¬ Marked outer) :
    parse path = ofLabel outer (Label.parse last) [] [] .constant := by
  unfold parse
  rw [segments, List.reverse_append, List.reverse_singleton, List.singleton_append]
  match turned : outer.reverse with
  | [] | [_] => simp [← turned]
  | second :: marker :: before =>
    have listed : outer = before.reverse ++ [marker, second] := by
      rw [← List.reverse_reverse outer, turned]
      simp
    have frames : marker ≠ framesMarker := fun same =>
      unmarked ⟨before.reverse, marker, second, listed, Or.inl same⟩
    have vars : marker ≠ varsMarker := fun same =>
      unmarked ⟨before.reverse, marker, second, listed, Or.inr same⟩
    simp [frames, vars, ← turned]

/-- The ways in which the segments of a path are read. -/
inductive Reading (segments : List (List Char)) : Record → Prop
  /-- As a discrete property. -/
  | discrete (outer : List (List Char)) (index last : List Char)
      (listed : segments = outer ++ [framesMarker, index, last]) :
      Reading segments (ofLabel outer (Label.parse last) index [] .discrete)
  /-- As a continuous property. -/
  | continuous (outer : List (List Char)) (second last : List Char)
      (listed : segments = outer ++ [varsMarker, second, last]) :
      Reading segments (ofLabel outer (Label.parse second) (last.takeWhile (· ≠ '.'))
        (last.dropWhile (· ≠ '.')) .continuous)
  /-- As a constant property. -/
  | constant (outer : List (List Char)) (last : List Char) (listed : segments = outer ++ [last])
      (unmarked : ¬ Marked outer) :
      Reading segments (ofLabel outer (Label.parse last) [] [] .constant)

/-- Every path is read in one of the ways. -/
theorem reading_parse (path : String) :
    Reading (Text.pieces '/' (trimSlashes path.toList)) (parse path) := by
  obtain ⟨outer, last, listed⟩ :=
    (List.eq_nil_or_concat (Text.pieces '/' (trimSlashes path.toList))).resolve_left
      (Text.pieces_ne_nil '/' _)
  rw [List.concat_eq_append] at listed
  by_cases marked : Marked outer
  · obtain ⟨before, marker, second, shape, rfl | rfl⟩ := marked
    · have listed : Text.pieces '/' (trimSlashes path.toList) =
          before ++ [framesMarker, second, last] := by
        rw [listed, shape]
        simp
      rw [parse_discrete listed]
      exact .discrete _ _ _ listed
    · have listed : Text.pieces '/' (trimSlashes path.toList) =
          before ++ [varsMarker, second, last] := by
        rw [listed, shape]
        simp
      rw [parse_continuous listed]
      exact .continuous _ _ _ listed
  · rw [parse_constant listed marked]
    exact .constant _ _ listed marked

/-! ## What a record that was read consists of -/

/-- A group in front of other segments starts with no slash and is empty only if it has no
segments. -/
theorem trimmed_group {outer rest : List (List Char)} (some_rest : rest ≠ [])
    (trimmed : (Text.join '/' (outer ++ rest)).head? ≠ some '/') :
    (Text.join '/' outer).head? ≠ some '/' ∧ (Text.join '/' outer = [] → outer = []) := by
  by_cases none : outer = []
  · simp [none, Text.join]
  · rw [Text.join_append none some_rest] at trimmed
    cases joined : Text.join '/' outer with
    | nil => simp [joined] at trimmed
    | cons c later => simpa [joined] using trimmed

variable {segments : List (List Char)} {record : Record}

/-- The label of a record that was read is the one read from its segment. -/
theorem label_ofLabel (outer : List (List Char)) (segment index suffix : List Char)
    (behavior : Behavior) : (ofLabel outer (Label.parse segment) index suffix behavior).label =
      Label.parse segment := by
  have textual := @Label.plain_parse segment
  simp only [label, ofLabel, make, String.toList_ofList]
  split
  · next text => rw [← (textual text).1]
  · rfl

/-- The segments that a record was read from are those of a group and those after it. -/
theorem Reading.exists_group (reading : Reading segments record) :
    ∃ outer, segments = outer ++ record.localSegments ∧
      record.group = String.ofList (trimSlashes (Text.join '/' outer)) ∧
      (record.behavior = .constant → ¬ Marked outer) := by
  cases reading with
  | discrete outer index last listed =>
    refine ⟨outer, ?_, by simp [ofLabel, make], nofun⟩
    rw [listed]
    simp only [localSegments, label_ofLabel, Label.render_parse]
    simp [ofLabel, make]
  | continuous outer second last listed =>
    refine ⟨outer, ?_, by simp [ofLabel, make], nofun⟩
    rw [listed]
    simp only [localSegments, label_ofLabel, Label.render_parse]
    simp [ofLabel, make]
  | constant outer last listed unmarked =>
    refine ⟨outer, ?_, by simp [ofLabel, make], fun _ => unmarked⟩
    rw [listed]
    simp only [localSegments, label_ofLabel, Label.render_parse]
    simp [ofLabel, make]

/-- There are always segments after the group. -/
theorem localSegments_ne_nil (record : Record) : record.localSegments ≠ [] := by
  unfold localSegments
  cases record.behavior <;> simp

/-- The group and the other segments of a record that was read are the segments of its path, and
no marker of a constant property is the second segment from the end of its group. -/
theorem Reading.segments_eq (reading : Reading segments record)
    (clean : ∀ piece ∈ segments, '/' ∉ piece)
    (trimmed : (Text.join '/' segments).head? ≠ some '/') :
    record.groupSegments ++ record.localSegments = segments ∧
      (record.behavior = .constant → ¬ Marked (Text.pieces '/' record.group.toList)) := by
  obtain ⟨outer, rfl, group, unmarked⟩ := reading.exists_group
  obtain ⟨start, full⟩ := trimmed_group record.localSegments_ne_nil trimmed
  rw [trimSlashes_of_head? start] at group
  unfold groupSegments
  by_cases none : outer = []
  · subst none
    refine ⟨by simp [group, Text.join], fun _ marked => ?_⟩
    obtain ⟨before, marker, last, listed, -⟩ := marked
    have short := congrArg List.length listed
    simp [group, Text.join, Text.pieces, Text.cut] at short
  · have some_group : record.group ≠ "" := fun empty =>
      none (full (by simpa using group.symm.trans empty))
    have parts : Text.pieces '/' record.group.toList = outer := by
      rw [group, String.toList_ofList,
        Text.pieces_join none fun piece found => clean piece (List.mem_append_left _ found)]
    rw [if_neg some_group, parts]
    exact ⟨rfl, unmarked⟩

/-- The name of a record that was read from a segment is within it, and that of a text does not
end in tags. -/
theorem plain_ofLabel (outer : List (List Char)) {segment : List Char} (index suffix : List Char)
    (behavior : Behavior) (single : '/' ∉ segment) :
    '/' ∉ (ofLabel outer (Label.parse segment) index suffix behavior).name.toList ∧
      ((ofLabel outer (Label.parse segment) index suffix behavior).resolution = .text →
        ¬ Label.EndsInTags
          (ofLabel outer (Label.parse segment) index suffix behavior).name.toList) := by
  have named : (ofLabel outer (Label.parse segment) index suffix behavior).name.toList =
      (Label.parse segment).name := by simp [ofLabel, make]
  rw [named]
  exact ⟨fun found => single (Label.mem_of_mem_name_parse found),
    fun textual => (Label.plain_parse textual).2⟩

/-- A record that was read can be read again. -/
theorem Reading.readable (reading : Reading segments record)
    (clean : ∀ piece ∈ segments, '/' ∉ piece)
    (unmarked : record.behavior = .constant → ¬ Marked (Text.pieces '/' record.group.toList)) :
    record.Readable := by
  cases reading with
  | discrete outer index last listed =>
    have single : '/' ∉ last := clean last (by simp [listed])
    have indexed : '/' ∉ index := clean index (by simp [listed])
    obtain ⟨name, text⟩ := plain_ofLabel outer index [] .discrete single
    refine ⟨name, text, nofun, fun _ => ?_, nofun⟩
    simpa [ofLabel, make] using indexed
  | continuous outer second last listed =>
    have labelled : '/' ∉ second := clean second (by simp [listed])
    have single : '/' ∉ last := clean last (by simp [listed])
    obtain ⟨name, text⟩ := plain_ofLabel outer (last.takeWhile (· ≠ '.'))
      (last.dropWhile (· ≠ '.')) .continuous labelled
    refine ⟨name, text, nofun, nofun, fun _ => ?_⟩
    simp only [ofLabel, make, ↓reduceIte, String.toList_ofList]
    refine ⟨fun found => single ((List.takeWhile_sublist _).mem found), fun found => ?_,
      fun found => single ((List.dropWhile_sublist _).mem found), ?_⟩
    · have before := List.all_eq_true.mp (List.all_takeWhile (p := (· ≠ '.'))) _ found
      simp at before
    · have first := List.head?_dropWhile_not (· ≠ '.') last
      cases rest : last.dropWhile (· ≠ '.') with
      | nil => exact Or.inl rfl
      | cons c later =>
        rw [rest] at first
        have dot : c = '.' := by simpa using first
        exact Or.inr (by simp [dot])
  | constant outer last listed _ =>
    have single : '/' ∉ last := clean last (by simp [listed])
    obtain ⟨name, text⟩ := plain_ofLabel outer [] [] .constant single
    exact ⟨name, text, fun same => ⟨by simp [ofLabel, make], unmarked same⟩, nofun, nofun⟩

/-- Every record that is read from a path can be read again. -/
theorem readable_parse (path : String) : (parse path).Readable := by
  have reading := reading_parse path
  have clean : ∀ piece ∈ Text.pieces '/' (trimSlashes path.toList), '/' ∉ piece :=
    fun _ found => Text.not_mem_of_mem_pieces found
  refine reading.readable clean (reading.segments_eq clean ?_).2
  rw [Text.join_pieces]
  exact head?_trimSlashes path.toList

/-- The record read from a path has the segments of the path. -/
theorem toList_path_parse (path : String) :
    (parse path).path.toList = trimSlashes path.toList := by
  have clean : ∀ piece ∈ Text.pieces '/' (trimSlashes path.toList), '/' ∉ piece :=
    fun _ found => Text.not_mem_of_mem_pieces found
  have trimmed : (Text.join '/' (Text.pieces '/' (trimSlashes path.toList))).head? ≠ some '/' := by
    rw [Text.join_pieces]
    exact head?_trimSlashes path.toList
  rw [toList_path, ((reading_parse path).segments_eq clean trimmed).1, Text.join_pieces]

/-- Writing the record read from a path gives the path back without the slashes at its front, so
paths are read as the same record exactly if they differ in those slashes at most. -/
theorem path_parse (path : String) :
    (parse path).path = String.ofList (trimSlashes path.toList) ∧
      ∀ other, parse other = parse path ↔ trimSlashes other.toList = trimSlashes path.toList := by
  constructor
  · rw [← toList_path_parse, String.ofList_toList]
  · intro other
    constructor
    · intro same
      rw [← toList_path_parse, ← toList_path_parse, same]
    · intro same
      unfold parse
      rw [same]

example : (parse "//a//frames/1/x.u8.ind").path = "a//frames/1/x.u8.ind" := by decide +kernel

/-! ## Reading the path of a record -/

/-- A record is made of the segments of its group and its other fields. -/
theorem ofLabel_groupSegments (record : Record) :
    ofLabel record.groupSegments record.label record.index.toList record.suffix.toList
      record.behavior = record := by
  have group : Text.join '/' record.groupSegments = record.group.toList := by
    unfold groupSegments
    split
    · next empty => simp [empty, Text.join]
    · rw [Text.join_pieces]
  simp only [ofLabel, group, label, String.ofList_toList]
  exact record.make_fields

/-- A marked group is marked in the segments of its path. -/
theorem not_marked_groupSegments {record : Record}
    (unmarked : ¬ Marked (Text.pieces '/' record.group.toList)) :
    ¬ Marked record.groupSegments := by
  unfold groupSegments
  split
  · rintro ⟨before, marker, last, listed, -⟩
    simp at listed
  · exact unmarked

/-- The segments of a record that can be read have no slash. -/
theorem Readable.slash_not_mem {record : Record} (readable : record.Readable) {piece : List Char}
    (found : piece ∈ record.groupSegments ++ record.localSegments) : '/' ∉ piece := by
  have written : '/' ∉ record.label.render := Label.slash_not_mem_render readable.name
  rcases List.mem_append.mp found with grouped | localized
  · unfold groupSegments at grouped
    split at grouped
    · contradiction
    · exact Text.not_mem_of_mem_pieces grouped
  · unfold localSegments at localized
    cases behavior : record.behavior with
    | constant =>
      simp only [behavior, List.mem_singleton] at localized
      exact localized ▸ written
    | discrete =>
      have index := readable.discrete behavior
      simp only [behavior, List.mem_cons, List.not_mem_nil, or_false] at localized
      rcases localized with rfl | rfl | rfl
      · decide
      · exact index
      · exact written
    | continuous =>
      obtain ⟨index, -, suffix, -⟩ := readable.continuous behavior
      simp only [behavior, List.mem_cons, List.not_mem_nil, or_false] at localized
      rcases localized with rfl | rfl | rfl
      · decide
      · exact written
      · simp [index, suffix]

/-- The path of a record that can be read starts with no slash. -/
theorem Readable.head?_path {record : Record} (readable : record.Readable) :
    record.path.toList.head? ≠ some '/' := by
  rw [toList_path]
  unfold groupSegments
  split
  · have written : '/' ∉ record.label.render := Label.slash_not_mem_render readable.name
    unfold localSegments
    cases record.behavior with
    | constant =>
      intro slash
      exact written (List.mem_of_mem_head? slash)
    | discrete => simp [Text.join, framesMarker]
    | continuous => simp [Text.join, varsMarker]
  · next full =>
    rw [Text.join_append (Text.pieces_ne_nil '/' _) record.localSegments_ne_nil, Text.join_pieces]
    have group := record.group_trimmed
    cases listed : record.group.toList with
    | nil => exact absurd (String.toList_eq_nil_iff.mp listed) full
    | cons c later => simpa [listed] using group

/-- The path of a record that can be read has the segments of the record. -/
theorem Readable.pieces_path {record : Record} (readable : record.Readable) :
    Text.pieces '/' (trimSlashes record.path.toList) =
      record.groupSegments ++ record.localSegments := by
  have some_segment : record.groupSegments ++ record.localSegments ≠ [] := by
    simp [localSegments_ne_nil]
  rw [trimSlashes_of_head? readable.head?_path, toList_path,
    Text.pieces_join some_segment fun piece found => readable.slash_not_mem found]

/-- A record that can be read is read back from its path. -/
theorem Readable.parse_path {record : Record} (readable : record.Readable) :
    parse record.path = record := by
  have labelled : Label.parse record.label.render = record.label :=
    Label.parse_render record.format_text readable.text
  have segments := readable.pieces_path
  have rebuilt := record.ofLabel_groupSegments
  unfold localSegments at segments
  cases behavior : record.behavior with
  | constant =>
    obtain ⟨index, unmarked⟩ := readable.constant behavior
    have suffix := record.suffix_continuous (by simp [behavior])
    rw [behavior] at segments
    rw [parse_constant segments (not_marked_groupSegments unmarked), labelled]
    simpa [behavior, index, suffix] using rebuilt
  | discrete =>
    have suffix := record.suffix_continuous (by simp [behavior])
    rw [behavior] at segments
    rw [parse_discrete segments, labelled]
    simpa [behavior, suffix] using rebuilt
  | continuous =>
    obtain ⟨-, undotted, -, dotted⟩ := readable.continuous behavior
    rw [behavior] at segments
    have before : ∀ c ∈ record.index.toList, decide (c ≠ '.') = true := by
      intro c found
      simpa using fun same : c = '.' => undotted (same ▸ found)
    have after : record.suffix.toList.takeWhile (· ≠ '.') = [] ∧
        record.suffix.toList.dropWhile (· ≠ '.') = record.suffix.toList := by
      rcases dotted with empty | start
      · simp [empty]
      · cases listed : record.suffix.toList with
        | nil => simp
        | cons c later =>
          obtain rfl : c = '.' := by simpa [listed] using start
          simp
    rw [parse_continuous segments, labelled, List.takeWhile_append_of_pos before,
      List.dropWhile_append_of_pos before, after.1, after.2, List.append_nil]
    simpa [behavior] using rebuilt

/-- Reading undoes writing for exactly the records none of whose fields imitates what separates
the fields of a path. -/
theorem parse_path_eq_iff (record : Record) : parse record.path = record ↔ record.Readable :=
  ⟨fun same => same ▸ readable_parse record.path, Readable.parse_path⟩

end Trajectory.Record
