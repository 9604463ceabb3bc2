import Trajectory.Proofs.Directory.Names
/-!
# Components of paths

The components of a path are what is left of its segments once those that do not matter are passed
over: a slash at its front, a dot at its front, the steps up, and the names. A path is taken for an
entry exactly if all of its components are names and there is one; and the components of the file of
an entry are those of the directory, followed by the names.
-/
namespace Trajectory.Directory

open Volume (isBlank segments)

/-- A component of a path. -/
inductive Component where
  /-- A slash at the front. -/
  | root
  /-- A dot at the front. -/
  | here
  /-- A step up. -/
  | above
  /-- A name. -/
  | named (name : String)
  deriving DecidableEq, Repr

namespace Component

/-- The component that a segment is, if it is one wherever it stands. -/
def ofSegment? (segment : String) : Option Component :=
  if isBlank segment then none else if segment = ".." then some above else some (named segment)

/-- The component that a path starts with for its first segment: a slash at its front parts an empty
segment from the next. -/
def front : List String → List Component
  | [] => []
  | first :: later =>
    if first = "" ∧ later ≠ [] then [root] else if first = "." then [here] else []

/-- Segments without a step up are names or none at all. -/
theorem filterMap_ofSegment? {names : List String} (staying : ".." ∉ names) :
    names.filterMap ofSegment? = (names.filter fun segment => !isBlank segment).map named := by
  induction names with
  | nil => rfl
  | cons segment later ih =>
    rw [List.mem_cons, not_or] at staying
    have rest := ih staying.2
    by_cases blank : isBlank segment = true
    · rw [List.filterMap_cons_none (by rw [ofSegment?, if_pos blank]), rest,
        List.filter_cons_of_neg (by simp [blank])]
    · have single : ofSegment? segment = some (named segment) := by
        rw [ofSegment?, if_neg blank, if_neg (Ne.symm staying.1)]
      rw [List.filterMap_cons_some single, rest, List.filter_cons_of_pos (by simp [blank]),
        List.map_cons]

/-- A step up is a component. -/
theorem above_mem {names : List String} (up : ".." ∈ names) :
    above ∈ names.filterMap ofSegment? :=
  List.mem_filterMap.mpr ⟨"..", up, by decide⟩

/-- What a path starts with does not depend on what its other segments are. -/
theorem front_append {names left right : List String} (first : names ≠ []) (some_left : left ≠ [])
    (some_right : right ≠ []) : front (names ++ left) = front (names ++ right) := by
  cases names with
  | nil => contradiction
  | cons segment later => simp [front, some_left, some_right]

end Component

open Component (front ofSegment? filterMap_ofSegment? above_mem front_append)

/-- The components of a path. -/
def components (path : String) : List Component :=
  front (segments path) ++ (segments path).filterMap ofSegment?

variable {root path target name : String}

/-- The name of an entry starts with a segment that is not empty. -/
theorem segments_entryName (some_char : entryName path ≠ "") :
    ∃ first later, segments (entryName path) = first :: later ∧ first ≠ "" := by
  cases parts : segments (entryName path) with
  | nil => exact absurd parts (by simp [segments, Text.pieces_ne_nil])
  | cons first later =>
    refine ⟨first, later, rfl, ?_⟩
    rintro rfl
    have whole := Volume.joined_segments (entryName path)
    rw [parts] at whole
    cases later with
    | nil => exact some_char whole.symm
    | cons second more =>
      -- a slash would follow the empty segment
      have start : (entryName path).toList.head? = some '/' := by
        rw [← whole, Volume.joined, String.toList_ofList]
        rfl
      rw [entryName, String.toList_ofList] at start
      exact head?_trimSlashes _ start

/-- A path stays below the directory exactly if its components are names. -/
theorem staysBelow_iff (path : String) : staysBelow (entryName path) = true ↔
    entryName path ≠ "" ∧
      ∀ component ∈ components (entryName path), ∃ name, component = .named name := by
  unfold staysBelow components
  rw [decide_eq_true_iff]
  refine and_congr_right fun some_char => ?_
  obtain ⟨first, later, parts, named⟩ := segments_entryName some_char
  have start : front (first :: later) = if first = "." then [.here] else [] := by
    rw [front, if_neg fun slash => named slash.1]
  rw [parts, start, List.head?_cons]
  constructor
  · rintro ⟨dot, staying⟩ component among
    rw [if_neg fun same => dot (congrArg some same), List.nil_append,
      filterMap_ofSegment? staying] at among
    obtain ⟨name, -, same⟩ := List.mem_map.mp among
    exact ⟨name, same.symm⟩
  · intro names
    constructor
    · intro same
      have dot := Option.some.inj same
      obtain ⟨name, impossible⟩ := names .here (List.mem_append_left _ (by simp [dot]))
      cases impossible
    · intro up
      obtain ⟨name, impossible⟩ := names .above (List.mem_append_right _ (above_mem up))
      cases impossible

/-- A path is taken if its name stays below the directory. -/
theorem isSome_target? (root path : String) :
    (target? root path).isSome = staysBelow (entryName path) := by
  unfold target?
  split
  · next stays => rw [stays]; rfl
  · next leaves => rw [Bool.eq_false_iff.mpr leaves]; rfl

/-- The file of a path that is taken, and what is known of its segments. -/
theorem target?_eq_some_iff : target? root path = some target ↔
    (entryName path ≠ "" ∧ (segments (entryName path)).head? ≠ some "." ∧
      ".." ∉ segments (entryName path)) ∧ target = join root (entryName path) := by
  unfold target? staysBelow
  split
  · next stays =>
    rw [decide_eq_true_iff] at stays
    exact ⟨fun taken => ⟨stays, (Option.some.inj taken).symm⟩, fun ⟨_, same⟩ => same ▸ rfl⟩
  · next leaves =>
    rw [decide_eq_true_iff] at leaves
    exact ⟨fun taken => by contradiction, fun ⟨stays, _⟩ => absurd stays leaves⟩

/-- A path that is taken has a name. -/
theorem keptSegments_ne_nil (taken : target? root path = some target) : keptSegments path ≠ [] := by
  obtain ⟨⟨some_char, dot, -⟩, -⟩ := target?_eq_some_iff.mp taken
  obtain ⟨first, later, parts, named⟩ := segments_entryName some_char
  rw [parts, List.head?_cons] at dot
  have kept : isBlank first ≠ true := by
    rw [ne_eq, Volume.isBlank_iff, not_or]
    exact ⟨named, fun same => dot (congrArg some same)⟩
  rw [keptSegments, parts, List.filter_cons_of_pos (by simpa using kept)]
  exact List.cons_ne_nil _ _

/-- A path of a directory starts as its part before the name of an entry does, if that starts with
nothing of its own. -/
theorem front_ground {names : List String} (some_segment : names ≠ []) (bare : front names = []) :
    front (ground root ++ names) = front (segments root) := by
  unfold ground
  split
  · next unnamed =>
    rw [List.nil_append, bare, unnamed]
    decide
  · next some_root =>
    split
    · next slash =>
      obtain ⟨outer, parts, -⟩ := segments_of_slash slash
      have some_outer : segments outer ≠ [] := by simp [segments, Text.pieces_ne_nil]
      rw [parts, List.dropLast_concat]
      exact front_append some_outer some_segment (List.cons_ne_nil _ _)
    · cases parts : segments root with
      | nil => exact absurd parts (by simp [segments, Text.pieces_ne_nil])
      | cons first later =>
        cases later with
        | cons second more => simp [front]
        | nil =>
          have named : first ≠ "" := by
            rintro rfl
            have whole := Volume.joined_segments root
            rw [parts] at whole
            exact some_root whole.symm
          simp [front, named]

/-- It has the same names and steps up. -/
theorem filterMap_ground (root : String) :
    (ground root).filterMap ofSegment? = (segments root).filterMap ofSegment? := by
  unfold ground
  split
  · next unnamed =>
    rw [unnamed]
    decide
  · split
    · next slash =>
      obtain ⟨outer, parts, -⟩ := segments_of_slash slash
      rw [parts, List.dropLast_concat, List.filterMap_append]
      exact (List.append_nil _).symm
    · rfl

/-- The components of the file of an entry are those of the directory, followed by names. -/
theorem components_target (taken : target? root path = some target) :
    components target = components root ++ (keptSegments path).map .named := by
  obtain ⟨⟨some_char, dot, staying⟩, rfl⟩ := target?_eq_some_iff.mp taken
  obtain ⟨first, later, parts, named⟩ := segments_entryName some_char
  have some_segment : segments (entryName path) ≠ [] := by
    rw [parts]
    exact List.cons_ne_nil _ _
  have bare : front (segments (entryName path)) = [] := by
    rw [parts, List.head?_cons] at dot
    rw [parts, front, if_neg fun slash => named slash.1,
      if_neg fun same => dot (congrArg some same)]
  calc components (join root (entryName path))
      = front (ground root ++ segments (entryName path)) ++
          ((ground root).filterMap ofSegment? ++
            (segments (entryName path)).filterMap ofSegment?) := by
        rw [components, segments_join, List.filterMap_append]
    _ = components root ++ (segments (entryName path)).filterMap ofSegment? := by
        rw [front_ground some_segment bare, filterMap_ground, components, List.append_assoc]
    _ = components root ++ (keptSegments path).map .named := by
        rw [filterMap_ofSegment? staying, keptSegments]

end Trajectory.Directory
