import Trajectory.Record.Path
/-!
# Names with tags

A segment is read as a name with tags, and a name with its tags is written as a segment. Writing
what was read gives the segment back. Reading what was written gives the name back exactly where
the name of a text does not itself end in a pair of tags.
-/
namespace Trajectory

/-- The format of a tag has that tag. -/
theorem Format.tag_of_ofTag? {text : String} {format : Format}
    (found : Format.ofTag? text = some format) : format.tag = text := by
  simpa using List.find?_some found

/-- The resolution of a tag has that tag. -/
theorem Resolution.tag?_of_ofTag? {text : String} {resolution : Resolution}
    (found : Resolution.ofTag? text = some resolution) : resolution.tag? = some text := by
  simpa using List.find?_some found

/-- The tag of a resolution names that resolution. -/
theorem Resolution.ofTag?_of_tag? {text : String} {resolution : Resolution}
    (tagged : resolution.tag? = some text) : Resolution.ofTag? text = some resolution := by
  cases resolution with
  | text => contradiction
  | uniform =>
    obtain rfl := Option.some.inj tagged
    decide
  | individual =>
    obtain rfl := Option.some.inj tagged
    decide

/-- Tags of formats consist of letters and digits. -/
theorem Format.isAlphanum_of_mem_tag (format : Format) :
    ∀ c ∈ format.tag.toList, c.isAlphanum := by
  apply List.all_eq_true.mp
  cases format <;> decide

/-- Tags of resolutions consist of letters and digits. -/
theorem Resolution.isAlphanum_of_mem_tag? {text : String} {resolution : Resolution}
    (tagged : resolution.tag? = some text) : ∀ c ∈ text.toList, c.isAlphanum := by
  apply List.all_eq_true.mp
  cases resolution with
  | text => contradiction
  | uniform =>
    obtain rfl := Option.some.inj tagged
    decide
  | individual =>
    obtain rfl := Option.some.inj tagged
    decide

namespace Label

/-- The last two pieces of a segment are a tag of a format and a tag of a resolution, with a
piece before them. -/
def EndsInTags (segment : List Char) : Prop :=
  ∃ outer element detail, Text.pieces '.' segment = outer ++ [element, detail] ∧ outer ≠ [] ∧
    (Format.ofTag? (String.ofList element)).isSome ∧
    (Resolution.ofTag? (String.ofList detail)).isSome

/-- A segment that ends in tags is read as the name before them. -/
theorem parse_of_pieces {segment : List Char} {outer : List (List Char)} {format : Format}
    {resolution : Resolution} {detail : String}
    (parts : Text.pieces '.' segment = outer ++ [format.tag.toList, detail.toList])
    (preceded : outer ≠ []) (tagged : resolution.tag? = some detail) :
    parse segment = ⟨Text.join '.' outer, format, resolution⟩ := by
  obtain ⟨next, before, listed⟩ := List.exists_cons_of_ne_nil (List.reverse_ne_nil_iff.mpr preceded)
  have whole : (next :: before).reverse = outer := by rw [← listed, List.reverse_reverse]
  have turned : (Text.pieces '.' segment).reverse =
      detail.toList :: format.tag.toList :: next :: before := by
    rw [parts, List.reverse_append, listed]
    rfl
  simp only [parse, turned, String.ofList_toList, Format.ofTag?_tag,
    Resolution.ofTag?_of_tag? tagged, whole]

/-- A segment that does not end in tags is read as a text of that name. -/
theorem parse_of_not_endsInTags {segment : List Char} (plain : ¬ EndsInTags segment) :
    parse segment = ⟨segment, .uint8, .text⟩ := by
  unfold parse
  split
  · next detail element next before listed =>
    split
    · next format resolution element_known detail_known =>
      refine absurd ⟨(next :: before).reverse, element, detail, ?_, by simp, ?_, ?_⟩ plain
      · rw [← List.reverse_reverse (Text.pieces '.' segment), listed]
        simp
      · simp [element_known]
      · simp [detail_known]
    · rfl
  · rfl

/-- How a segment is read: it ends in tags, or it is the name of a text. -/
theorem parse_cases (segment : List Char) :
    (∃ outer format resolution detail, outer ≠ [] ∧ Resolution.tag? resolution = some detail ∧
      Text.pieces '.' segment = outer ++ [format.tag.toList, detail.toList] ∧
      parse segment = ⟨Text.join '.' outer, format, resolution⟩) ∨
    (¬ EndsInTags segment ∧ parse segment = ⟨segment, .uint8, .text⟩) := by
  by_cases tagged : EndsInTags segment
  · left
    obtain ⟨outer, element, detail, parts, preceded, element_known, detail_known⟩ := tagged
    obtain ⟨format, found⟩ := Option.isSome_iff_exists.mp element_known
    obtain ⟨resolution, resolved⟩ := Option.isSome_iff_exists.mp detail_known
    have named := Resolution.tag?_of_ofTag? resolved
    have parts : Text.pieces '.' segment =
        outer ++ [format.tag.toList, (String.ofList detail).toList] := by
      rw [parts, Format.tag_of_ofTag? found, String.toList_ofList, String.toList_ofList]
    exact ⟨outer, format, resolution, _, preceded, named, parts,
      parse_of_pieces parts preceded named⟩
  · exact Or.inr ⟨tagged, parse_of_not_endsInTags tagged⟩

/-- Writing what was read gives the segment back. -/
theorem render_parse (segment : List Char) : (parse segment).render = segment := by
  obtain ⟨outer, format, resolution, detail, preceded, tagged, parts, read⟩ | ⟨-, read⟩ :=
    parse_cases segment
  · calc
      (parse segment).render =
          Text.join '.' outer ++ '.' :: format.tag.toList ++ '.' :: detail.toList := by
        simp only [read, render, tagged]
      _ = Text.join '.' (outer ++ [format.tag.toList, detail.toList]) := by
        rw [Text.join_append preceded (List.cons_ne_nil _ _)]
        simp [Text.join]
      _ = segment := by rw [← parts, Text.join_pieces]
  · simp [read, render, Resolution.tag?]

/-- Reading what was written gives the name and its tags back, unless it is a text whose name
ends in tags. -/
theorem parse_render {label : Label} (bytes : label.resolution = .text → label.format = .uint8)
    (plain : label.resolution = .text → ¬ EndsInTags label.name) : parse label.render = label := by
  obtain ⟨name, format, resolution⟩ := label
  cases tagged : resolution.tag? with
  | none =>
    obtain rfl : resolution = .text := by cases resolution <;> simp_all [Resolution.tag?]
    obtain rfl : format = .uint8 := bytes rfl
    simpa [render, tagged] using parse_of_not_endsInTags (plain rfl)
  | some detail =>
    have parts : Text.pieces '.' (render ⟨name, format, resolution⟩) =
        Text.pieces '.' name ++ [format.tag.toList, detail.toList] := by
      simp only [render, tagged, List.append_assoc, List.cons_append]
      rw [Text.pieces_append, Text.pieces_append,
        Text.pieces_of_not_mem fun dot => absurd (format.isAlphanum_of_mem_tag _ dot) (by decide),
        Text.pieces_of_not_mem fun dot =>
          absurd (Resolution.isAlphanum_of_mem_tag? tagged _ dot) (by decide),
        List.singleton_append]
    rw [parse_of_pieces parts (Text.pieces_ne_nil '.' name) tagged, Text.join_pieces]

/-- A name that is read has only characters of its segment. -/
theorem mem_of_mem_name_parse {segment : List Char} {c : Char} (found : c ∈ (parse segment).name) :
    c ∈ segment := by
  rw [← render_parse segment]
  unfold render
  split
  · exact found
  · simp [found]

/-- A name that is written has no slash unless it had one. -/
theorem slash_not_mem_render {label : Label} (single : '/' ∉ label.name) : '/' ∉ label.render := by
  unfold render
  split
  · exact single
  · next detail tagged =>
    have element : '/' ∉ label.format.tag.toList := fun slash =>
      absurd (label.format.isAlphanum_of_mem_tag _ slash) (by decide)
    have level : '/' ∉ detail.toList := fun slash =>
      absurd (Resolution.isAlphanum_of_mem_tag? tagged _ slash) (by decide)
    simp [single, element, level]

/-- A text that is read has the byte format and a name that does not end in tags. -/
theorem plain_parse {segment : List Char} (textual : (parse segment).resolution = .text) :
    (parse segment).format = .uint8 ∧ ¬ EndsInTags (parse segment).name := by
  obtain ⟨outer, format, resolution, detail, -, tagged, -, read⟩ | ⟨plain, read⟩ :=
    parse_cases segment
  · rw [read] at textual
    obtain rfl : resolution = .text := textual
    contradiction
  · rw [read]
    exact ⟨rfl, plain⟩

end Label

end Trajectory
