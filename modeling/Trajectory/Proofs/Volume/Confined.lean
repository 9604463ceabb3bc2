import Trajectory.Proofs.Volume.Inside
/-!
# Actions confined to a directory

A path that starts with the segments of a directory and does not go up after them concerns only
what stands inside the directory. Making directories at such a path, and saving a file, change
nothing elsewhere; and what they answer and do is the same in every volume with the same tree
inside, whatever else there is in it. The second is what it means that nothing outside is read.
-/
namespace Trajectory.Volume

variable {volume left right : Volume} {base names segs : List String} {place : Place}
  {path name : String}

/-! ## Guided paths -/

/-- A path that ends on the way to a directory, or goes on from there and does not go up. -/
def Guided (base segs : List String) : Prop :=
  segs <+: base ∨ ∃ rest, segs = base ++ rest ∧ ".." ∉ rest

namespace Guided

/-- A part of such a path is one. -/
theorem part (guided : Guided base segs) (leads : names <+: segs) : Guided base names := by
  rcases guided with before | ⟨rest, rfl, staying⟩
  · exact .inl (leads.trans before)
  · rcases List.prefix_or_prefix_of_prefix leads (List.prefix_append base rest) with
      before | ⟨kept, rfl⟩
    · exact .inl before
    · have shorter := (List.prefix_append_right_inj base).mp leads
      exact .inr ⟨kept, rfl, fun up => staying (shorter.subset up)⟩

/-- The last segment of such a path is one on the way, or it goes on from the directory. -/
theorem concat (guided : Guided base (segs ++ [name])) :
    segs ++ [name] <+: base ∨ ∃ rest, segs = base ++ rest ∧ ".." ∉ rest := by
  rcases guided with before | ⟨rest, same, staying⟩
  · exact .inl before
  · rcases List.eq_nil_or_concat rest with rfl | ⟨init, last, rfl⟩
    · rw [List.append_nil] at same
      exact .inl (same ▸ List.prefix_rfl)
    · rw [List.concat_eq_append, ← List.append_assoc] at same
      obtain ⟨rfl, -⟩ := List.append_inj' same rfl
      rw [List.concat_eq_append, List.mem_append, not_or] at staying
      exact .inr ⟨init, rfl, staying.1⟩

end Guided

/-- A new name is a segment of its path, or the path has only empty ones. -/
theorem splitLast_cases (path : String) :
    splitLast path = ([], "", true) ∨ ∃ outer last slashes,
      splitLast path = (outer, last, slashes) ∧ last ≠ "" ∧ outer ++ [last] <+: segments path := by
  rcases splitted : splitLast path with ⟨outer, last, slashes⟩
  by_cases named : last = ""
  · left
    unfold splitLast at splitted
    split at splitted
    · exact splitted.symm
    · next found rest dropped =>
      have first := List.head?_dropWhile_not (· = "") (segments path).reverse
      rw [dropped] at first
      have some_char : found ≠ "" := by simpa using first
      exact absurd ((Prod.mk.inj (Prod.mk.inj splitted).2).1.trans named) some_char
  · obtain ⟨blanks, parts, -⟩ := segments_of_splitLast splitted named
    refine .inr ⟨outer, last, slashes, rfl, named, blanks, ?_⟩
    rw [parts, List.append_assoc, List.singleton_append]

/-- A directory stands where the last segment of a path leads, whatever that is. -/
def Passed (volume : Volume) (path : String) : Prop :=
  ∃ here, volume.parentDirectory (splitLast path).1 = .ok here ∧
    ((splitLast path).2 = ("", true) ∨ (splitLast path).2.1 = "." ∨ (splitLast path).2.1 = ".." ∨
      Plain (splitLast path).2.1 ∧
        volume.nodeAt (here ++ [(splitLast path).2.1]) = some .directory)

/-- The last segment of a part of the way to a directory is passed. -/
theorem Based.passed {outer : List String} {last : String} {slashes : Bool}
    (based : volume.Based base place) (splitted : splitLast path = (outer, last, slashes))
    (named : last ≠ "") (before : outer ++ [last] <+: base) : volume.Passed path := by
  obtain ⟨here, outer_walked, standing⟩ := based.part ((List.prefix_append _ _).trans before)
  obtain ⟨there, walked, directory⟩ := based.part before
  have parent : volume.parentDirectory outer = .ok here := by
    rw [parentDirectory, outer_walked]
    dsimp only
    rw [standing]
  rw [walk_append, outer_walked] at walked
  have entered : volume.enter here last = .ok there := by
    cases entered : volume.enter here last with
    | error fault => simp [Except.bind, Volume.walk, entered] at walked
    | ok middle => simpa [Except.bind, Volume.walk, entered] using walked
  unfold Passed
  rw [splitted]
  refine ⟨here, parent, ?_⟩
  rcases (enter_eq_ok_iff.mp entered).2 with ⟨blank | dot, -⟩ | ⟨up, -⟩ | ⟨plain, rfl, -⟩
  · exact absurd blank named
  · exact .inr (.inl dot)
  · exact .inr (.inr (.inl up))
  · exact .inr (.inr (.inr ⟨plain, directory⟩))

/-- The last segment of a guided path is passed on the way to the directory; or it is one in a
directory at or inside that, or in none at all, and so for all twins. -/
theorem Guided.cases (based : volume.Based base place) (guided : Guided base (segments path)) :
    (∀ {twin : Volume}, Twins base place volume twin → twin.Passed path) ∨
    (∃ fault, ∀ {twin : Volume}, Twins base place volume twin →
      twin.parentDirectory (splitLast path).1 = .error fault) ∨
    ∃ here, place <+: here ∧ ∀ {twin : Volume}, Twins base place volume twin →
      twin.parentDirectory (splitLast path).1 = .ok here := by
  rcases splitLast_cases path with splitted | ⟨outer, last, slashes, splitted, named, leads⟩
  · refine .inl fun {twin} _ => ⟨[], ?_, ?_⟩
    · rw [splitted]
      rfl
    · rw [splitted]
      exact .inl rfl
  · rcases (guided.part leads).concat with before | ⟨rest, rfl, staying⟩
    · exact .inl fun twins => twins.another.passed splitted named before
    · rw [splitted]
      cases parent : volume.parentDirectory (base ++ rest) with
      | error fault =>
        exact .inr (.inl ⟨fault, fun twins => (twins.parentDirectory staying).trans parent⟩)
      | ok here =>
        have leads := based.prefix_of_parentDirectory staying parent
        exact .inr (.inr ⟨here, leads, fun twins => (twins.parentDirectory staying).trans parent⟩)

/-- Twins agree on whether a guided path leads to a directory. -/
theorem Twins.isDirectory (twins : Twins base place left right)
    (guided : Guided base (segments path)) : right.isDirectory path = left.isDirectory path := by
  unfold Volume.isDirectory
  rcases guided with before | ⟨rest, parts, staying⟩
  · cases checked : checkPath path with
    | error fault => simp [Volume.find, checked]
    | ok =>
      obtain ⟨here, found⟩ := twins.one.find before checked
      obtain ⟨there, found_right⟩ := twins.another.find before checked
      rw [found, found_right]
  · rw [twins.find parts staying]

/-! ## Confined actions -/

/-- An action is confined to the directory that a path leads to: it changes nothing outside, and its
answer and what it does inside are the same whatever there is outside. -/
def Confined {α : Type} (base : List String) (place : Place) (act : Volume → α × Volume) : Prop :=
  ∀ left right : Volume, Twins base place left right →
    (act right).1 = (act left).1 ∧ Twins base place (act left).2 (act right).2 ∧
      left.Within place (act left).2

/-- What a confined action does to twins: it gives one answer, and leaves twins. -/
theorem Confined.outcome {α : Type} {act : Volume → α × Volume} (confined : Confined base place act)
    (twins : Twins base place left right) : ∃ result one another, act left = (result, one) ∧
      act right = (result, another) ∧ Twins base place one another ∧ left.Within place one := by
  obtain ⟨same, twins_after, within⟩ := confined left right twins
  exact ⟨_, _, (act right).2, rfl, Prod.ext same rfl, twins_after, within⟩

/-- What leaves the volume alone is confined. -/
theorem confined_const {α : Type} (base : List String) (value : α) :
    Confined base place fun volume => (value, volume) :=
  fun left _ twins => ⟨rfl, twins, .refl left place⟩

/-- An action that goes on from the answer of another is confined if both are. -/
theorem Confined.bind {α β : Type} {act : Volume → α × Volume}
    (first : Confined base place act) (next : α → Volume → β × Volume)
    (second : ∀ volume, Confined base place (next (act volume).1)) :
    Confined base place fun volume => next (act volume).1 (act volume).2 := by
  intro left right twins
  obtain ⟨same, middle_twins, middle_within⟩ := first left right twins
  obtain ⟨ended, last_twins, last_within⟩ := second left _ _ middle_twins
  dsimp only
  rw [same]
  exact ⟨ended, last_twins, middle_within.trans last_within⟩

/-- Making a directory at a guided path fails, or makes one inside where nothing stood; which, and
where, is the same for all twins. -/
theorem makeDirectory_cases_inside (based : volume.Based base place)
    (guided : Guided base (segments path)) :
    (∃ fault, ∀ {twin : Volume}, Twins base place volume twin →
      twin.makeDirectory path = (.error fault, twin)) ∨
    ∃ made, Inside place made ∧ volume.nodeAt made = none ∧
      ∀ {twin : Volume}, Twins base place volume twin → twin.makeDirectory path =
        (.ok (), { twin with nodes := twin.nodes ++ [(made, .directory)] }) := by
  cases checked : checkPath path with
  | error fault => exact .inl ⟨fault, fun _ => by rw [makeDirectory, checked]⟩
  | ok =>
    rcases guided.cases based with passed | ⟨fault, parent⟩ | ⟨here, leads, parent⟩
    · refine .inl ⟨.alreadyExists, fun {twin} twins => ?_⟩
      obtain ⟨here, parent, taken⟩ := passed twins
      simp only [makeDirectory, checked, parent]
      rcases taken with blank | dot | up | ⟨plain, standing⟩
      · rw [if_pos (.inl (congrArg Prod.fst blank))]
      · rw [if_pos (.inr (.inl dot))]
      · rw [if_pos (.inr (.inr up))]
      · simp [standing, Nat.not_lt.mpr plain.short]
    · refine .inl ⟨fault, fun twins => ?_⟩
      simp only [makeDirectory, checked, parent twins]
    · have inside := inside_concat leads (splitLast path).2.1
      have made {twin : Volume} (twins : Twins base place volume twin) :
          twin.makeDirectory path =
            if (splitLast path).2.1 = "" ∨ (splitLast path).2.1 = "." ∨
                (splitLast path).2.1 = ".." then (.error .alreadyExists, twin)
            else if segmentLimit < (splitLast path).2.1.utf8ByteSize then
              (.error .nameTooLong, twin)
            else if (volume.nodeAt (here ++ [(splitLast path).2.1])).isSome then
              (.error .alreadyExists, twin)
            else
              (.ok (), { twin with
                nodes := twin.nodes ++ [(here ++ [(splitLast path).2.1], .directory)] }) := by
        simp only [makeDirectory, checked, parent twins, twins.nodes inside]
      split at made
      · exact .inl ⟨_, made⟩
      · split at made
        · exact .inl ⟨_, made⟩
        · split at made
          · exact .inl ⟨_, made⟩
          · next vacant => exact .inr ⟨_, inside, Option.not_isSome_iff_eq_none.mp vacant, made⟩

/-- Making a directory at a guided path is confined. -/
theorem confined_makeDirectory (guided : Guided base (segments path)) :
    Confined base place fun volume => volume.makeDirectory path := by
  intro left right twins
  dsimp only
  rcases makeDirectory_cases_inside twins.one guided with
    ⟨fault, failed⟩ | ⟨made, inside, absent, makes⟩
  · rw [failed twins, failed (.refl twins.one)]
    exact ⟨rfl, twins, .refl left place⟩
  · rw [makes twins, makes (.refl twins.one)]
    exact ⟨rfl, twins.makeDirectory inside absent, .makeDirectory inside absent⟩

/-- Opening a file to be written at a guided path fails, or gives a file inside, which is new or
stood there and is emptied; which, and where, is the same for all twins. -/
theorem create_cases_inside (based : volume.Based base place)
    (guided : Guided base (segments path)) :
    (∃ fault, ∀ {twin : Volume}, Twins base place volume twin →
      twin.create path = (.error fault, twin)) ∨
    (∃ made, Inside place made ∧ volume.nodeAt made = none ∧
      ∀ {twin : Volume}, Twins base place volume twin →
        twin.create path = (.ok twin.files.length, (twin.addFile made).2)) ∨
    ∃ standing number, Inside place standing ∧ volume.nodeAt standing = some (.file number) ∧
      ∀ {twin : Volume}, Twins base place volume twin →
        twin.create path = (.ok number, twin.setBytes number []) := by
  cases checked : checkPath path with
  | error fault => exact .inl ⟨fault, fun _ => by rw [create, checked]⟩
  | ok =>
    rcases guided.cases based with passed | ⟨fault, parent⟩ | ⟨here, leads, parent⟩
    · refine .inl ⟨.isDirectory, fun {twin} twins => ?_⟩
      obtain ⟨here, parent, taken⟩ := passed twins
      simp only [create, checked, parent]
      rcases taken with blank | dot | up | ⟨plain, standing⟩
      · rw [if_pos (.inl (congrArg Prod.snd blank))]
      · rw [if_pos (.inr (.inl dot))]
      · rw [if_pos (.inr (.inr up))]
      · simp [standing, Nat.not_lt.mpr plain.short]
    · refine .inl ⟨fault, fun twins => ?_⟩
      simp only [create, checked, parent twins]
    · have inside := inside_concat leads (splitLast path).2.1
      by_cases special : (splitLast path).2.2 = true ∨ (splitLast path).2.1 = "." ∨
          (splitLast path).2.1 = ".."
      · refine .inl ⟨.isDirectory, fun twins => ?_⟩
        simp only [create, checked, parent twins, if_pos special]
      by_cases long : segmentLimit < (splitLast path).2.1.utf8ByteSize
      · refine .inl ⟨.nameTooLong, fun twins => ?_⟩
        simp only [create, checked, parent twins, if_neg special, if_pos long]
      have stands {twin : Volume} (twins : Twins base place volume twin) := twins.nodes inside
      cases standing : volume.nodeAt (here ++ [(splitLast path).2.1]) with
      | none =>
        refine .inr (.inl ⟨_, inside, standing, fun twins => ?_⟩)
        simp only [create, checked, parent twins, if_neg special, if_neg long, stands twins,
          standing]
        rfl
      | some node =>
        cases node with
        | directory =>
          refine .inl ⟨.isDirectory, fun twins => ?_⟩
          simp only [create, checked, parent twins, if_neg special, if_neg long, stands twins,
            standing]
        | file number =>
          refine .inr (.inr ⟨_, number, inside, standing, fun twins => ?_⟩)
          simp only [create, checked, parent twins, if_neg special, if_neg long, stands twins,
            standing]

/-- Saving a file at a guided path is confined. -/
theorem confined_save (guided : Guided base (segments path)) (data : List UInt8) :
    Confined base place fun volume => volume.save path data := by
  intro left right twins
  dsimp only
  rcases create_cases_inside twins.one guided with ⟨fault, failed⟩ |
    ⟨made, inside, absent, creates⟩ | ⟨other, number, inside, standing, creates⟩
  · rw [save, save, failed twins, failed (.refl twins.one)]
    exact ⟨rfl, twins, .refl left place⟩
  · rw [save, save, creates twins, creates (.refl twins.one), twins.count]
    have added := twins.addFile inside absent
    have stands : (left.addFile made).2.nodeAt made = some (.file left.files.length) := by
      rw [nodeAt_addFile, absent, Option.none_or, if_pos rfl]
    exact ⟨rfl, added.setBytes inside stands data,
      (Within.addFile inside absent).trans (.setBytes inside stands data)⟩
  · rw [save, save, creates twins, creates (.refl twins.one)]
    have emptied := twins.setBytes inside standing []
    have stands : (left.setBytes number []).nodeAt other = some (.file number) := by
      rw [nodeAt_congr (left.frame_setBytes number []).1, standing]
    exact ⟨rfl, emptied.setBytes inside stands data,
      (Within.setBytes inside standing []).trans (.setBytes inside stands data)⟩

/-- Making a directory and those above it that are missing is confined. -/
theorem confined_makeAll {reversed : List String} (guided : Guided base reversed.reverse)
    (clean : ∀ segment ∈ reversed, '/' ∉ segment.toList) :
    Confined base place fun volume => volume.makeAll reversed := by
  induction count : reversed.length using Nat.strongRecOn generalizing reversed with
  | ind count ih =>
    intro left right twins
    dsimp only
    by_cases named : joined reversed.reverse = ""
    · rw [makeAll_of_unnamed named, makeAll_of_unnamed named]
      exact ⟨rfl, twins, .refl left place⟩
    have some_segment : reversed.reverse ≠ [] := by
      intro none_left
      rw [none_left] at named
      exact named rfl
    have parts : segments (joined reversed.reverse) = reversed.reverse :=
      segments_joined some_segment fun segment among => clean segment (List.mem_reverse.mp among)
    have guided_path : Guided base (segments (joined reversed.reverse)) := by
      rw [parts]
      exact guided
    have single : Confined base place fun volume =>
        volume.makeDirectory (joined reversed.reverse) := confined_makeDirectory guided_path
    obtain ⟨result, one, another, made, made', made_twins, made_within⟩ := single.outcome twins
    cases result with
    | ok done =>
      rw [makeAll_of_made named made, makeAll_of_made named made']
      exact ⟨rfl, made_twins, made_within⟩
    | error fault =>
      by_cases missing : fault = .notFound
      · subst missing
        cases found : above reversed with
        | none =>
          rw [makeAll_of_above_none named made found, makeAll_of_above_none named made' found]
          exact ⟨rfl, twins, .refl left place⟩
        | some outer =>
          rw [makeAll_of_above named made found, makeAll_of_above named made' found]
          have leads := prefix_of_above found
          have shorter := count ▸ length_above found
          have clean_outer : ∀ segment ∈ outer, '/' ∉ segment.toList := fun segment among =>
            clean segment (List.mem_reverse.mp (leads.subset (List.mem_reverse.mpr among)))
          have first : Confined base place fun volume => volume.makeAll outer :=
            ih _ shorter (guided.part leads) clean_outer rfl
          obtain ⟨reached, one, another, above, above', above_twins, above_within⟩ :=
            first.outcome twins
          rw [above, above']
          cases reached with
          | error fault => exact ⟨rfl, above_twins, above_within⟩
          | ok done =>
            obtain ⟨last, one_made, another_made, made, made', last_twins, last_within⟩ :=
              single.outcome above_twins
            dsimp only
            rw [made, made']
            cases last with
            | ok done => exact ⟨rfl, last_twins, above_within.trans last_within⟩
            | error fault =>
              dsimp only
              rw [above_twins.isDirectory guided_path]
              exact ⟨rfl, above_twins, above_within⟩
      · rw [makeAll_of_error named made missing, makeAll_of_error named made' missing,
          twins.isDirectory guided_path]
        exact ⟨rfl, twins, .refl left place⟩

end Trajectory.Volume
