import Mathlib.Data.List.Induction
import Mathlib.Data.List.Nodup
import Trajectory.Catalog
/-!
# Ledgers of writes

A ledger lists what was written under which path, in order. It says what an archive is to read
back, the contents written last, and in which order it is to list its paths.
-/
namespace Trajectory

/-! ## Names without repetitions -/

/-- A name that is added counts only if it is new. -/
theorem eraseDups_append_singleton (names : List String) (name : String) :
    (names ++ [name]).eraseDups =
      if name ∈ names.eraseDups then names.eraseDups else names.eraseDups ++ [name] := by
  rw [List.eraseDups_append]
  by_cases listed : name ∈ names.eraseDups
  · have known := List.mem_eraseDups.mp listed
    rw [if_pos listed, List.removeAll, List.filter_cons_of_neg (by simpa using known)]
    simp
  · have new : name ∉ names := fun known => listed (List.mem_eraseDups.mpr known)
    rw [if_neg listed, List.removeAll, List.filter_cons_of_pos (by simpa using new)]
    simp [List.eraseDups_cons]

/-- Dropping entries and dropping repetitions may be done in either order. -/
theorem eraseDups_filter (keep : String → Bool) (names : List String) :
    (names.filter keep).eraseDups = names.eraseDups.filter keep := by
  cases names with
  | nil => rfl
  | cons name rest =>
    have shorter : (rest.filter (!· == name)).length < (name :: rest).length :=
      Nat.lt_succ_of_le (List.length_filter_le ..)
    rw [List.eraseDups_cons]
    by_cases kept : keep name = true
    · rw [List.filter_cons_of_pos kept, List.filter_cons_of_pos kept, List.eraseDups_cons,
        ← eraseDups_filter keep (rest.filter (!· == name)), List.filter_filter, List.filter_filter]
      simp only [Bool.and_comm]
    · have others : (rest.filter (!· == name)).filter keep = rest.filter keep := by
        rw [List.filter_filter]
        refine List.filter_congr fun other _ => ?_
        by_cases same : other = name
        · simp [same, kept]
        · simp [same]
      rw [List.filter_cons_of_neg kept, List.filter_cons_of_neg kept,
        ← eraseDups_filter keep (rest.filter (!· == name)), others]
termination_by names.length
decreasing_by all_goals exact shorter

/-- No name is left twice. -/
theorem nodup_eraseDups (names : List String) : names.eraseDups.Nodup := by
  induction names using List.reverseRecOn with
  | nil => exact List.nodup_nil
  | append_singleton names name ih =>
    rw [eraseDups_append_singleton]
    split
    · exact ih
    · next new =>
      refine List.nodup_append.mpr ⟨ih, by simp, fun other listed last single => ?_⟩
      rw [List.mem_singleton.mp single]
      exact fun same => new (same ▸ listed)

/-- The names that are left are some of the names, in their order. -/
theorem eraseDups_sublist (names : List String) : names.eraseDups.Sublist names := by
  induction names using List.reverseRecOn with
  | nil => exact List.Sublist.refl _
  | append_singleton names name ih =>
    rw [eraseDups_append_singleton]
    split
    · exact ih.trans (List.sublist_append_left _ _)
    · exact ih.append (List.Sublist.refl _)

/-- Names without repetitions stay as they are. -/
theorem eraseDups_of_nodup {names : List String} (nodup : names.Nodup) :
    names.eraseDups = names := by
  induction names using List.reverseRecOn with
  | nil => rfl
  | append_singleton names name ih =>
    obtain ⟨before, -, distinct⟩ := List.nodup_append.mp nodup
    have new : name ∉ names :=
      fun listed => distinct name listed name (List.mem_singleton_self name) rfl
    rw [eraseDups_append_singleton, ih before, if_neg new]

/-! ## Ledgers -/

/-- Contents written under paths, in the order of the writes. -/
abbrev Ledger := List (String × List UInt8)

namespace Ledger

/-- The contents written last under a path; none under a path that was never written. -/
def latest (ledger : Ledger) (path : String) : List UInt8 :=
  (ledger.reverse.lookup path).getD []

/-- The distinct paths, in the order of their first writes. -/
def byFirst (ledger : Ledger) : List String := (ledger.map (·.1)).eraseDups

/-- The distinct paths, in the order of their last writes. -/
def byLast (ledger : Ledger) : List String := (ledger.map (·.1)).reverse.eraseDups.reverse

/-- A write decides what its own path reads as, and no other. -/
theorem latest_append_singleton (ledger : Ledger) (path other : String) (contents : List UInt8) :
    latest (ledger ++ [(path, contents)]) other =
      if other = path then contents else ledger.latest other := by
  rw [latest, latest, List.reverse_append, List.reverse_singleton, List.singleton_append,
    List.lookup_cons]
  by_cases same : other = path
  · simp [same]
  · have distinct : (other == path) = false := by simpa using same
    simp [same, distinct]

/-- Writes to other paths do not change what a path reads as. -/
theorem latest_append_of_not_mem {later : Ledger} {path : String}
    (unwritten : path ∉ later.map (·.1)) (ledger : Ledger) :
    latest (ledger ++ later) path = ledger.latest path := by
  induction later using List.reverseRecOn with
  | nil => rw [List.append_nil]
  | append_singleton later write ih =>
    rw [List.map_append, List.mem_append, not_or, List.map_singleton, List.mem_singleton]
      at unwritten
    rw [← List.append_assoc, latest_append_singleton, if_neg unwritten.2, ih unwritten.1]

/-- The last write to a path decides what it reads as. -/
theorem latest_of_last {later : Ledger} {path : String} (unwritten : path ∉ later.map (·.1))
    (ledger : Ledger) (contents : List UInt8) :
    latest (ledger ++ (path, contents) :: later) path = contents := by
  rw [← List.singleton_append, ← List.append_assoc, latest_append_of_not_mem unwritten,
    latest_append_singleton, if_pos rfl]

/-- A path that is written once among the last writes reads as what was written. -/
theorem latest_append_of_nodup {later : Ledger} (distinct : (later.map (·.1)).Nodup)
    {path : String} {contents : List UInt8} (written : (path, contents) ∈ later)
    (ledger : Ledger) : latest (ledger ++ later) path = contents := by
  obtain ⟨before, after, rfl⟩ := List.append_of_mem written
  rw [List.map_append, List.map_cons] at distinct
  have last := (List.nodup_cons.mp (List.nodup_append.mp distinct).2.1).1
  rw [← List.append_assoc]
  exact latest_of_last last (ledger ++ before) contents

/-- A path that is written once reads as what was written. -/
theorem latest_of_nodup {ledger : Ledger} (distinct : (ledger.map (·.1)).Nodup)
    {path : String} {contents : List UInt8} (written : (path, contents) ∈ ledger) :
    ledger.latest path = contents := latest_append_of_nodup distinct written []

/-- A path that was never written has no contents. -/
theorem latest_of_not_mem {ledger : Ledger} {path : String}
    (unwritten : path ∉ ledger.map (·.1)) : ledger.latest path = [] := by
  have absent : ledger.reverse.lookup path = none := by
    rw [List.lookup_eq_none_iff]
    intro write written
    have member : write.1 ∈ ledger.map (·.1) :=
      List.mem_map_of_mem (List.mem_reverse.mp written)
    have distinct : path ≠ write.1 := fun same => unwritten (same ▸ member)
    simpa using distinct
  rw [latest, absent, Option.getD_none]

/-- Every path written is listed. -/
theorem mem_byFirst {ledger : Ledger} {path : String} :
    path ∈ ledger.byFirst ↔ path ∈ ledger.map (·.1) := List.mem_eraseDups

/-- A write adds its path to the end if it is new. -/
theorem byFirst_append_singleton (ledger : Ledger) (path : String) (contents : List UInt8) :
    byFirst (ledger ++ [(path, contents)]) =
      if path ∈ ledger.byFirst then ledger.byFirst else ledger.byFirst ++ [path] := by
  rw [byFirst, List.map_append, List.map_singleton, eraseDups_append_singleton]
  rfl

/-- A write moves its path to the end. -/
theorem byLast_append_singleton (ledger : Ledger) (path : String) (contents : List UInt8) :
    byLast (ledger ++ [(path, contents)]) = ledger.byLast.filter (· ≠ path) ++ [path] := by
  rw [byLast, List.map_append, List.map_singleton, List.reverse_append, List.reverse_singleton,
    List.singleton_append, List.eraseDups_cons, List.reverse_cons, eraseDups_filter,
    ← List.filter_reverse, byLast]
  refine congrArg (· ++ [path]) (List.filter_congr fun other _ => ?_)
  by_cases same : other = path
  · simp [same]
  · simp [same]

/-- No path is listed twice. -/
theorem nodup_byLast (ledger : Ledger) : ledger.byLast.Nodup :=
  List.nodup_reverse.mpr (nodup_eraseDups _)

/-- The paths of one ledger by last writes, and those of another that are new by first writes. -/
theorem eraseDups_byLast_append (earlier later : Ledger) :
    (earlier.byLast ++ later.map (·.1)).eraseDups =
      earlier.byLast ++ later.byFirst.filter (· ∉ earlier.byLast) := by
  rw [List.eraseDups_append, eraseDups_of_nodup earlier.nodup_byLast, List.removeAll,
    eraseDups_filter, byFirst]
  simp only [List.elem_eq_mem, decide_not]

end Ledger

namespace Catalog

variable {α : Type}

/-- The last item of a listing is put into the catalog of the others. -/
theorem ofList_concat (entries : List (String × α)) (entry : String × α) :
    ofList (entries ++ [entry]) = (ofList entries).insert entry.1 entry.2 := by
  rw [ofList, ofList, insertAll, List.foldl_append]
  rfl

/-- A catalog of a listing has its names, each once. -/
theorem names_ofList (entries : List (String × α)) :
    (ofList entries).names = (entries.map (·.1)).eraseDups := by
  induction entries using List.reverseRecOn with
  | nil => rfl
  | append_singleton entries entry ih =>
    rw [ofList_concat, (InStep.ofList entries).names_insert, ih, List.map_append,
      List.map_singleton, eraseDups_append_singleton]

/-- A listing that follows another is put into its catalog. -/
theorem ofList_append (entries later : List (String × α)) :
    ofList (entries ++ later) = (ofList entries).insertAll later := List.foldl_append ..

/-- Listing other names does not change what is remembered of a name. -/
theorem get?_insertAll_of_not_mem {entries : List (String × α)} {name : String}
    (unlisted : name ∉ entries.map (·.1)) (catalog : Catalog α) :
    (catalog.insertAll entries).get? name = catalog.get? name := by
  induction entries generalizing catalog with
  | nil => rfl
  | cons entry rest ih =>
    rw [List.map_cons, List.mem_cons, not_or] at unlisted
    have later := ih unlisted.2 (catalog.insert entry.1 entry.2)
    rw [get?_insert, if_neg unlisted.1] at later
    exact later

/-- A catalog tracks a ledger: it lists the paths in the order of their first writes, and what
it remembers of each holds of the contents written last. -/
structure Tracks (catalog : Catalog α) (ledger : Ledger) (holds : α → List UInt8 → Prop) :
    Prop where
  /-- The names and what is remembered of them are in step. -/
  inStep : catalog.InStep
  /-- The paths are those written. -/
  names : catalog.names = ledger.byFirst
  /-- What is remembered of a path holds of what was written there last. -/
  found : ∀ {path value}, catalog.get? path = some value → holds value (ledger.latest path)

namespace Tracks

variable {catalog : Catalog α} {ledger : Ledger} {holds : α → List UInt8 → Prop}

/-- An empty catalog tracks a ledger without writes. -/
theorem empty (holds : α → List UInt8 → Prop) : Tracks .empty [] holds :=
  ⟨.empty, rfl, fun listed => nomatch listed⟩

/-- A path that the catalog does not list was never written. -/
theorem latest_of_none (tracks : catalog.Tracks ledger holds) {path : String}
    (absent : catalog.get? path = none) : ledger.latest path = [] := by
  have unlisted := tracks.inStep.get?_eq_none_iff.mp absent
  rw [tracks.names, Ledger.mem_byFirst] at unlisted
  exact Ledger.latest_of_not_mem unlisted

/-- Listing what was written under a path keeps track of the write. -/
theorem insert (tracks : catalog.Tracks ledger holds) {value : α} {contents : List UInt8}
    (written : holds value contents) (path : String) :
    (catalog.insert path value).Tracks (ledger ++ [(path, contents)]) holds := by
  refine ⟨tracks.inStep.insert .., ?_, ?_⟩
  · rw [tracks.inStep.names_insert, tracks.names, Ledger.byFirst_append_singleton]
  · intro other known listed
    rw [get?_insert] at listed
    rw [Ledger.latest_append_singleton]
    by_cases same : other = path
    · rw [if_pos same] at listed
      rw [if_pos same, ← Option.some.inj listed]
      exact written
    · rw [if_neg same] at listed
      rw [if_neg same]
      exact tracks.found listed

/-- What holds less is tracked too. -/
theorem weaken (tracks : catalog.Tracks ledger holds) {weaker : α → List UInt8 → Prop}
    (implied : ∀ value contents, holds value contents → weaker value contents) :
    catalog.Tracks ledger weaker :=
  ⟨tracks.inStep, tracks.names, fun listed => implied _ _ (tracks.found listed)⟩

/-- A catalog of what was written, in order, tracks the writes. -/
theorem ofList {β : Type} {entries : List β} {path : β → String} {value : β → α}
    {contents : β → List UInt8}
    (written : ∀ entry ∈ entries, holds (value entry) (contents entry)) :
    (ofList (entries.map fun entry => (path entry, value entry))).Tracks
      (entries.map fun entry => (path entry, contents entry)) holds := by
  induction entries using List.reverseRecOn with
  | nil => exact empty holds
  | append_singleton entries entry ih =>
    have before := ih fun other member => written other (List.mem_append_left _ member)
    have last := written entry (List.mem_append_right _ (List.mem_singleton_self _))
    rw [List.map_append, List.map_append, List.map_singleton, List.map_singleton, ofList_concat]
    exact before.insert last (path entry)

end Tracks

end Catalog

end Trajectory
