/-!
# Catalogs

An archive keeps two structures about its entries: the list of their names, in the order in which
they were first listed, and a map from names to what is remembered of them, such as where their
contents are. Where nothing but the name is remembered the map is the set of the known names.
Whether a name is listed already is looked up in the map, and the list is what is enumerated. The
two are changed separately; that they stay in step is `InStep`.
-/
namespace Trajectory

/-- The list of names, and what is remembered of names. -/
structure Catalog (α : Type) where
  /-- The names, in the order first listed. -/
  names : List String
  /-- What is remembered of a name. -/
  known : List (String × α)
  deriving DecidableEq, Repr

namespace Catalog

variable {α : Type}

/-- Nothing is listed, nothing is remembered. -/
def empty : Catalog α := ⟨[], []⟩

/-- What is remembered of a name. -/
def get? (catalog : Catalog α) (name : String) : Option α := catalog.known.lookup name

/-- List a name that is not known, and remember something of it in place of what was remembered. -/
def insert (catalog : Catalog α) (name : String) (value : α) : Catalog α where
  names := if (catalog.get? name).isSome then catalog.names else catalog.names ++ [name]
  known := (name, value) :: catalog.known.filter fun (other, _) => other ≠ name

/-- List several names in order. -/
def insertAll (catalog : Catalog α) (entries : List (String × α)) : Catalog α :=
  entries.foldl (fun catalog (name, value) => catalog.insert name value) catalog

/-- The catalog of a listing, in which a name may occur more than once. -/
def ofList (entries : List (String × α)) : Catalog α := empty.insertAll entries

/-- The names as they come, and the set of them. -/
def ofNames (names : List String) : Catalog Unit := ⟨names, names.map fun name => (name, ())⟩

/-- The names, and the set of those that are known. -/
def index (catalog : Catalog α) : Catalog Unit :=
  ⟨catalog.names, catalog.known.map fun (name, _) => (name, ())⟩

/-- The names and the map are in step: each name is listed once, and something is remembered of
the names that are listed and of no others. -/
structure InStep (catalog : Catalog α) : Prop where
  /-- Each name is listed once. -/
  nodup : catalog.names.Nodup
  /-- The names of which something is remembered are those listed. -/
  known_iff : ∀ name, (catalog.get? name).isSome ↔ name ∈ catalog.names

/-- Listing a name decides what is remembered of it, and of no other. -/
theorem get?_insert (catalog : Catalog α) (name other : String) (value : α) :
    (catalog.insert name value).get? other =
      if other = name then some value else catalog.get? other := by
  rw [get?, insert, List.lookup_cons]
  by_cases same : other = name
  · simp [same]
  · have kept : (catalog.known.filter fun (first, _) => first ≠ name).lookup other =
        catalog.known.lookup other := by
      induction catalog.known with
      | nil => rfl
      | cons entry rest ih =>
        obtain ⟨first, known⟩ := entry
        by_cases dropped : first = name
        · have distinct : (other == first) = false := by simpa [dropped] using same
          rw [List.filter_cons_of_neg (by simp [dropped]), ih, List.lookup_cons, distinct]
        · rw [List.filter_cons_of_pos (by simp [dropped]), List.lookup_cons, List.lookup_cons, ih]
    have distinct : (other == name) = false := by simpa using same
    rw [distinct, if_neg same, kept, get?]

/-- Something is remembered of the name that was listed last and of those there were. -/
theorem isSome_get?_insert (catalog : Catalog α) (name other : String) (value : α) :
    ((catalog.insert name value).get? other).isSome ↔
      other = name ∨ (catalog.get? other).isSome := by
  rw [get?_insert]
  by_cases same : other = name <;> simp [same]

/-- A name is in the set if something is remembered of it. -/
theorem isSome_get?_index (catalog : Catalog α) (name : String) :
    (catalog.index.get? name).isSome = (catalog.get? name).isSome := by
  rw [get?, get?, index]
  induction catalog.known with
  | nil => rfl
  | cons entry rest ih =>
    obtain ⟨first, known⟩ := entry
    rw [List.map_cons, List.lookup_cons, List.lookup_cons]
    cases name == first with
    | true => rfl
    | false => exact ih

/-- Listing a name puts it into the set. -/
theorem index_insert (catalog : Catalog α) (name : String) (value : α) :
    (catalog.insert name value).index = catalog.index.insert name () := by
  rw [insert, insert, isSome_get?_index, index, index, List.map_cons, List.filter_map]
  rfl

namespace InStep

/-- A catalog of nothing is in step. -/
theorem empty : (empty : Catalog α).InStep := ⟨List.nodup_nil, by simp [get?, Catalog.empty]⟩

/-- Listing a name keeps the names and the map in step. -/
theorem insert {catalog : Catalog α} (inStep : catalog.InStep) (name : String) (value : α) :
    (catalog.insert name value).InStep := by
  have mapped := fun other => isSome_get?_insert catalog name other value
  by_cases known : (catalog.get? name).isSome
  · have names : (catalog.insert name value).names = catalog.names := if_pos known
    refine ⟨names ▸ inStep.nodup, fun other => ?_⟩
    rw [mapped, names, ← inStep.known_iff]
    exact or_iff_right_of_imp fun same => same ▸ known
  · have names : (catalog.insert name value).names = catalog.names ++ [name] := if_neg known
    have new : name ∉ catalog.names := fun listed => known ((inStep.known_iff name).mpr listed)
    constructor
    · rw [names, List.nodup_append]
      refine ⟨inStep.nodup, List.pairwise_singleton .., fun first listed last member same => ?_⟩
      rw [List.mem_singleton] at member
      exact new (member ▸ same ▸ listed)
    · intro other
      rw [mapped, names, List.mem_append, List.mem_singleton, inStep.known_iff, Or.comm]

/-- Listing several names keeps the names and the map in step. -/
theorem insertAll {catalog : Catalog α} (inStep : catalog.InStep)
    (entries : List (String × α)) : (catalog.insertAll entries).InStep := by
  induction entries generalizing catalog with
  | nil => exact inStep
  | cons entry rest ih => exact ih (inStep.insert entry.1 entry.2)

/-- The catalog of a listing is in step. -/
theorem ofList (entries : List (String × α)) : (ofList entries).InStep := empty.insertAll entries

/-- Distinct names and the set of them are in step. -/
theorem ofNames {names : List String} (distinct : names.Nodup) : (ofNames names).InStep := by
  refine ⟨distinct, fun name => ?_⟩
  rw [get?, Catalog.ofNames]
  clear distinct
  induction names with
  | nil => simp
  | cons first rest ih =>
    rw [List.map_cons, List.lookup_cons, List.mem_cons, ← ih]
    by_cases same : name = first
    · simp [same]
    · have distinct : (name == first) = false := by simpa using same
      simp [same, distinct]

variable {catalog : Catalog α} {name : String}

/-- The names and the set are in step if the names and the map are. -/
theorem index (inStep : catalog.InStep) : catalog.index.InStep where
  nodup := inStep.nodup
  known_iff name := by
    rw [isSome_get?_index]
    exact inStep.known_iff name

/-- The names and the map are in step if the names and the set are. -/
theorem of_index (inStep : catalog.index.InStep) : catalog.InStep where
  nodup := inStep.nodup
  known_iff name := by
    rw [← isSome_get?_index]
    exact inStep.known_iff name

/-- Nothing is remembered of the names that are not listed, and of no others. -/
theorem get?_eq_none_iff (inStep : catalog.InStep) :
    catalog.get? name = none ↔ name ∉ catalog.names := by
  rw [← inStep.known_iff, Option.not_isSome_iff_eq_none]

/-- A name of which something is remembered is listed. -/
theorem mem_names_of_get? (inStep : catalog.InStep) {value : α}
    (remembered : catalog.get? name = some value) : name ∈ catalog.names :=
  (inStep.known_iff name).mp (Option.isSome_of_eq_some remembered)

/-- The names after one is listed: it goes to the end if it is new. -/
theorem names_insert (inStep : catalog.InStep) (name : String) (value : α) :
    (catalog.insert name value).names =
      if name ∈ catalog.names then catalog.names else catalog.names ++ [name] := by
  by_cases known : (catalog.get? name).isSome
  · rw [if_pos ((inStep.known_iff name).mp known)]
    exact if_pos known
  · rw [if_neg fun listed => known ((inStep.known_iff name).mpr listed)]
    exact if_neg known

/-- The names after one is listed are that one and those there were. -/
theorem mem_names_insert (inStep : catalog.InStep) {other : String} {value : α} :
    other ∈ (catalog.insert name value).names ↔ other = name ∨ other ∈ catalog.names := by
  rw [← (inStep.insert name value).known_iff, isSome_get?_insert, inStep.known_iff]

end InStep

end Catalog

end Trajectory
