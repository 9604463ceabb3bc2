import Trajectory.Proofs.Ledger
import Trajectory.Proofs.Volume.Tree
/-!
# Files below a place

Below a place in a volume stand the files of a ledger, each under the segments of its name and with
the contents written last under it. They are files of their own: none of them stands anywhere else.
Saving one of them is a write to the ledger, whichever others there are.
-/
namespace Trajectory.Volume

/-- The place of an entry below another place. -/
def below (place : Place) (name : String) : Place := place ++ segments name

/-- No segment holds a slash. -/
theorem slash_not_mem_segments {path segment : String} (among : segment ∈ segments path) :
    '/' ∉ segment.toList := by
  obtain ⟨piece, cut, rfl⟩ := List.mem_map.mp among
  rw [String.toList_ofList]
  exact Text.not_mem_of_mem_pieces cut

/-- Segments without slashes are those of their path. -/
theorem segments_joined {names : List String} (some_name : names ≠ [])
    (clean : ∀ name ∈ names, '/' ∉ name.toList) : segments (joined names) = names := by
  have same : String.ofList ∘ String.toList = id := funext fun _ => String.ofList_toList
  rw [segments, joined, String.toList_ofList,
    Text.pieces_join (mt List.map_eq_nil_iff.mp some_name), List.map_map, same, List.map_id]
  intro piece among
  obtain ⟨name, listed, rfl⟩ := List.mem_map.mp among
  exact clean name listed

/-- A slash parts the segments before it from those after it. -/
theorem segments_slash (left right : String) :
    segments (left ++ "/" ++ right) = segments left ++ segments right := by
  have parted : (left ++ "/" ++ right).toList = left.toList ++ '/' :: right.toList := by
    simp [String.toList_append]
  rw [segments, parted, Text.pieces_append, List.map_append]
  rfl

/-- Different names have different places. -/
theorem below_inj {place : Place} {name other : String}
    (same : below place name = below place other) : name = other := by
  rw [← joined_segments name, ← joined_segments other, List.append_cancel_left same]

variable {volume after : Volume} {place : Place} {ledger : Ledger} {name : String} {number : Nat}
  {data : List UInt8}

/-- The files below a place are those of a ledger. -/
structure Stores (volume : Volume) (place : Place) (ledger : Ledger) : Prop where
  /-- Every file that stands somewhere exists. -/
  sound : volume.Sound
  /-- Every name stands for a file with the contents written last. -/
  stored : ∀ name ∈ ledger.map (·.1), ∃ number,
    volume.nodeAt (below place name) = some (.file number) ∧
      volume.content number = .bytes (ledger.latest name)
  /-- A file that is listed stands there and has a name. -/
  listed : ∀ here number, place <+: here → (here, Node.file number) ∈ volume.nodes →
    volume.nodeAt here = some (.file number) ∧ ∃ name ∈ ledger.map (·.1), here = below place name
  /-- A file stands nowhere else. -/
  alone : ∀ here number, place <+: here → volume.nodeAt here = some (.file number) →
    ∀ there, volume.nodeAt there = some (.file number) → there = here

/-- A file that stands somewhere is listed there. -/
theorem mem_of_nodeAt {here : Place} (standing : volume.nodeAt here = some (.file number)) :
    (here, Node.file number) ∈ volume.nodes := by
  unfold Volume.nodeAt at standing
  split at standing
  · simp at standing
  · obtain ⟨before, later, nodes, -⟩ := List.lookup_eq_some_iff.mp standing
    rw [nodes]
    exact List.mem_append_right _ List.mem_cons_self

/-- Nothing is written below a place where nothing stands. -/
theorem stores_nil (sound : volume.Sound) (vacant : ∀ entry ∈ volume.nodes, ¬place <+: entry.1) :
    volume.Stores place [] := by
  refine ⟨sound, by simp, fun here number leads among => absurd leads (vacant _ among),
    fun here number leads standing => absurd leads (vacant _ (mem_of_nodeAt standing))⟩

/-- Below a place is listed whatever is listed further down, under the rest of its place. -/
theorem mem_listing {rest : List String} {node : Node} :
    (rest, node) ∈ volume.listing place ↔
      rest ≠ [] ∧ (place ++ rest, node) ∈ volume.nodes := by
  rw [listing, List.mem_mergeSort, List.mem_filterMap]
  constructor
  · rintro ⟨⟨other, found⟩, among, kept⟩
    dsimp only at kept
    split at kept
    · next leads =>
      obtain ⟨rfl, rfl⟩ := Prod.mk.inj (Option.some.inj kept)
      obtain ⟨more, rfl⟩ := List.isPrefixOf_iff_prefix.mp leads.1
      rw [List.drop_left]
      exact ⟨fun none => leads.2 (by rw [none, List.append_nil]), among⟩
    · contradiction
  · rintro ⟨some_name, among⟩
    refine ⟨_, among, ?_⟩
    have leads : place.isPrefixOf (place ++ rest) ∧ place ≠ place ++ rest :=
      ⟨List.isPrefixOf_iff_prefix.mpr (List.prefix_append place rest),
        fun same => some_name (List.self_eq_append_right.mp same)⟩
    dsimp only
    rw [if_pos leads, List.drop_left]

namespace Stores

/-- The names of the files that are listed below a place are those of the ledger. -/
theorem exists_mem_listing (stores : volume.Stores place ledger) :
    (∃ rest number, (rest, Node.file number) ∈ volume.listing place ∧ joined rest = name) ↔
      name ∈ ledger.map (·.1) := by
  constructor
  · rintro ⟨rest, number, among, rfl⟩
    obtain ⟨-, written, member, same⟩ :=
      stores.listed _ number (List.prefix_append place rest) (mem_listing.mp among).2
    rw [List.append_cancel_left same, joined_segments]
    exact member
  · intro member
    obtain ⟨number, standing, -⟩ := stores.stored name member
    have some_segment : segments name ≠ [] := by
      obtain ⟨outer, last, parts⟩ := exists_segments name
      simp [parts]
    exact ⟨_, number, mem_listing.mpr ⟨some_segment, mem_of_nodeAt standing⟩, joined_segments name⟩

/-- Directories that are made change no files. -/
theorem paves (stores : volume.Stores place ledger) (paves : volume.Paves after) :
    after.Stores place ledger where
  sound := paves.sound stores.sound
  stored name written := by
    obtain ⟨number, standing, content⟩ := stores.stored name written
    exact ⟨number, paves.file_iff.mpr standing, (paves.content number).trans content⟩
  listed here number leads among := by
    obtain ⟨standing, named⟩ := stores.listed here number leads (paves.listed here number among)
    exact ⟨paves.file_iff.mpr standing, named⟩
  alone here number leads standing there again :=
    stores.alone here number leads (paves.file_iff.mp standing) there (paves.file_iff.mp again)

/-- Saving a file is a write to the ledger. -/
theorem saves (stores : volume.Stores place ledger)
    (saves : volume.Saves (below place name) number data after) :
    after.Stores place (ledger ++ [(name, data)]) := by
  have leads : place <+: below place name := List.prefix_append place _
  have alone := stores.alone (below place name) number leads
  have other_number {here : Place} {found : Nat} (distinct : here ≠ below place name)
      (standing : volume.nodeAt here = some (.file found)) : found ≠ number :=
    saves.ne_of_ne stores.sound (fun there => alone there) distinct standing
  refine ⟨saves.sound stores.sound, fun written member => ?_,
    fun here found below_place among => ?_, fun here found below_place standing there again => ?_⟩
  · rw [Ledger.latest_append_singleton]
    by_cases same : written = name
    · subst same
      rw [if_pos rfl]
      exact ⟨number, saves.node, saves.content (saves.inside stores.sound)⟩
    · rw [List.map_append, List.mem_append, List.map_singleton, List.mem_singleton] at member
      obtain ⟨found, standing, content⟩ := stores.stored written (member.resolve_right same)
      have distinct : below place written ≠ below place name := fun equal => same (below_inj equal)
      rw [if_neg same]
      refine ⟨found, ?_, ?_⟩
      · rw [saves.nodes _ distinct, standing]
      · rw [saves.spares.content (stores.sound standing) (other_number distinct standing), content]
  · rw [List.map_append, List.map_singleton]
    rcases saves.listed _ among with before | same
    · obtain ⟨standing, written, member, rfl⟩ := stores.listed here found below_place before
      refine ⟨?_, written, List.mem_append_left _ member, rfl⟩
      by_cases same : below place written = below place name
      · rw [same] at standing ⊢
        rcases saves.before with there | ⟨absent, -⟩
        · rw [saves.node, ← there, standing]
        · simp [absent] at standing
      · rw [saves.nodes _ same, standing]
    · obtain ⟨rfl, number_eq⟩ := Prod.mk.inj same
      rw [saves.node, number_eq]
      exact ⟨rfl, name, List.mem_append_right _ (List.mem_singleton_self name), rfl⟩
  · by_cases first : here = below place name
    · subst first
      rw [saves.node] at standing
      obtain rfl := Node.file.inj (Option.some.inj standing)
      by_contra distinct
      rw [saves.nodes there distinct] at again
      exact other_number distinct again rfl
    · rw [saves.nodes here first] at standing
      by_cases second : there = below place name
      · subst second
        rw [saves.node] at again
        obtain rfl := Node.file.inj (Option.some.inj again)
        exact absurd rfl (other_number first standing)
      · rw [saves.nodes there second] at again
        exact stores.alone here found below_place standing there again

end Stores

end Trajectory.Volume
