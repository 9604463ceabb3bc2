import Trajectory.Directory.Archive
import Trajectory.Proofs.Volume.Stores
/-!
# Names of entries in a directory

The file of an entry stands below the directory under the segments of its path, of which those that
stay where they are are passed over. So paths that differ in such segments only are paths of the
same file. It is enumerated under the one path that has none of them when the directory is opened
again.
-/
namespace Trajectory.Directory

open Volume (isBlank segments joined below)

/-- The segments of a path under which the file of an entry stands. -/
def keptSegments (path : String) : List String :=
  (segments (entryName path)).filter fun segment => !isBlank segment

/-- The name under which the file of an entry is found. -/
def foundName (path : String) : String := joined (keptSegments path)

/-- The name under which an entry is found has the segments under which it stands. -/
theorem segments_foundName {path : String} (some_segment : keptSegments path ≠ []) :
    segments (foundName path) = keptSegments path :=
  Volume.segments_joined some_segment fun _ among =>
    Volume.slash_not_mem_segments (List.mem_filter.mp among).1

variable {volume : Volume} {here there place : Place} {root path target name : String}

/-- The segments of the path of a directory that come before the name of an entry: a slash that it
ends with is the one before the name. -/
def ground (root : String) : List String :=
  if root = "" then []
  else if root.toList.getLast? = some '/' then (segments root).dropLast
  else segments root

/-- A path that ends with a slash has an empty segment after it. -/
theorem segments_of_slash (slash : root.toList.getLast? = some '/') :
    ∃ front, segments root = segments front ++ [""] ∧ root = front ++ "/" := by
  obtain ⟨front, last⟩ := List.getLast?_eq_some_iff.mp slash
  have parted : root = String.ofList front ++ "/" := by
    rw [← String.toList_inj, last]
    simp [String.toList_append]
  refine ⟨String.ofList front, ?_, parted⟩
  calc segments root
      = segments (String.ofList front ++ "/" ++ "") := by rw [String.append_empty, ← parted]
    _ = segments (String.ofList front) ++ segments "" := Volume.segments_slash _ _
    _ = segments (String.ofList front) ++ [""] := rfl

/-- The path of an entry goes on with its segments after those of the directory. -/
theorem segments_join (root name : String) :
    segments (join root name) = ground root ++ segments name := by
  unfold join ground
  by_cases unnamed : root = ""
  · rw [if_pos (.inl unnamed), if_pos unnamed, unnamed, String.empty_append, List.nil_append]
  by_cases slash : root.toList.getLast? = some '/'
  · obtain ⟨front, parts, parted⟩ := segments_of_slash slash
    rw [if_pos (.inr slash), if_neg unnamed, if_pos slash, parts, List.dropLast_concat, parted,
      Volume.segments_slash]
  · have joint : ¬ (root = "" ∨ root.toList.getLast? = some '/') := not_or.mpr ⟨unnamed, slash⟩
    rw [if_neg joint, if_neg unnamed, if_neg slash, Volume.segments_slash]

/-- It goes on from where the path of the directory leads. -/
theorem walk_ground (walked : volume.walk [] (segments root) = .ok place) :
    volume.walk [] (ground root) = .ok place := by
  unfold ground
  split
  · next unnamed =>
    rw [unnamed] at walked
    exact walked
  · split
    · next slash =>
      obtain ⟨front, parts, -⟩ := segments_of_slash slash
      rw [parts, Volume.walk_append] at walked
      rw [parts, List.dropLast_concat]
      cases front_walked : volume.walk [] (segments front) with
      | error fault => simp [front_walked, Except.bind] at walked
      | ok middle =>
        rw [front_walked] at walked
        have nothing : [""].filter (fun segment => !isBlank segment) = [] := by decide
        rw [Volume.walk_of_staying (by decide) walked, nothing, List.append_nil]
    · exact walked

/-- The file of an entry stands in the directory under the name by which it is found. -/
theorem place_of_target (root_walked : volume.walk [] (segments root) = .ok place)
    (taken : target? root path = some target) (leads : volume.Leads target here name) :
    here ++ [name] = below place (foundName path) := by
  unfold target? at taken
  split at taken
  · next stays =>
    obtain rfl := Option.some.inj taken
    have staying : ".." ∉ segments (entryName path) := (decide_eq_true_iff.mp stays).2.2
    obtain ⟨before, last, own⟩ := Volume.exists_segments (entryName path)
    obtain ⟨above, parts_above, walked_above⟩ := leads.walked
    rw [segments_join, own, ← List.append_assoc] at parts_above
    obtain ⟨rfl, same⟩ := List.append_inj' parts_above rfl
    obtain rfl := List.singleton_inj.mp same
    rw [Volume.walk_append, walk_ground root_walked] at walked_above
    rw [own, List.mem_append, not_or] at staying
    have kept : keptSegments path = before.filter (fun segment => !isBlank segment) ++ [last] := by
      have stands : isBlank last ≠ true := mt Volume.isBlank_iff.mp leads.plain.notHere
      rw [keptSegments, own, List.filter_append, List.filter_singleton]
      simp [stands]
    rw [below, segments_foundName (by simp [kept]), kept,
      Volume.walk_of_staying staying.1 walked_above, List.append_assoc]
  · contradiction

/-- A path without the slashes at its front has none. -/
theorem entryName_entryName (path : String) : entryName (entryName path) = entryName path := by
  rw [entryName, entryName, String.toList_ofList, trimSlashes_of_head? (head?_trimSlashes _)]

/-- The slashes at the front of a path do not matter. -/
theorem target?_entryName (root path : String) :
    target? root (entryName path) = target? root path := by
  rw [target?, target?, entryName_entryName]

/-- Nor do they matter to the name by which an entry is found. -/
theorem foundName_entryName (path : String) : foundName (entryName path) = foundName path := by
  rw [foundName, foundName, keptSegments, keptSegments, entryName_entryName]

/-- The files that are found in a directory are those of the ledger. -/
theorem mem_fileNames {ledger : Ledger} (stores : volume.Stores place ledger) (name : String) :
    name ∈ fileNames volume place ↔ name ∈ ledger.map (·.1) := by
  rw [← stores.exists_mem_listing, fileNames, List.mem_filterMap]
  constructor
  · rintro ⟨⟨rest, node⟩, among, kept⟩
    cases node with
    | directory => contradiction
    | file number => exact ⟨rest, number, among, Option.some.inj kept⟩
  · rintro ⟨rest, number, among, rfl⟩
    exact ⟨_, among, rfl⟩

end Trajectory.Directory
