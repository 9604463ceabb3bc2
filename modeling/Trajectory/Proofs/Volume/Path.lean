import Trajectory.Volume.Basic
/-!
# Where paths lead

A path leads to a name in a directory. What finding, making and removing a file at the path do
depends only on what stands at that place; and where the path leads depends only on directories,
so it does not change when files come and go.
-/
namespace Trajectory.Volume

variable {volume : Volume} {here there : Place} {names : List String}

/-! ## Nodes -/

/-- What stands at a place depends only on the nodes. -/
theorem nodeAt_congr {other : Volume} (same : other.nodes = volume.nodes) (place : Place) :
    other.nodeAt place = volume.nodeAt place := by
  rw [nodeAt, nodeAt, same]

/-- Bytes are given to a file without any other change. -/
theorem frame_setBytes (volume : Volume) (number : Nat) (data : List UInt8) :
    (volume.setBytes number data).nodes = volume.nodes ∧
      (volume.setBytes number data).held = volume.held ∧
      (volume.setBytes number data).files.length = volume.files.length := by
  unfold setBytes
  split
  · exact ⟨rfl, rfl, List.length_set⟩
  · split
    · exact ⟨rfl, rfl, rfl⟩
    · exact ⟨rfl, rfl, List.length_set⟩

/-- A file that exists has the contents that it was given. -/
theorem content_setContent {number : Nat} (inside : number < volume.files.length)
    (content : Content) : (volume.setContent number content).content number = content := by
  rw [setContent, Volume.content, List.getD_eq_getElem?_getD, List.getElem?_set_self inside,
    Option.getD_some]

/-- What is added stands at its place, unless something stood there, and no other place changes. -/
theorem nodeAt_concat (volume : Volume) (place other : Place) (node : Node) :
    nodeAt { volume with nodes := volume.nodes ++ [(place, node)] } other =
      (volume.nodeAt other).or (if other = place then some node else none) := by
  by_cases root : other = []
  · simp [nodeAt, root]
  · rw [nodeAt, nodeAt, if_neg root, if_neg root, List.lookup_append, List.lookup_cons,
      List.lookup_nil]
    by_cases same : other = place
    · simp [same]
    · have distinct : (other == place) = false := by simpa using same
      simp [same, distinct]

/-- A file that is added stands at its place, unless something stood there, and changes no other
place. -/
theorem nodeAt_addFile (volume : Volume) (place other : Place) :
    (volume.addFile place).2.nodeAt other =
      (volume.nodeAt other).or
        (if other = place then some (.file volume.files.length) else none) :=
  nodeAt_concat volume place other _

/-- Nothing stands at a place whose entries are removed, and no other place changes. -/
theorem lookup_filter_ne (nodes : List (Place × Node)) (place other : Place) :
    (nodes.filter (·.1 ≠ place)).lookup other =
      if other = place then none else nodes.lookup other := by
  induction nodes with
  | nil => simp
  | cons entry rest ih =>
    obtain ⟨first, node⟩ := entry
    by_cases removed : first = place
    · rw [List.filter_cons_of_neg (by simpa using removed), ih, List.lookup_cons, removed]
      by_cases same : other = place
      · simp [same]
      · have distinct : (other == place) = false := by simpa using same
        simp [same, distinct]
    · rw [List.filter_cons_of_pos (by simpa using removed), List.lookup_cons, ih, List.lookup_cons]
      by_cases found : other = first
      · have kept : ¬ first = place := removed
        simp [found, kept]
      · have distinct : (other == first) = false := by simpa using found
        simp [distinct]

/-- Removing what stands at a place, other than the working directory, changes no other place. -/
theorem nodeAt_filter_ne (volume : Volume) (here other : Place) (name : String) :
    nodeAt { volume with nodes := volume.nodes.filter (·.1 ≠ here ++ [name]) } other =
      if other = here ++ [name] then none else volume.nodeAt other := by
  by_cases root : other = []
  · have distinct : ¬ other = here ++ [name] := by simp [root]
    rw [nodeAt, if_pos root, if_neg distinct, nodeAt, if_pos root]
  · rw [nodeAt, if_neg root, lookup_filter_ne, nodeAt, if_neg root]

/-- Removing a file keeps every directory. -/
theorem directory_filter_ne {name : String} {node : Node}
    (found : volume.nodeAt (here ++ [name]) = some node) (file : node ≠ .directory) {place : Place}
    (directory : volume.nodeAt place = some .directory) :
    nodeAt { volume with nodes := volume.nodes.filter (·.1 ≠ here ++ [name]) } place =
      some .directory := by
  have distinct : place ≠ here ++ [name] := by
    rintro rfl
    exact file (Option.some.inj (found.symm.trans directory))
  rw [nodeAt_filter_ne, if_neg distinct, directory]

/-! ## Walks -/

/-- A walk of two parts walks the second from where the first ends. -/
theorem walk_append (first second : List String) :
    volume.walk here (first ++ second) =
      (volume.walk here first).bind fun middle => volume.walk middle second := by
  induction first generalizing here with
  | nil => rfl
  | cons name rest ih =>
    rw [List.cons_append, walk, walk]
    cases volume.enter here name with
    | ok middle => exact ih
    | error fault => rfl

/-- A name that a directory can have an entry by. -/
structure Plain (name : String) : Prop where
  /-- It does not stand for the directory itself. -/
  notHere : ¬ (name = "" ∨ name = ".")
  /-- It does not stand for the directory above. -/
  notAbove : name ≠ ".."
  /-- It is not too long. -/
  short : name.utf8ByteSize ≤ segmentLimit

/-- The name of an entry leads to it if there is one. -/
theorem enter_of_plain {name : String} (directory : volume.nodeAt here = some .directory)
    (plain : Plain name) :
    volume.enter here name =
      match volume.nodeAt (here ++ [name]) with
      | some _ => .ok (here ++ [name])
      | none => .error .notFound := by
  rw [enter, directory]
  dsimp only
  rw [if_neg plain.notHere, if_neg plain.notAbove]
  exact if_neg (Nat.not_lt.mpr plain.short)

/-- The name of an entry is passed exactly if something stands there. -/
theorem enter_of_plain_iff {name : String} (directory : volume.nodeAt here = some .directory)
    (plain : Plain name) : volume.enter here name = .ok there ↔
      there = here ++ [name] ∧ volume.nodeAt there ≠ none := by
  rw [enter_of_plain directory plain]
  cases found : volume.nodeAt (here ++ [name]) with
  | none =>
    constructor
    · intro failed
      contradiction
    · rintro ⟨rfl, present⟩
      exact absurd found present
  | some node =>
    constructor
    · intro entered
      obtain rfl := Except.ok.inj entered
      exact ⟨rfl, by simp [found]⟩
    · rintro ⟨rfl, -⟩
      rfl

/-- A segment is passed in a directory: it stays there, goes up, or goes to an entry. -/
theorem enter_eq_ok_iff {name : String} :
    volume.enter here name = .ok there ↔
      volume.nodeAt here = some .directory ∧
        ((name = "" ∨ name = ".") ∧ there = here ∨ name = ".." ∧ there = here.dropLast ∨
          Plain name ∧ there = here ++ [name] ∧ volume.nodeAt there ≠ none) := by
  cases standing : volume.nodeAt here with
  | none => simp [enter, standing]
  | some node =>
    cases node with
    | file number => simp [enter, standing]
    | directory =>
      by_cases plain : Plain name
      · rw [enter_of_plain_iff standing plain]
        simp only [plain, plain.notHere, plain.notAbove, false_and, true_and, false_or]
      rw [enter, standing]
      simp only [plain, true_and, false_and, or_false]
      by_cases stays : name = "" ∨ name = "."
      · have below : name ≠ ".." := by
          rintro rfl
          revert stays
          decide
        rw [if_pos stays]
        simp only [stays, below, true_and, false_and, or_false]
        exact ⟨fun same => (Except.ok.inj same).symm, fun same => same ▸ rfl⟩
      by_cases up : name = ".."
      · rw [if_neg stays, if_pos up]
        simp only [stays, false_and, false_or]
        exact ⟨fun same => ⟨up, (Except.ok.inj same).symm⟩, fun ⟨_, same⟩ => same ▸ rfl⟩
      have long : segmentLimit < name.utf8ByteSize :=
        Nat.not_le.mp fun short => plain ⟨stays, up, short⟩
      simp [stays, up, long]

/-- A walk that ends in a directory starts in one. -/
theorem directory_of_walk (walked : volume.walk here names = .ok there)
    (ended : volume.nodeAt there = some .directory) : volume.nodeAt here = some .directory := by
  cases names with
  | nil => exact (Except.ok.inj walked) ▸ ended
  | cons name rest =>
    rw [walk] at walked
    cases entered : volume.enter here name with
    | ok middle => exact (enter_eq_ok_iff.mp entered).1
    | error fault =>
      rw [entered] at walked
      contradiction

/-- A walk to a directory passes only directories, so it leads there in every volume that has
them. -/
theorem walk_congr {other : Volume}
    (kept : ∀ place, volume.nodeAt place = some .directory → other.nodeAt place = some .directory)
    (walked : volume.walk here names = .ok there)
    (ended : volume.nodeAt there = some .directory) : other.walk here names = .ok there := by
  induction names generalizing here with
  | nil => exact walked
  | cons name rest ih =>
    rw [walk] at walked ⊢
    cases entered : volume.enter here name with
    | error fault =>
      rw [entered] at walked
      contradiction
    | ok middle =>
      rw [entered] at walked
      have passed := kept middle (directory_of_walk walked ended)
      obtain ⟨standing, way⟩ := enter_eq_ok_iff.mp entered
      have same : other.enter here name = .ok middle := by
        refine enter_eq_ok_iff.mpr ⟨kept here standing, ?_⟩
        rcases way with stays | up | ⟨plain, entry, -⟩
        · exact .inl stays
        · exact .inr (.inl up)
        · exact .inr (.inr ⟨plain, entry, by simp [passed]⟩)
      rw [same]
      exact ih walked

/-- Directories stand above a place. -/
def Reached (volume : Volume) (place : Place) : Prop :=
  ∀ above, above <+: place → above ≠ place → volume.nodeAt above = some .directory

/-- Directories stand above every place that a walk from the working directory leads to. -/
theorem reached_of_walk (reached : volume.Reached here)
    (walked : volume.walk here names = .ok there) : volume.Reached there := by
  induction names generalizing here with
  | nil => exact (Except.ok.inj walked) ▸ reached
  | cons name rest ih =>
    rw [walk] at walked
    cases entered : volume.enter here name with
    | error fault =>
      rw [entered] at walked
      contradiction
    | ok middle =>
      rw [entered] at walked
      obtain ⟨standing, way⟩ := enter_eq_ok_iff.mp entered
      refine ih ?_ walked
      rcases way with ⟨-, rfl⟩ | ⟨-, rfl⟩ | ⟨plain, rfl, -⟩
      · exact reached
      · intro above leads distinct
        by_cases whole : above = here
        · exact whole ▸ standing
        · exact reached above (leads.trans (List.dropLast_prefix here)) whole
      · intro above leads distinct
        rcases List.prefix_concat_iff.mp leads with whole | before
        · exact absurd whole distinct
        · by_cases whole : above = here
          · exact whole ▸ standing
          · exact reached above before whole

/-- A segment is blank if it is empty or a single dot. -/
theorem isBlank_iff {segment : String} : isBlank segment = true ↔ segment = "" ∨ segment = "." :=
  decide_eq_true_iff

/-- A walk that never goes up leads to the place below of the segments that are not blank. -/
theorem walk_of_staying (staying : ".." ∉ names)
    (walked : volume.walk here names = .ok there) :
    there = here ++ names.filter fun segment => !isBlank segment := by
  induction names generalizing here with
  | nil => rw [List.filter_nil, List.append_nil, Except.ok.inj walked]
  | cons segment rest ih =>
    rw [List.mem_cons, not_or] at staying
    rw [walk] at walked
    cases entered : volume.enter here segment with
    | error fault => simp [entered] at walked
    | ok middle =>
      rw [entered] at walked
      have later := ih staying.2 walked
      rcases (enter_eq_ok_iff.mp entered).2 with ⟨blank, rfl⟩ | ⟨up, -⟩ | ⟨plain, rfl, -⟩
      · rw [List.filter_cons_of_neg (by simpa using isBlank_iff.mpr blank), later]
      · exact absurd up.symm staying.1
      · have kept : isBlank segment ≠ true := mt isBlank_iff.mp plain.notHere
        rw [List.filter_cons_of_pos (by simpa using kept), later, List.append_assoc,
          List.singleton_append]

/-- Going up from a place that was reached leads to a directory. -/
theorem directory_above (reached : volume.Reached here) :
    volume.nodeAt here.dropLast = some .directory := by
  by_cases root : here.dropLast = []
  · rw [root]
    rfl
  · refine reached _ (List.dropLast_prefix here) fun same => ?_
    have shorter := congrArg List.length same
    rw [List.length_dropLast] at shorter
    have some_name : here ≠ [] := by
      rintro rfl
      exact root rfl
    have length := List.length_pos_iff.mpr some_name
    omega

/-! ## Paths -/

/-- A path has segments. -/
theorem exists_segments (path : String) : ∃ outer last, segments path = outer ++ [last] := by
  have some_segment : segments path ≠ [] := by
    simp [segments, Text.pieces_ne_nil]
  exact ⟨_, _, (List.dropLast_concat_getLast some_segment).symm⟩

/-- A path is given by its segments. -/
theorem joined_segments (path : String) : joined (segments path) = path := by
  have same : String.toList ∘ String.ofList = id := funext fun _ => String.toList_ofList
  rw [joined, segments, List.map_map, same, List.map_id, Text.join_pieces, String.ofList_toList]

/-- What is added to a path without a slash goes to its last segment. -/
theorem segments_append {path last suffix : String} {outer : List String}
    (parts : segments path = outer ++ [last]) (absent : '/' ∉ suffix.toList) :
    segments (path ++ suffix) = outer ++ [last ++ suffix] := by
  have some_piece := Text.pieces_ne_nil '/' path.toList
  have pieces := (List.dropLast_concat_getLast some_piece).symm
  have longer := Text.pieces_append_of_not_mem pieces absent
  rw [segments, pieces, List.map_append, List.map_singleton] at parts
  obtain ⟨rfl, same⟩ := List.append_inj' parts rfl
  rw [segments, String.toList_append, longer, List.map_append, List.map_singleton,
    String.ofList_append, String.ofList_toList, List.singleton_inj.mp same]

/-- A new name is the last segment, unless slashes follow it. -/
theorem splitLast_eq_iff {path last : String} {outer : List String} :
    splitLast path = (outer, last, false) ↔ segments path = outer ++ [last] ∧ last ≠ "" := by
  obtain ⟨init, final, parts⟩ := exists_segments path
  unfold splitLast
  rw [parts, List.reverse_append, List.reverse_singleton, List.singleton_append,
    List.getLast?_concat]
  by_cases blank : final = ""
  · constructor
    · intro split
      split at split
      · simp at split
      · simp [blank] at split
    · rintro ⟨same, some_char⟩
      have last_eq := List.singleton_inj.mp (List.append_inj' same rfl).2
      exact absurd (last_eq ▸ blank) some_char
  · rw [List.dropWhile_cons_of_neg (by simpa using blank)]
    simp only [List.reverse_reverse, Option.some.injEq, blank, decide_false, Prod.mk.injEq,
      and_true]
    constructor
    · rintro ⟨rfl, rfl⟩
      exact ⟨rfl, blank⟩
    · rintro ⟨same, -⟩
      obtain ⟨same_init, same_last⟩ := List.append_inj' same rfl
      exact ⟨same_init, List.singleton_inj.mp same_last⟩

/-- Only empty segments follow a new name. -/
theorem segments_of_splitLast {path last : String} {outer : List String} {slashes : Bool}
    (splitted : splitLast path = (outer, last, slashes)) (named : last ≠ "") :
    ∃ blanks, segments path = outer ++ last :: blanks ∧ ∀ blank ∈ blanks, blank = "" := by
  unfold splitLast at splitted
  split at splitted
  · exact absurd (Prod.mk.inj (Prod.mk.inj splitted).2).1.symm named
  · next found rest dropped =>
    obtain ⟨rfl, same⟩ := Prod.mk.inj splitted
    obtain ⟨rfl, -⟩ := Prod.mk.inj same
    have whole := List.takeWhile_append_dropWhile (p := (· = "")) (l := (segments path).reverse)
    have turned := congrArg List.reverse whole
    rw [dropped, List.reverse_append, List.reverse_cons, List.reverse_reverse, List.append_assoc,
      List.singleton_append] at turned
    refine ⟨_, turned.symm, fun blank among => ?_⟩
    simpa using List.all_eq_true.mp List.all_takeWhile blank (List.mem_reverse.mp among)

/-- The directory in which the last segment stands is one that the segments before it lead to. -/
theorem walk_of_parentDirectory {outer : List String}
    (parent : volume.parentDirectory outer = .ok here) :
    volume.walk [] outer = .ok here ∧ volume.nodeAt here = some .directory := by
  unfold parentDirectory at parent
  cases walked : volume.walk [] outer with
  | error fault => simp [walked] at parent
  | ok there =>
    rw [walked] at parent
    dsimp only at parent
    split at parent
    · next standing =>
      obtain rfl := Except.ok.inj parent
      exact ⟨rfl, standing⟩
    · contradiction

/-- A path leads to a name in a directory. -/
structure Leads (volume : Volume) (path : String) (here : Place) (name : String) : Prop where
  /-- The path can be looked up. -/
  checked : checkPath path = .ok ()
  /-- The name is the last segment, and those before it lead to the directory. -/
  walked : ∃ outer, segments path = outer ++ [name] ∧ volume.walk [] outer = .ok here
  /-- The directory is there. -/
  directory : volume.nodeAt here = some .directory
  /-- The name can be that of an entry. -/
  plain : Plain name

namespace Leads

variable {path name : String}

/-- Where a path leads depends only on directories. -/
theorem congr (leads : volume.Leads path here name) {other : Volume}
    (kept : ∀ place, volume.nodeAt place = some .directory → other.nodeAt place = some .directory) :
    other.Leads path here name := by
  obtain ⟨outer, parts, walked⟩ := leads.walked
  exact ⟨leads.checked, ⟨outer, parts, walk_congr kept walked leads.directory⟩,
    kept here leads.directory, leads.plain⟩

/-- What is found at a path is what stands where it leads. -/
theorem find (leads : volume.Leads path here name) :
    volume.find path =
      match volume.nodeAt (here ++ [name]) with
      | some node => .ok (here ++ [name], node)
      | none => .error .notFound := by
  obtain ⟨outer, parts, walked⟩ := leads.walked
  have last : volume.walk [] (outer ++ [name]) = volume.walk here [name] := by
    rw [walk_append, walked]
    rfl
  unfold Volume.find
  rw [leads.checked, parts]
  dsimp only
  rw [last, walk, enter_of_plain leads.directory leads.plain]
  cases found : volume.nodeAt (here ++ [name]) with
  | none => rfl
  | some node => simp [walk, found]

/-- Opening a file to be written from the start makes one where nothing stands. -/
theorem create (leads : volume.Leads path here name) :
    volume.create path =
      match volume.nodeAt (here ++ [name]) with
      | some .directory => (.error .isDirectory, volume)
      | some (.file number) => (.ok number, volume.setBytes number [])
      | none => (.ok volume.files.length, (volume.addFile (here ++ [name])).2) := by
  obtain ⟨outer, parts, walked⟩ := leads.walked
  have distinct : name ≠ "" := fun blank => leads.plain.notHere (.inl blank)
  have special : ¬ (false = true ∨ name = "." ∨ name = "..") := by
    rintro (impossible | dot | dots)
    · contradiction
    · exact leads.plain.notHere (.inr dot)
    · exact leads.plain.notAbove dots
  unfold Volume.create parentDirectory
  rw [leads.checked, splitLast_eq_iff.mpr ⟨parts, distinct⟩]
  dsimp only
  rw [walked]
  dsimp only
  rw [leads.directory]
  dsimp only
  rw [if_neg special, if_neg (Nat.not_lt.mpr leads.plain.short)]
  cases volume.nodeAt (here ++ [name]) with
  | none => rfl
  | some node => cases node <;> rfl

/-- A file that stands where a path leads can be removed. -/
theorem remove (leads : volume.Leads path here name) :
    volume.remove path =
      match volume.nodeAt (here ++ [name]) with
      | some .directory => (.error .isDirectory, volume)
      | some (.file _) =>
        (.ok (), { volume with nodes := volume.nodes.filter (·.1 ≠ here ++ [name]) })
      | none => (.error .notFound, volume) := by
  unfold Volume.remove
  rw [leads.find]
  cases volume.nodeAt (here ++ [name]) with
  | none => rfl
  | some node => cases node <;> rfl

end Leads

/-- A path at which a file is found leads to it. -/
theorem leads_of_find {path : String} {place : Place} {number : Nat}
    (found : volume.find path = .ok (place, .file number)) :
    ∃ here name, volume.Leads path here name ∧ place = here ++ [name] ∧
      volume.nodeAt (here ++ [name]) = some (.file number) := by
  obtain ⟨outer, last, parts⟩ := exists_segments path
  unfold find at found
  rw [parts] at found
  cases checked : checkPath path with
  | error fault => simp [checked] at found
  | ok _ =>
    rw [checked, walk_append] at found
    cases walked : volume.walk [] outer with
    | error fault => simp [walked, Except.bind] at found
    | ok here =>
      have root : volume.Reached [] := by
        intro above leads distinct
        exact absurd (List.prefix_nil.mp leads) distinct
      have reached := reached_of_walk root walked
      cases entered : volume.enter here last with
      | error fault => simp [walked, Except.bind, walk, entered] at found
      | ok there =>
        simp only [walked, Except.bind, walk, entered] at found
        obtain ⟨standing, way⟩ := enter_eq_ok_iff.mp entered
        cases node : volume.nodeAt there with
        | none => simp [node] at found
        | some node_there =>
          rw [node] at found
          obtain ⟨rfl, rfl⟩ := Prod.mk.inj (Except.ok.inj found)
          rcases way with ⟨-, rfl⟩ | ⟨-, rfl⟩ | ⟨plain, rfl, -⟩
          · simp [standing] at node
          · simp [directory_above reached] at node
          · exact ⟨here, last, ⟨checked, ⟨outer, parts, walked⟩, standing, plain⟩, rfl, node⟩

/-- A file that can be opened by a path is found there. -/
theorem find_of_openFile {path : String} {number : Nat}
    (opened : volume.openFile path = .ok number) :
    ∃ place, volume.find path = .ok (place, .file number) := by
  unfold openFile at opened
  split at opened
  · contradiction
  · contradiction
  · next place other found =>
    obtain rfl := Except.ok.inj opened
    exact ⟨place, found⟩

/-- Removing a file takes at most the name of a file away. -/
theorem remove_cases (volume : Volume) (path : String) :
    (volume.remove path).2 = volume ∨ ∃ here name number,
      volume.nodeAt (here ++ [name]) = some (.file number) ∧ (volume.remove path).2 =
        { volume with nodes := volume.nodes.filter (·.1 ≠ here ++ [name]) } := by
  unfold remove
  split
  · exact .inl rfl
  · exact .inl rfl
  · next place number found =>
    obtain ⟨here, name, -, rfl, node⟩ := leads_of_find found
    exact .inr ⟨here, name, number, node, rfl⟩

/-- A volume in which every file that has a name exists. -/
def Sound (volume : Volume) : Prop :=
  ∀ {place number}, volume.nodeAt place = some (.file number) → number < volume.files.length

/-- No file has a name in an empty volume. -/
theorem sound_empty (clock : Nat) : (empty clock).Sound := by
  intro place number standing
  unfold Volume.nodeAt at standing
  split at standing
  · simp at standing
  · simp [empty] at standing

/-- What a volume becomes when a file is removed, if one is. -/
inductive Pruned (volume : Volume) : Volume → Prop where
  /-- Nothing was removed. -/
  | same : Pruned volume volume
  /-- The file at a path was removed. -/
  | removed (path : String) : Pruned volume (volume.remove path).2

namespace Pruned

variable {other : Volume}

/-- Removing a file changes no contents and no holds. -/
theorem frame (pruned : volume.Pruned other) :
    other.files = volume.files ∧ other.held = volume.held := by
  cases pruned with
  | same => exact ⟨rfl, rfl⟩
  | removed path =>
    rcases volume.remove_cases path with same | ⟨here, name, number, -, removed⟩
    · rw [same]
      exact ⟨rfl, rfl⟩
    · rw [removed]
      exact ⟨rfl, rfl⟩

/-- Removing a file takes no directory away. -/
theorem directory (pruned : volume.Pruned other) {place : Place}
    (directory : volume.nodeAt place = some .directory) :
    other.nodeAt place = some .directory := by
  cases pruned with
  | same => exact directory
  | removed path =>
    rcases volume.remove_cases path with same | ⟨here, name, number, node, removed⟩
    · rwa [same]
    · rw [removed]
      exact directory_filter_ne node (by simp) directory

/-- Removing a file puts nothing anywhere. -/
theorem nodeAt (pruned : volume.Pruned other) (place : Place) :
    other.nodeAt place = none ∨ other.nodeAt place = volume.nodeAt place := by
  cases pruned with
  | same => exact .inr rfl
  | removed path =>
    rcases volume.remove_cases path with same | ⟨here, name, number, -, removed⟩
    · rw [same]
      exact .inr rfl
    · rw [removed, nodeAt_filter_ne]
      split
      · exact .inl rfl
      · exact .inr rfl

/-- Where nothing stands nothing stands after it. -/
theorem absent (pruned : volume.Pruned other) {place : Place}
    (absent : volume.nodeAt place = none) : other.nodeAt place = none :=
  (pruned.nodeAt place).elim id fun same => same.trans absent

/-- Removing a file keeps a volume sound. -/
theorem sound (pruned : volume.Pruned other) (sound : volume.Sound) : other.Sound := by
  intro place number standing
  rw [pruned.frame.1]
  rcases pruned.nodeAt place with gone | kept
  · rw [gone] at standing
    contradiction
  · exact sound (kept.symm.trans standing)

end Pruned

/-- A path at which a file can be made leads somewhere. -/
theorem leads_of_create {path : String} {number : Nat} {after : Volume}
    (created : volume.create path = (.ok number, after)) :
    ∃ here name, volume.Leads path here name := by
  unfold create at created
  cases checked : checkPath path with
  | error fault => simp [checked] at created
  | ok _ =>
    rw [checked] at created
    rcases splitted : splitLast path with ⟨outer, last, slashes⟩
    rw [splitted] at created
    dsimp only at created
    cases parent : volume.parentDirectory outer with
    | error fault => simp [parent] at created
    | ok here =>
      obtain ⟨walked, standing⟩ := walk_of_parentDirectory parent
      simp only [parent] at created
      split at created
      · simp at created
      · next special =>
        split at created
        · simp at created
        · next short =>
          simp only [not_or] at special
          obtain ⟨ends, dot, dots⟩ := special
          have closed : slashes = false := by simpa using ends
          rw [closed] at splitted
          obtain ⟨parts, some_char⟩ := splitLast_eq_iff.mp splitted
          refine ⟨here, last, checked, ⟨outer, parts, walked⟩, standing, ?_⟩
          refine ⟨?_, dots, Nat.not_lt.mp short⟩
          rintro (blank | same)
          · exact some_char blank
          · exact dot same

end Trajectory.Volume
