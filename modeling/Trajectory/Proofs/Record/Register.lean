import Trajectory.Accessor.Copy
import Trajectory.Proofs.Ledger
import Trajectory.Proofs.Record.Order
import Trajectory.Proofs.Record.RoundTrip
/-!
# What a register lists

A register splits every record into its type and its index, and puts them together again when it
lists its records. Nothing is lost and nothing is made up on the way: a register that was given
records lists each of them once, whatever their order and however often they were given.
-/
namespace Trajectory

namespace Record

/-- The type of a type is itself. -/
theorem recordType_recordType (record : Record) :
    record.recordType.recordType = record.recordType := rfl

/-- A record is its type, however that is had, at its index. -/
theorem atFrame_index {record other : Record} (typed : record.recordType = other.recordType) :
    other.atFrame record.index = record := by
  change other.recordType.atFrame record.index = record
  rw [← typed, atFrame_recordType]

/-- The records of one type differ in their index. -/
theorem atFrame_injective (record : Record) : Function.Injective record.atFrame :=
  fun _ _ same => congrArg index same

/-- Records that are read from paths are the same exactly if they are written alike. -/
theorem path_parse_inj {path other : String} :
    (parse path).path = (parse other).path ↔ parse path = parse other := by
  rw [(path_parse other).2 path, ← String.toList_inj, toList_path_parse, toList_path_parse]

end Record

namespace Register

/-- The types of a register are in ascending order. -/
def Ordered (register : Register) : Prop :=
  register.types.Pairwise fun left right => left.order right = .lt

/-- The register of records. -/
def ofRecords (records : List Record) : Register := records.foldl enter empty

/-- The register of paths is that of the records read from them. -/
theorem ofPaths_eq (paths : List String) : ofPaths paths = ofRecords (paths.map Record.parse) := by
  rw [ofRecords, List.foldl_map]
  rfl

/-- A record that is given last is entered last. -/
theorem ofRecords_append_singleton (records : List Record) (record : Record) :
    ofRecords (records ++ [record]) = (ofRecords records).enter record := by
  rw [ofRecords, List.foldl_append]
  rfl

/-! ## Entering a record -/

variable {register : Register}

/-- Entering a record adds its type, if it is new. -/
theorem mem_types_enter {record other : Record} :
    other ∈ (register.enter record).types ↔ other = record.recordType ∨ other ∈ register.types := by
  obtain ⟨entries⟩ := register
  simp only [enter, types]
  induction entries with
  | nil => simp [place]
  | cons entry rest ih =>
    obtain ⟨head, frames⟩ := entry
    rw [place]
    cases compared : record.recordType.order head with
    | lt => simp
    | eq =>
      have same := Std.LawfulEqCmp.eq_of_compare compared
      simp [same]
    | gt =>
      simp only [List.map_cons, List.mem_cons, ih]
      exact or_left_comm

/-- What comes before the first type comes before all types. -/
theorem lt_of_mem_types {head record : Record} {frames : List String}
    {rest : List (Record × List String)} (compared : record.order head = .lt)
    (above : ∀ type ∈ rest.map (·.1), head.order type = .lt) :
    ∀ type ∈ types ⟨(head, frames) :: rest⟩, record.order type = .lt := by
  intro type listed
  rcases List.mem_cons.mp listed with rfl | later
  · exact compared
  · exact Std.TransCmp.lt_trans compared (above type later)

/-- Entering a record keeps the types in order. -/
theorem Ordered.enter (ordered : register.Ordered) (record : Record) :
    (register.enter record).Ordered := by
  have member (entries : List (Record × List String)) (other : Record) :
      other ∈ (place record.recordType record.index entries).map (·.1) ↔
        other = record.recordType ∨ other ∈ entries.map (·.1) :=
    @mem_types_enter ⟨entries⟩ _ _
  obtain ⟨entries⟩ := register
  simp only [Ordered, Register.enter, types] at ordered ⊢
  induction entries with
  | nil => simp [place]
  | cons entry rest ih =>
    obtain ⟨head, frames⟩ := entry
    obtain ⟨above, sorted⟩ := List.pairwise_cons.mp ordered
    rw [place]
    cases compared : record.recordType.order head with
    | lt => exact List.pairwise_cons.mpr ⟨@lt_of_mem_types _ _ frames _ compared above, ordered⟩
    | eq => exact ordered
    | gt =>
      refine List.pairwise_cons.mpr ⟨fun other listed => ?_, ih sorted⟩
      rcases (member rest other).mp listed with rfl | later
      · exact Std.OrientedCmp.gt_iff_lt.mp compared
      · exact above other later

/-- A type that is not listed has no frames. -/
theorem framesSeen_of_not_mem {record : Record} (unlisted : record.recordType ∉ register.types) :
    register.framesSeen record = [] := by
  have absent : (register.entries.find? fun entry => entry.1 = record.recordType) = none := by
    refine List.find?_eq_none.mpr fun entry listed => ?_
    simpa using fun same : entry.1 = record.recordType =>
      unlisted (same ▸ List.mem_map_of_mem listed)
  rw [framesSeen, absent]

/-- The frames of the first type of a register, or of the types after it. -/
theorem framesSeen_cons (head : Record) (frames : List String) (rest : List (Record × List String))
    (record : Record) :
    framesSeen ⟨(head, frames) :: rest⟩ record =
      if head = record.recordType then frames else framesSeen ⟨rest⟩ record := by
  unfold framesSeen
  dsimp only
  rw [List.find?_cons]
  by_cases same : head = record.recordType
  · simp [same]
  · simp [same]

/-- Entering a record adds its index to the frames of its type, if it is new, and changes no frames
of other types. -/
theorem framesSeen_enter (ordered : register.Ordered) (record other : Record) :
    (register.enter record).framesSeen other =
      if record.recordType = other.recordType then
        if record.index ∈ register.framesSeen other then register.framesSeen other
        else register.framesSeen other ++ [record.index]
      else register.framesSeen other := by
  obtain ⟨entries⟩ := register
  simp only [Ordered, types] at ordered
  rw [enter]
  dsimp only
  induction entries with
  | nil =>
    have nothing : framesSeen ⟨[]⟩ other = [] := rfl
    rw [place, framesSeen_cons, nothing]
    by_cases same : record.recordType = other.recordType
    · simp [same]
    · simp [same]
  | cons entry rest ih =>
    obtain ⟨head, frames⟩ := entry
    obtain ⟨above, sorted⟩ := List.pairwise_cons.mp ordered
    rw [place]
    cases compared : record.recordType.order head with
    | lt =>
      dsimp only
      rw [framesSeen_cons]
      by_cases same : record.recordType = other.recordType
      · have unlisted : record.recordType ∉ types ⟨(head, frames) :: rest⟩ := fun listed =>
          Record.ne_of_order_lt (lt_of_mem_types compared above _ listed) rfl
        rw [framesSeen_of_not_mem (same ▸ unlisted)]
        simp [same]
      · simp [same]
    | eq =>
      have same := Std.LawfulEqCmp.eq_of_compare compared
      dsimp only
      rw [framesSeen_cons, framesSeen_cons, same]
      by_cases typed : head = other.recordType
      · by_cases seen : record.index ∈ frames
        · simp [typed, seen]
        · simp [typed, seen]
      · simp [typed]
    | gt =>
      have distinct : head ≠ record.recordType :=
        Record.ne_of_order_lt (Std.OrientedCmp.gt_iff_lt.mp compared)
      dsimp only
      rw [framesSeen_cons, framesSeen_cons, ih sorted]
      by_cases typed : head = other.recordType
      · have apart : record.recordType ≠ other.recordType :=
          fun same => distinct (typed.trans same.symm)
        simp [typed, apart]
      · simp [typed]

/-! ## Registers of records -/

/-- The types of the register of records are in order. -/
theorem ordered_ofRecords (records : List Record) : (ofRecords records).Ordered := by
  induction records using List.reverseRecOn with
  | nil => exact List.Pairwise.nil
  | append_singleton records record ih =>
    rw [ofRecords_append_singleton]
    exact ih.enter record

/-- The types of the register of records are those of the records. -/
theorem mem_types_ofRecords {records : List Record} {other : Record} :
    other ∈ (ofRecords records).types ↔ ∃ record ∈ records, record.recordType = other := by
  induction records using List.reverseRecOn with
  | nil => simp [ofRecords, empty, types]
  | append_singleton records record ih =>
    rw [ofRecords_append_singleton, mem_types_enter, ih]
    constructor
    · rintro (rfl | ⟨earlier, given, typed⟩)
      · exact ⟨record, by simp, rfl⟩
      · exact ⟨earlier, List.mem_append_left _ given, typed⟩
    · rintro ⟨given, member, rfl⟩
      rcases List.mem_append.mp member with earlier | last
      · exact .inr ⟨given, earlier, rfl⟩
      · exact .inl (congrArg Record.recordType (List.mem_singleton.mp last))

/-- The frames of a type in the register of records are the indices of the records of the type, in
the order in which they were first given. -/
theorem framesSeen_ofRecords (records : List Record) (other : Record) :
    (ofRecords records).framesSeen other =
      ((records.filter (·.recordType = other.recordType)).map (·.index)).eraseDups := by
  induction records using List.reverseRecOn with
  | nil => rfl
  | append_singleton records record ih =>
    rw [ofRecords_append_singleton, framesSeen_enter (ordered_ofRecords records), ih,
      List.filter_append, List.map_append]
    by_cases typed : record.recordType = other.recordType
    · rw [List.filter_cons_of_pos (by simpa using typed), List.filter_nil, List.map_singleton,
        eraseDups_append_singleton, if_pos typed]
    · rw [List.filter_cons_of_neg (by simpa using typed), List.filter_nil]
      simp [typed]

/-- The frames of a type in the register of records are the indices of the records of the type. -/
theorem mem_framesSeen_ofRecords {records : List Record} {other : Record} {index : String} :
    index ∈ (ofRecords records).framesSeen other ↔ other.atFrame index ∈ records := by
  rw [framesSeen_ofRecords, List.mem_eraseDups, List.mem_map]
  constructor
  · rintro ⟨record, member, rfl⟩
    obtain ⟨given, typed⟩ := List.mem_filter.mp member
    rwa [Record.atFrame_index (of_decide_eq_true typed)]
  · intro given
    exact ⟨other.atFrame index, List.mem_filter.mpr ⟨given, decide_eq_true rfl⟩, rfl⟩

/-- No frame of the register of records is listed twice. -/
theorem nodup_framesSeen_ofRecords (records : List Record) (other : Record) :
    ((ofRecords records).framesSeen other).Nodup := by
  rw [framesSeen_ofRecords]
  exact nodup_eraseDups _

/-- Registers whose types are in order list the same types exactly if they have the same types. -/
theorem Ordered.types_eq_iff {other : Register} (ordered : register.Ordered)
    (sorted : other.Ordered) :
    register.types = other.types ↔ ∀ record, record ∈ register.types ↔ record ∈ other.types := by
  constructor
  · exact fun same record => same ▸ Iff.rfl
  · exact eq_of_ascending ordered sorted

/-- The registers of records list the same types and frames exactly if the records are the same. -/
theorem ofRecords_alike_iff {records others : List Record} :
    ((ofRecords records).types = (ofRecords others).types ∧
        ∀ record, (ofRecords records).frames record = (ofRecords others).frames record) ↔
      ∀ record, record ∈ records ↔ record ∈ others := by
  have frames_iff (record : Record) :
      (ofRecords records).frames record = (ofRecords others).frames record ↔
        ∀ index, record.atFrame index ∈ records ↔ record.atFrame index ∈ others := by
    rw [frames, frames, sortIndices_eq_iff (nodup_framesSeen_ofRecords _ _)
      (nodup_framesSeen_ofRecords _ _)]
    simp only [mem_framesSeen_ofRecords]
  constructor
  · rintro ⟨-, alike⟩ record
    exact (frames_iff record).mp (alike record) record.index
  · intro same
    refine ⟨?_, fun record => (frames_iff record).mpr fun index => same _⟩
    have alike := (ordered_ofRecords records).types_eq_iff (ordered_ofRecords others)
    refine alike.mpr fun record => ?_
    simp only [mem_types_ofRecords, same]

/-- A register whose types are in order, and have no index, is what it lists. -/
theorem Ordered.entries_eq (ordered : register.Ordered)
    (typed : ∀ record ∈ register.types, record.recordType = record) :
    register.entries = register.types.map fun record => (record, register.framesSeen record) := by
  obtain ⟨entries⟩ := register
  simp only [Ordered, types] at ordered typed ⊢
  induction entries with
  | nil => rfl
  | cons entry rest ih =>
    obtain ⟨head, frames⟩ := entry
    obtain ⟨above, sorted⟩ := List.pairwise_cons.mp ordered
    have first := typed head List.mem_cons_self
    have later := ih sorted fun record listed => typed record (List.mem_cons_of_mem _ listed)
    rw [List.map_cons, List.map_cons, framesSeen_cons, if_pos first.symm]
    refine congrArg _ (later.trans (List.map_congr_left fun record listed => ?_))
    have distinct : head ≠ record.recordType := by
      rw [typed record (List.mem_cons_of_mem _ listed)]
      exact Record.ne_of_order_lt (above record listed)
    rw [framesSeen_cons, if_neg distinct]

/-- A record that was given already changes nothing. -/
theorem enter_of_mem {records : List Record} {record : Record} (given : record ∈ records) :
    (ofRecords records).enter record = ofRecords records := by
  have typed (records : List Record) :
      ∀ other ∈ (ofRecords records).types, other.recordType = other := by
    intro other listed
    obtain ⟨given, -, rfl⟩ := mem_types_ofRecords.mp listed
    rfl
  have frames (other : Record) : ((ofRecords records).enter record).framesSeen other =
      (ofRecords records).framesSeen other := by
    rw [framesSeen_enter (ordered_ofRecords records)]
    split
    · next same =>
      have seen : record.index ∈ (ofRecords records).framesSeen other := by
        rwa [mem_framesSeen_ofRecords, Record.atFrame_index same]
      rw [if_pos seen]
    · rfl
  have types : ((ofRecords records).enter record).types = (ofRecords records).types := by
    refine (((ordered_ofRecords records).enter record).types_eq_iff (ordered_ofRecords records)).mpr
      fun other => ?_
    rw [mem_types_enter, or_iff_right_iff_imp]
    rintro rfl
    exact mem_types_ofRecords.mpr ⟨record, given, rfl⟩
  have entries := ((ordered_ofRecords records).enter record).entries_eq (types ▸ typed records)
  rw [types] at entries
  simp only [frames] at entries
  rw [← (ordered_ofRecords records).entries_eq (typed records)] at entries
  exact congrArg Register.mk entries

/-- The registers of the same paths list the same types, and the same frames of each, in orders that
may differ as first seen. -/
theorem ofPaths_of_perm {paths others : List String} (perm : paths.Perm others) :
    (ofPaths paths).types = (ofPaths others).types ∧
      (∀ record, (ofPaths paths).frames record = (ofPaths others).frames record) ∧
      ∀ record, ((ofPaths paths).framesSeen record).Perm ((ofPaths others).framesSeen record) := by
  have same (record : Record) :
      record ∈ paths.map Record.parse ↔ record ∈ others.map Record.parse :=
    (perm.map _).mem_iff
  rw [ofPaths_eq, ofPaths_eq]
  obtain ⟨types, frames⟩ := ofRecords_alike_iff.mpr same
  refine ⟨types, frames, fun record => ?_⟩
  refine (List.perm_ext_iff_of_nodup (nodup_framesSeen_ofRecords _ _)
    (nodup_framesSeen_ofRecords _ _)).mpr fun index => ?_
  rw [mem_framesSeen_ofRecords, mem_framesSeen_ofRecords, same]

/-! ## The records of a register -/

/-- The register of records lists these records. -/
theorem mem_records_ofRecords {records : List Record} {record : Record} :
    record ∈ (ofRecords records).records ↔ record ∈ records := by
  rw [Register.records, List.mem_flatMap]
  constructor
  · rintro ⟨type, -, listed⟩
    obtain ⟨index, seen, rfl⟩ := List.mem_map.mp listed
    exact mem_framesSeen_ofRecords.mp (mem_sortIndices.mp seen)
  · intro given
    refine ⟨record.recordType, mem_types_ofRecords.mpr ⟨record, given, rfl⟩, ?_⟩
    have seen : record.index ∈ (ofRecords records).framesSeen record.recordType :=
      mem_framesSeen_ofRecords.mpr given
    exact List.mem_map.mpr ⟨record.index, mem_sortIndices.mpr seen, rfl⟩

/-- The register of records lists no record twice. -/
theorem nodup_records_ofRecords (records : List Record) : (ofRecords records).records.Nodup := by
  rw [Register.records, List.nodup_flatMap]
  constructor
  · intro type _
    have distinct : ((ofRecords records).frames type).Nodup :=
      (sortIndices_perm _).nodup_iff.mpr (nodup_framesSeen_ofRecords records type)
    exact distinct.map type.atFrame_injective
  · refine (ordered_ofRecords records).imp_of_mem fun {left right} first second less => ?_
    obtain ⟨one, -, rfl⟩ := mem_types_ofRecords.mp first
    obtain ⟨two, -, rfl⟩ := mem_types_ofRecords.mp second
    intro record here there
    obtain ⟨index, -, rfl⟩ := List.mem_map.mp here
    obtain ⟨frame, -, same⟩ := List.mem_map.mp there
    have typed := congrArg Record.recordType same
    rw [Record.recordType_atFrame, Record.recordType_atFrame, Record.recordType_recordType,
      Record.recordType_recordType] at typed
    exact Record.ne_of_order_lt less typed.symm

/-- The paths of the records that the register of paths lists: each path without the slashes at its
front, and none twice. -/
theorem paths_records_ofPaths (paths : List String) :
    ((ofPaths paths).records.map Record.path).Nodup ∧
      ∀ path, path ∈ (ofPaths paths).records.map Record.path ↔
        ∃ given ∈ paths, path = String.ofList (trimSlashes given.toList) := by
  rw [ofPaths_eq]
  constructor
  · refine (nodup_records_ofRecords _).map_on fun one first two second same => ?_
    obtain ⟨path, -, rfl⟩ := List.mem_map.mp (mem_records_ofRecords.mp first)
    obtain ⟨other, -, rfl⟩ := List.mem_map.mp (mem_records_ofRecords.mp second)
    exact Record.path_parse_inj.mp same
  · intro path
    simp only [List.mem_map, mem_records_ofRecords]
    constructor
    · rintro ⟨record, ⟨given, listed, rfl⟩, rfl⟩
      exact ⟨given, listed, (Record.path_parse given).1⟩
    · rintro ⟨given, listed, rfl⟩
      exact ⟨Record.parse given, ⟨given, listed, rfl⟩, (Record.path_parse given).1⟩

/-- Paths that are listed once and begin with no slash are those of the records that their register
lists. -/
theorem paths_records_perm {paths : List String} (nodup : paths.Nodup)
    (bare : ∀ path ∈ paths, path.toList.head? ≠ some '/') :
    ((ofPaths paths).records.map Record.path).Perm paths := by
  obtain ⟨distinct, member⟩ := paths_records_ofPaths paths
  have trimmed {path : String} (given : path ∈ paths) :
      String.ofList (trimSlashes path.toList) = path := by
    rw [trimSlashes_of_head? (bare path given), String.ofList_toList]
  refine (List.perm_ext_iff_of_nodup distinct nodup).mpr fun path => (member path).trans ?_
  constructor
  · rintro ⟨given, known, rfl⟩
    rwa [trimmed known]
  · exact fun known => ⟨path, known, (trimmed known).symm⟩

/-- A register is a lossless listing of the paths that it was given, in whatever order and however
often: the paths of its types at their frames are the paths given, without the slashes at their
front, each once; and what it lists depends on these paths only. -/
theorem lossless_ofPaths (paths : List String) :
    let register := ofPaths paths
    let listed := register.types.flatMap fun type =>
      (register.frames type).map fun frame => (type.atFrame frame).path
    listed.Nodup ∧
      (∀ path, path ∈ listed ↔ ∃ given ∈ paths, path = String.ofList (trimSlashes given.toList)) ∧
      ∀ others : List String,
        (register.types = (ofPaths others).types ∧
            ∀ record, register.frames record = (ofPaths others).frames record) ↔
          ∀ path : List Char, (∃ given ∈ paths, trimSlashes given.toList = path) ↔
            ∃ given ∈ others, trimSlashes given.toList = path := by
  intro register listed
  have whole : listed = register.records.map Record.path := by
    rw [Register.records, List.map_flatMap]
    simp only [List.map_map]
    rfl
  obtain ⟨distinct, found⟩ := paths_records_ofPaths paths
  rw [whole]
  refine ⟨distinct, found, fun others => ?_⟩
  have read (given : List String) (path : String) :
      Record.parse path ∈ given.map Record.parse ↔
        ∃ known ∈ given, trimSlashes known.toList = trimSlashes path.toList := by
    simp only [List.mem_map, (Record.path_parse path).2]
  rw [show register = ofRecords (paths.map Record.parse) from ofPaths_eq paths, ofPaths_eq,
    ofRecords_alike_iff]
  constructor
  · intro same path
    constructor
    · rintro ⟨given, member, rfl⟩
      exact (read others given).mp ((same _).mp (List.mem_map_of_mem member))
    · rintro ⟨given, member, rfl⟩
      exact (read paths given).mp ((same _).mpr (List.mem_map_of_mem member))
  · intro same record
    constructor
    · intro given
      obtain ⟨path, member, rfl⟩ := List.mem_map.mp given
      exact (read others path).mpr ((same _).mp ⟨path, member, rfl⟩)
    · intro given
      obtain ⟨path, member, rfl⟩ := List.mem_map.mp given
      exact (read paths path).mpr ((same _).mpr ⟨path, member, rfl⟩)

end Register

end Trajectory
