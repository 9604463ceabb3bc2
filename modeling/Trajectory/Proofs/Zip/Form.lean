import Trajectory.Proofs.Zip.Layout
import Trajectory.Proofs.Zip.Window
import Trajectory.Zip.Format
/-!
# The form that a directory shows

A zip file whose end record has all its numbers, with no locator before it, shows its form by its
directory. A record there is of the new form when its extra part has a field with eight-byte sizes.
One such record is enough: of records of both forms the file counts as one of the new form.
-/
namespace Trajectory.Zip

open Bytes (At)

/-- A field of an extra part. -/
structure Field where
  /-- Its kind. -/
  kind : Nat
  /-- Its data. -/
  data : List UInt8
  /-- Its kind is kept in two bytes. -/
  kind_lt : kind < 256 ^ 2 := by decide
  /-- So is the length of its data. -/
  length_lt : data.length < 256 ^ 2 := by decide

namespace Field

/-- The field as it is stored. -/
def bytes (field : Field) : List UInt8 :=
  LittleEndian.encode 2 field.kind ++ (LittleEndian.encode 2 field.data.length ++ field.data)

/-- An extra part with several fields. -/
def part (fields : List Field) : List UInt8 := fields.flatMap bytes

/-- Whether a field has eight-byte sizes. -/
def isWide (field : Field) : Bool := field.kind = wideField

end Field

/-- Whether an extra part has a field with eight-byte sizes is told from its fields. -/
theorem hasWideField_part (fields : List Field) :
    hasWideField (Field.part fields) = fields.any Field.isWide := by
  induction fields with
  | nil => rw [Field.part, List.flatMap_nil, hasWideField]; rfl
  | cons field later ih =>
    have whole : Field.part (field :: later) = field.bytes ++ Field.part later := rfl
    have found : At (Field.part (field :: later)) 0 field.bytes := by
      rw [whole]
      exact Bytes.at_zero _ _
    have kind : LittleEndian.read? 2 (Field.part (field :: later)) = some field.kind :=
      number?_of_at found.left rfl field.kind_lt
    have length : LittleEndian.read? 2 ((Field.part (field :: later)).drop 2) =
        some field.data.length :=
      number?_of_at found.right.left (by rw [LittleEndian.length_encode]) field.length_lt
    have rest : (Field.part (field :: later)).drop (4 + field.data.length) = Field.part later := by
      rw [whole]
      refine List.drop_left' ?_
      simp only [Field.bytes, List.length_append, LittleEndian.length_encode]
      omega
    rw [hasWideField]
    split
    · next some_kind some_length kind_found length_found =>
      obtain rfl := Option.some.inj (kind.symm.trans kind_found)
      obtain rfl := Option.some.inj (length.symm.trans length_found)
      rw [rest, ih, List.any_cons, Field.isWide]
    · next missing => exact absurd length (missing _ _ kind)

/-- A record of a directory. -/
structure Listed where
  /-- What it says of its entry before the lengths. -/
  head : List UInt8
  /-- What it says of its entry after the lengths. -/
  tail : List UInt8
  /-- The name of the entry. -/
  name : List UInt8
  /-- The fields of its extra part. -/
  fields : List Field
  /-- The comment of the entry. -/
  comment : List UInt8
  /-- The part before the lengths has its length. -/
  length_head : head.length = 24 := by decide
  /-- The part after the lengths has its length. -/
  length_tail : tail.length = 12 := by decide
  /-- The length of the name is kept in two bytes. -/
  name_lt : name.length < 256 ^ 2 := by decide
  /-- So is that of the extra part. -/
  fields_lt : (Field.part fields).length < 256 ^ 2 := by decide
  /-- So is that of the comment. -/
  comment_lt : comment.length < 256 ^ 2 := by decide

namespace Listed

/-- The record as it is stored. -/
def bytes (record : Listed) : List UInt8 :=
  LittleEndian.encode 4 directoryMark ++ (record.head ++
    (LittleEndian.encode 2 record.name.length ++
      (LittleEndian.encode 2 (Field.part record.fields).length ++
        (LittleEndian.encode 2 record.comment.length ++ (record.tail ++ (record.name ++
          (Field.part record.fields ++ record.comment)))))))

/-- A directory of several records. -/
def directory (records : List Listed) : List UInt8 := records.flatMap bytes

/-- Whether a record is of the new form. -/
def isWide (record : Listed) : Bool := record.fields.any Field.isWide

/-- A record is as long as its parts. -/
theorem length_bytes (record : Listed) : record.bytes.length =
    directoryLength + record.name.length + (Field.part record.fields).length +
      record.comment.length := by
  simp only [bytes, List.length_append, LittleEndian.length_encode, record.length_head,
    record.length_tail, directoryLength]
  omega

/-- The extra part of a record, and what follows the record, are found by its lengths. -/
theorem directoryExtra?_bytes (record : Listed) (rest : List UInt8) :
    directoryExtra? (record.bytes ++ rest) = some (Field.part record.fields, rest) := by
  have found : At (record.bytes ++ rest) 0 record.bytes := Bytes.at_zero _ _
  have lengths := found.right.right
  have name : number? 2 (record.bytes ++ rest) 28 = some record.name.length :=
    number?_of_at lengths.left (by simp [LittleEndian.length_encode, record.length_head])
      record.name_lt
  have extra : number? 2 (record.bytes ++ rest) 30 = some (Field.part record.fields).length :=
    number?_of_at lengths.right.left
      (by simp [LittleEndian.length_encode, record.length_head]) record.fields_lt
  have comment : number? 2 (record.bytes ++ rest) 32 = some record.comment.length :=
    number?_of_at lengths.right.right.left
      (by simp [LittleEndian.length_encode, record.length_head]) record.comment_lt
  have part := lengths.right.right.right.right.right.left.slice
  have place : 0 + (LittleEndian.encode 4 directoryMark).length + record.head.length +
      (LittleEndian.encode 2 record.name.length).length +
      (LittleEndian.encode 2 (Field.part record.fields).length).length +
      (LittleEndian.encode 2 record.comment.length).length + record.tail.length +
      record.name.length = directoryLength + record.name.length := by
    simp [LittleEndian.length_encode, record.length_head, record.length_tail, directoryLength]
  have whole : directoryLength + record.name.length + (Field.part record.fields).length ≤
      (record.bytes ++ rest).length := by
    rw [List.length_append, length_bytes]
    omega
  rw [place] at part
  rw [directoryExtra?, name, extra, comment]
  dsimp only
  rw [if_pos whole, part, List.drop_left' record.length_bytes]

end Listed

/-- Whether a directory has a record of the new form is told from its records. -/
theorem anyWide_directory (records : List Listed) :
    anyWide (Listed.directory records) = some (records.any Listed.isWide) := by
  induction records with
  | nil =>
    have none : LittleEndian.read? 4 (Listed.directory []) ≠ some directoryMark := by decide
    rw [anyWide, if_neg none]
    rfl
  | cons record later ih =>
    have whole : Listed.directory (record :: later) = record.bytes ++ Listed.directory later := rfl
    have mark : LittleEndian.read? 4 (Listed.directory (record :: later)) = some directoryMark := by
      rw [whole]
      exact number?_of_at (Bytes.at_zero record.bytes _).left rfl (by decide)
    rw [anyWide, if_pos mark]
    split
    · next cut =>
      rw [whole, record.directoryExtra?_bytes] at cut
      contradiction
    · next extra rest found =>
      rw [whole, record.directoryExtra?_bytes] at found
      obtain ⟨rfl, rfl⟩ := Prod.mk.inj (Option.some.inj found)
      rw [hasWideField_part, ih, List.any_cons, Listed.isWide]
      cases record.fields.any Field.isWide <;> rfl

/-- A zip file whose end record has all its numbers, with no locator before it, and leads to a
directory of records. -/
structure Lists (file : List UInt8) (records : List Listed) (position start : Nat) : Prop where
  /-- The end record is at a position. -/
  ends : EndsAt file position
  /-- It has a comment no longer than it can be. -/
  comment : file.length ≤ position + endLength + commentLimit
  /-- There is no locator before it. -/
  noLocator : ¬ (locatorLength ≤ position ∧
    number? 4 file (position - locatorLength) = some locatorMark)
  /-- It counts the records. -/
  count : number? 2 file (position + 10) = some records.length
  /-- It has the length of the directory. -/
  size : number? 4 file (position + 12) = some (Listed.directory records).length
  /-- It says where the directory starts. -/
  offset : number? 4 file (position + 16) = some start
  /-- None of its numbers is kept elsewhere. -/
  numbers : records.length ≠ full16 ∧ (Listed.directory records).length ≠ full32 ∧ start ≠ full32
  /-- There is a record. -/
  some_record : records ≠ []
  /-- The directory is there. -/
  directory : At file start (Listed.directory records)

/-- A file that shows its form by its directory is of the new form if some record is. -/
theorem isWide_eq_any {file : List UInt8} {records : List Listed} {position start : Nat}
    (lists : Lists file records position start) :
    isWide file = .ok (records.any Listed.isWide) := by
  obtain ⟨count, size, offset⟩ := lists.numbers
  have none_elsewhere : ¬ (records.length = full16 ∨
      (Listed.directory records).length = full32 ∨ start = full32) := by
    rintro (same | same | same)
    · exact count same
    · exact size same
    · exact offset same
  have some_record : records.length ≠ 0 := mt List.length_eq_zero_iff.mp lists.some_record
  rw [isWide_of_endsAt lists.ends lists.comment, verdict, if_neg lists.noLocator, lists.count,
    lists.size, lists.offset]
  dsimp only
  rw [if_neg none_elsewhere, if_neg some_record, if_neg (Nat.not_lt.mpr lists.directory.le_length),
    lists.directory.slice, anyWide_directory]

/-- The form of a file that shows it by its directory: one record of the new form is enough. So the
file counts as one of the new form exactly if every record is of it, unless there are records of
both forms. -/
theorem isWide_of_lists {file : List UInt8} {records : List Listed} {position start : Nat}
    (lists : Lists file records position start) :
    isWide file = .ok (records.any Listed.isWide) ∧
      ((isWide file = .ok true ↔ ∀ record ∈ records, record.isWide = true) ↔
        ¬ ((∃ record ∈ records, record.isWide = true) ∧
          ∃ record ∈ records, record.isWide = false)) := by
  have form := isWide_eq_any lists
  refine ⟨form, ?_⟩
  rw [form, Except.ok.injEq, List.any_eq_true]
  obtain ⟨first, member⟩ := List.exists_mem_of_ne_nil _ lists.some_record
  constructor
  · rintro ⟨every, -⟩ ⟨some_wide, record, other, narrow⟩
    exact Bool.false_ne_true (narrow.symm.trans (every some_wide record other))
  · intro alike
    constructor
    · intro some_wide record other
      cases form : record.isWide with
      | true => rfl
      | false => exact absurd ⟨some_wide, record, other, form⟩ alike
    · exact fun every => ⟨first, member, every first member⟩

/-- A directory with a record of each form: the entry `a` has a field with eight-byte sizes, and the
entry `b` has none. -/
def mixedRecords : List Listed :=
  [⟨Bytes.zeros 24, Bytes.zeros 12, [97], [⟨wideField, Bytes.zeros 16, by decide, by decide⟩], [],
      rfl, rfl, by decide, by decide, by decide⟩,
    ⟨Bytes.zeros 24, Bytes.zeros 8 ++ [31, 0, 0, 0], [98], [], [], rfl, rfl, by decide, by decide,
      by decide⟩]

/-- A zip file of these two entries, which are empty. -/
def mixedFile : List UInt8 :=
  let localRecord (letter : UInt8) := LittleEndian.encode 4 localMark ++ Bytes.zeros 22 ++
    [1, 0, 0, 0, letter]
  localRecord 97 ++ localRecord 98 ++ Listed.directory mixedRecords ++
    endRecord 2 (Listed.directory mixedRecords).length 62 []

/-- The file leads to its directory. -/
theorem lists_mixedFile : Lists mixedFile mixedRecords 176 62 where
  ends := by
    have length : mixedFile.length = 198 := by decide +kernel
    refine ⟨⟨by decide +kernel, by decide +kernel⟩, fun later behind mark => ?_⟩
    have room : later + 22 ≤ 198 := length ▸ mark.1
    omega
  comment := by decide +kernel
  noLocator := by decide +kernel
  count := by decide +kernel
  size := by decide +kernel
  offset := by decide +kernel
  numbers := by decide +kernel
  some_record := by decide +kernel
  directory := ⟨mixedFile.take 62, mixedFile.drop 176, by decide +kernel, by decide +kernel⟩

/-- Of two records of both forms, the one of the new form is enough. -/
theorem isWide_of_lists_mixed :
    Lists mixedFile mixedRecords 176 62 ∧ isWide mixedFile = .ok true :=
  ⟨lists_mixedFile, (isWide_of_lists lists_mixedFile).1⟩

/-- A file that counts as one of the new form may have records of the old form. -/
theorem old_record_not_noticed :
    ¬ ∀ {file : List UInt8} {records : List Listed} {position start : Nat},
      Lists file records position start →
      (isWide file = .ok true ↔ ∀ record ∈ records, record.isWide = true) := by
  intro every
  have all_wide := (every lists_mixedFile).mp (isWide_eq_any lists_mixedFile)
  revert all_wide
  decide

end Trajectory.Zip
