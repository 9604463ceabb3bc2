import Trajectory.Proofs.Tar.Image
import Trajectory.Tar.Archive
/-!
# Operations of tar archives

What each operation does to the settled file, that is, the file once everything pending is in it:
a write goes to the end of the entries, wherever the cursor was; a read changes nothing; closing
ends the archive behind its last entry.
-/
namespace Trajectory.Tar

/-- A catalog shows a ledger in some bytes: it tells where in them the contents written last under
a path are. -/
def Shows (catalog : Catalog Extent) (bytes : List UInt8) (ledger : Ledger) : Prop :=
  catalog.Tracks ledger fun extent contents =>
    extent.offset + extent.size ≤ bytes.length ∧
      (bytes.drop extent.offset).take extent.size = contents

/-- Behind some bytes, the bytes of an item show it. -/
theorem Shows.append {catalog : Catalog Extent} {bytes : List UInt8} {ledger : Ledger}
    (shows : Shows catalog bytes ledger) {item : Item} (fits : item.Fits) :
    Shows (catalog.insert item.path ⟨bytes.length + blockLength, item.contents.length⟩)
      (bytes ++ item.bytes) (ledger ++ [item.written]) := by
  obtain ⟨header, encoded⟩ := fits
  have present : Bytes.At (bytes ++ item.bytes) bytes.length item.bytes :=
    ⟨bytes, [], by rw [List.append_nil], rfl⟩
  rw [Item.bytes_of_encode encoded] at present
  have contents := present.left.right
  rw [Header.length_encode encoded, ← Item.bytes_of_encode encoded] at contents
  refine (shows.weaken ?_).insert ⟨contents.le_length, contents.slice⟩ item.path
  rintro extent held ⟨inside, there⟩
  refine ⟨?_, ?_⟩
  · rw [List.length_append]
    exact Nat.le_add_right_of_le inside
  · rw [Bytes.slice_append _ inside]
    exact there

namespace Archive

variable {archive : Archive} {writer : BufferedWriter}

/-- Where the next entry goes: to the cursor, if that is taken to be at the end of the entries. -/
def landing (archive : Archive) (writer : BufferedWriter) : Nat :=
  if archive.inPlace then writer.reach else archive.stop

/-- Moving the cursor to the place for a new entry settles the file. -/
theorem settled_place (archive : Archive) (writer : BufferedWriter) (file : List UInt8) :
    let place := if archive.inPlace then (writer, file) else writer.seek file archive.stop
    place.1.settled place.2 = writer.settled file ∧
      place.1.reach = archive.landing writer := by
  cases standing : archive.inPlace with
  | true => exact ⟨rfl, by rw [landing, if_pos standing]; rfl⟩
  | false =>
    rw [landing, standing]
    exact writer.settled_seek file archive.stop

/-- An entry that can have no header is refused, and the settled file stays as it is. -/
theorem write_of_error (channel : archive.channel = .writer writer) {path : String}
    {contents : List UInt8} {time : Nat} {limit : HeaderLimit}
    (refused : Header.encode path contents.length time = .error limit) (file : List UInt8)
    (immediate : Bool) :
    ∃ after kept, archive.write file time path contents immediate =
        (.error (.ofTar (.limit limit)),
          { archive with channel := .writer after, inPlace := false }, kept) ∧
      after.settled kept = writer.settled file := by
  obtain ⟨settled, -⟩ := settled_place archive writer file
  refine ⟨_, _, ?_, settled⟩
  rw [write, append, channel]
  dsimp only
  rw [refused]

/-- An entry that has a header is written where the next entry goes, and becomes the last. -/
theorem write_of_ok (channel : archive.channel = .writer writer) {path : String}
    {contents header : List UInt8} {time : Nat}
    (encoded : Header.encode path contents.length time = .ok header) (file : List UInt8)
    (immediate : Bool) :
    ∃ after kept, archive.write file time path contents immediate =
        (.ok (), { archive with
          channel := .writer after
          catalog := archive.catalog.insert path ⟨archive.stop + blockLength, contents.length⟩
          stop := archive.stop + entryLength contents.length
          inPlace := true }, kept) ∧
      after.settled kept = Bytes.overwrite (writer.settled file) (archive.landing writer)
        (Item.bytes ⟨path, contents, time⟩) ∧
      after.reach = archive.landing writer + entryLength contents.length := by
  obtain ⟨settled, reached⟩ := settled_place archive writer file
  generalize standing : (if archive.inPlace then (writer, file) else
    writer.seek file archive.stop) = place at settled reached
  obtain ⟨all_settled, all_reached⟩ :=
    place.1.settled_writeAll place.2 (entryRuns header contents)
  have bytes := @Item.flatten_entryRuns ⟨path, contents, time⟩ header encoded
  have length : (Item.bytes ⟨path, contents, time⟩).length = entryLength contents.length :=
    Item.length_bytes encoded
  rw [settled, reached, bytes] at all_settled
  rw [reached, bytes, length] at all_reached
  generalize written : place.1.writeAll place.2 (entryRuns header contents) = run at *
  refine ⟨if immediate then (run.1.flush run.2).1 else run.1,
    if immediate then (run.1.flush run.2).2 else run.2, ?_, ?_, ?_⟩
  · rw [write, append, channel]
    dsimp only
    rw [standing, encoded]
    dsimp only
    rw [written]
    cases immediate <;> rfl
  · cases immediate
    · exact all_settled
    · exact all_settled
  · cases immediate
    · exact all_reached
    · exact all_reached

/-- A write succeeds exactly if its path and its contents fit into a header. -/
theorem write_ok_iff (channel : archive.channel = .writer writer) (item : Item)
    (file : List UInt8) (immediate : Bool) :
    (archive.write file item.time item.path item.contents immediate).1 = .ok () ↔ item.Fits := by
  cases encoded : Header.encode item.path item.contents.length item.time with
  | error limit =>
    obtain ⟨after, kept, refused, -⟩ := write_of_error channel encoded file immediate
    simp [refused, Item.Fits, encoded]
  | ok header =>
    obtain ⟨after, kept, written, -⟩ := write_of_ok channel encoded file immediate
    simp [written, Item.Fits, encoded]

/-- Reading at an extent gives the bytes there if they are enough, and stops behind them. -/
theorem readExtent_eq (file : List UInt8) (extent : Extent) :
    readExtent file extent =
      (if ((file.drop extent.offset).take extent.size).length = extent.size then
          .ok ((file.drop extent.offset).take extent.size)
        else .error .unexpectedEnd,
        extent.offset + ((file.drop extent.offset).take extent.size).length) := by
  unfold readExtent readContents Source.ofBytes Source.seek
  dsimp only
  rw [Source.readExact_plain]

/-- An archive that is written anew refuses to be read, which changes nothing. -/
theorem read_of_write (channel : archive.channel = .writer writer) (mode : archive.mode = .write)
    (file : List UInt8) (path : String) :
    archive.read file path = (.error (.invalidMode (.writeOnly .tar)), archive, file) := by
  rw [read, channel]
  dsimp only
  rw [if_pos mode]

/-- A path without entry reads as empty, and the settled file stays as it is. -/
theorem read_of_none (channel : archive.channel = .writer writer) (mode : archive.mode ≠ .write)
    {path : String} (absent : archive.catalog.get? path = none) (file : List UInt8) :
    archive.read file path =
      (.ok [], { archive with channel := .writer (writer.flush file).1 }, writer.settled file) := by
  rw [read, channel]
  dsimp only
  rw [if_neg mode, absent]
  rfl

/-- A path without entry reads as empty, unless no path can be read. -/
theorem read_of_not_mem (inStep : archive.catalog.InStep) {path : String}
    (unlisted : path ∉ archive.catalog.names) (file : List UInt8) :
    (archive.read file path).1 = .ok [] ∨
      ∃ error, ∀ other, (archive.read file other).1 = .error error := by
  have absent := inStep.get?_eq_none_iff.mpr unlisted
  cases channel : archive.channel with
  | closed => exact .inr ⟨.closed, fun other => by rw [read, channel]⟩
  | reader =>
    refine .inl ?_
    rw [read, channel]
    dsimp only
    rw [absent]
  | writer writer =>
    by_cases writes : archive.mode = .write
    · exact .inr ⟨_, fun other => congrArg Prod.fst (read_of_write channel writes file other)⟩
    · exact .inl (congrArg Prod.fst (read_of_none channel writes absent file))

/-- An entry whose contents are in the settled file reads as them, and leaves the cursor behind
them. -/
theorem read_of_some (channel : archive.channel = .writer writer) (mode : archive.mode ≠ .write)
    {path : String} {extent : Extent} (listed : archive.catalog.get? path = some extent)
    {file : List UInt8}
    (whole : (((writer.settled file).drop extent.offset).take extent.size).length = extent.size) :
    ∃ position, archive.read file path =
      (.ok (((writer.settled file).drop extent.offset).take extent.size),
        { archive with channel := .writer ⟨[], position⟩, inPlace := false },
        writer.settled file) := by
  have contents := readExtent_eq (writer.settled file) extent
  rw [if_pos whole] at contents
  refine ⟨extent.offset + (((writer.settled file).drop extent.offset).take extent.size).length, ?_⟩
  rw [read, channel]
  dsimp only
  rw [if_neg mode, listed]
  dsimp only
  rw [show (writer.flush file).2 = writer.settled file from rfl, contents]

/-- An entry that the settled file has not all of is not read. The cursor is left where reading
stopped, past the bytes there are and short of the end of the entry. -/
theorem read_of_short (channel : archive.channel = .writer writer) (mode : archive.mode ≠ .write)
    {path : String} {extent : Extent} (listed : archive.catalog.get? path = some extent)
    {file : List UInt8}
    (short : (((writer.settled file).drop extent.offset).take extent.size).length ≠ extent.size) :
    ∃ position, archive.read file path =
        (.error (.io .unexpectedEnd), { archive with channel := .writer ⟨[], position⟩ },
          writer.settled file) ∧
      (writer.settled file).length ≤ position ∧ position < extent.offset + extent.size := by
  have contents := readExtent_eq (writer.settled file) extent
  rw [if_neg short] at contents
  refine ⟨extent.offset + (((writer.settled file).drop extent.offset).take extent.size).length,
    ?_, ?_⟩
  · rw [read, channel]
    dsimp only
    rw [if_neg mode, listed]
    dsimp only
    rw [show (writer.flush file).2 = writer.settled file from rfl, contents]
  · rw [List.length_take, List.length_drop] at short ⊢
    omega

/-- Ending a batch passes on what is pending. -/
theorem endBatch_of_writer (channel : archive.channel = .writer writer) (file : List UInt8) :
    archive.endBatch file =
      (.ok (), { archive with channel := .writer (writer.flush file).1 }, writer.settled file) := by
  rw [endBatch, channel]
  rfl

/-- Closing ends the archive behind its last entry, and the file with it. -/
theorem close_of_writer (channel : archive.channel = .writer writer) (file : List UInt8) :
    (archive.close file).2 =
      Bytes.resize (writer.settled file) archive.stop ++ Bytes.zeros closingSize := by
  obtain ⟨settled, reached⟩ := writer.settled_seek file archive.stop
  obtain ⟨written, -⟩ := (writer.seek file archive.stop).1.settled_writeAll
    (writer.seek file archive.stop).2 closingRuns
  rw [settled, reached, flatten_closingRuns] at written
  rw [close, channel]
  have resized :=
    Bytes.resize_overwrite (writer.settled file) archive.stop (Bytes.zeros closingSize)
  rw [← written, Bytes.length_zeros] at resized
  exact resized

/-- An archive whose scan meets no fault opens with what the scan finds. -/
theorem openExisting_of_scanned {file : List UInt8}
    (scanned : ∀ error, (scan (.ofBytes file)).ending ≠ .failed error) (mode : Access) :
    openExisting mode file =
      (.ok (ofScan mode
        (if mode = .read then .reader else .writer ⟨[], (scan (.ofBytes file)).scanner.offset⟩)
        (scan (.ofBytes file))), warning? (scan (.ofBytes file)).ending) := by
  unfold openExisting
  dsimp only
  split
  · next error failed => exact absurd failed (scanned error)
  · rfl

/-- The scan of an archive that opens meets no fault. -/
theorem scanned_of_openExisting {file : List UInt8} {mode : Access} {archive : Archive}
    (opened : (openExisting mode file).1 = .ok archive) :
    ∀ error, (scan (.ofBytes file)).ending ≠ .failed error := by
  intro error failed
  unfold openExisting at opened
  simp [failed] at opened

/-- The names that a scan finds are in step with where their entries are. -/
theorem inStep_ofScan (mode : Access) (channel : Channel) (found : Scan) :
    (ofScan mode channel found).catalog.InStep := .ofList _

/-- The catalog of an intact archive tells where in the file the contents stored last under a path
are. -/
theorem tracks_ofScan {file : List UInt8} (intact : Intact file) (mode : Access)
    (channel : Channel) :
    (ofScan mode channel (scan (.ofBytes file))).catalog.Tracks (stored file)
      fun extent contents =>
        extent.offset + extent.size ≤ file.length ∧
          extent.offset + extent.size ≤ (scan (.ofBytes file)).scanner.offset ∧
          (file.drop extent.offset).take extent.size = contents := by
  refine Catalog.Tracks.ofList fun found listed => ?_
  exact ⟨intact.complete found listed, (trail_scan file).1.extent_le listed, rfl⟩

/-- The catalog of any archive shows what it holds once its body is filled in. -/
theorem shows_ofScan (file : List UInt8) (mode : Access) (channel : Channel) :
    Shows (ofScan mode channel (scan (.ofBytes file))).catalog (body file) (filled file) := by
  refine Catalog.Tracks.ofList fun found listed => ⟨?_, rfl⟩
  rw [body, Bytes.length_resize]
  exact (trail_scan file).1.extent_le listed

/-- What a scan of a file finds, opened for reading. -/
def reading (file : List UInt8) : Archive := ofScan .read .reader (scan (.ofBytes file))

/-- An archive that is opened for reading reads an entry as the bytes there are at its extent, if
they are enough. -/
theorem read_listed {file : List UInt8} {path : String} {extent : Extent}
    (listed : (reading file).catalog.get? path = some extent) :
    ((reading file).read file path).1 =
      if ((file.drop extent.offset).take extent.size).length = extent.size then
        .ok ((file.drop extent.offset).take extent.size)
      else .error (.io .unexpectedEnd) := by
  rw [read, show (reading file).channel = .reader from rfl]
  dsimp only
  rw [listed]
  dsimp only
  rw [readExtent_eq]
  by_cases whole : ((file.drop extent.offset).take extent.size).length = extent.size
  · rw [if_pos whole, if_pos whole]
  · rw [if_neg whole, if_neg whole]

/-- An entry lies before the end of the entries. -/
theorem le_offset_of_listed {file : List UInt8} {path : String} {extent : Extent}
    (listed : (reading file).catalog.get? path = some extent) :
    extent.offset + extent.size ≤ (scan (.ofBytes file)).scanner.offset := by
  have length : (body file).length = (scan (.ofBytes file)).scanner.offset :=
    Bytes.length_resize _ _
  exact length ▸ ((shows_ofScan file .read .reader).found listed).1

/-- An archive that is opened for reading reads a path without entry as empty. -/
theorem read_unlisted {file : List UInt8} {path : String}
    (absent : (reading file).catalog.get? path = none) :
    ((reading file).read file path).1 = .ok [] := by
  rw [read, show (reading file).channel = .reader from rfl]
  dsimp only
  rw [absent]

/-- An intact archive that is opened for reading reads as what is stored in it. -/
theorem read_of_reader {file : List UInt8} (intact : Intact file) (path : String) :
    ((ofScan .read .reader (scan (.ofBytes file))).read file path).1 =
      .ok ((stored file).latest path) := by
  have tracks := tracks_ofScan intact .read .reader
  change ((reading file).read file path).1 = _
  cases listed : (reading file).catalog.get? path with
  | none => rw [read_unlisted listed, tracks.latest_of_none listed]
  | some extent =>
    obtain ⟨inside, -, contents⟩ := tracks.found listed
    rw [read_listed listed, if_pos (Bytes.length_slice inside), contents]

/-- An archive that opens for reading is what its scan finds. -/
theorem eq_of_opened {file : List UInt8} {archive : Archive} {warning : Option Warning}
    (opened : openExisting .read file = (.ok archive, warning)) : archive = reading file := by
  have scanned := scanned_of_openExisting (congrArg Prod.fst opened)
  rw [openExisting_of_scanned scanned] at opened
  exact (Except.ok.inj (congrArg Prod.fst opened)).symm

/-- An intact archive that ends in zeros opens without a warning to what is stored in it. -/
theorem reopened_of_intact {file : List UInt8} (intact : Intact file)
    (ending : (scan (.ofBytes file)).ending = .finished none) :
    ∃ reader, openExisting .read file = (.ok reader, none) ∧
      reader.catalog.names = (stored file).byFirst ∧
      ∀ path, (reader.read file path).1 = .ok ((stored file).latest path) := by
  refine ⟨_, ?_, (tracks_ofScan intact .read .reader).names, read_of_reader intact⟩
  rw [openExisting_of_scanned intact.scanned, ending]
  rfl

end Archive

end Trajectory.Tar
