import Trajectory.Proofs.Ledger
import Trajectory.Proofs.Zip.Session
/-!
# Sessions of appends

An archive that is opened to append reads what its file held at that time. A write under a new path
lists the path and puts its entry behind the others, where no stored bytes are, and a write under a
path that is listed changes nothing. The completed file has the old entries with their contents and
the new ones with theirs.
-/
namespace Trajectory.Zip

/-! ## What a file held -/

variable {file : List UInt8}

/-- A directory that was found is one that some position leads to. -/
theorem exists_leads {kept : Option ZipError} {positions : List Nat} {found : Listing}
    (lists : findListing file kept positions = .ok found) :
    ∃ position, Leads file position found := by
  induction positions generalizing kept with
  | nil => contradiction
  | cons position earlier ih =>
    rw [findListing] at lists
    split at lists
    · exact ih lists
    · next record read =>
      split at lists
      · exact ih lists
      · next place located =>
        split at lists
        · next listing listed =>
          exact ⟨position, record, place, read, located, Except.ok.inj lists ▸ listed⟩
        · exact ih lists

/-- The comment of an end record has a length of two bytes. -/
theorem comment_lt_of_endRecordAt {position : Nat} {record : EndRecord}
    (read : endRecordAt file position = .ok record) : record.comment.length < 256 ^ 2 := by
  unfold endRecordAt at read
  dsimp only at read
  split at read
  · next number =>
    split at read
    · next comment slice =>
      obtain rfl := Except.ok.inj read
      rw [Bytes.length_of_slice? slice]
      exact lt_of_number? number
    · contradiction
  · contradiction

/-- A location by way of a second end record keeps the comment. -/
theorem comment_of_firstLocation {comment : List UInt8} {locator : Locator} {stop : Nat}
    {fault : ZipError} {positions : List Nat} {found : Location}
    (located : firstLocation fault (wideLocation file comment locator stop) positions = .ok found) :
    found.remark.comment = comment := by
  induction positions generalizing fault with
  | nil => contradiction
  | cons position later ih =>
    rw [firstLocation] at located
    split at located
    · next here wide =>
      obtain rfl := Except.ok.inj located
      unfold wideLocation at wide
      dsimp only at wide
      split at wide
      · iterate 5
          split at wide
          · contradiction
        exact Except.ok.inj wide ▸ rfl
      · contradiction
    · exact ih located

/-- A location keeps the comment. -/
theorem comment_of_location {position : Nat} {record : EndRecord} {found : Location}
    (located : location file position record = .ok found) :
    found.remark.comment = record.comment := by
  unfold location at located
  split at located
  · dsimp only at located
    split at located
    · contradiction
    · split at located
      · contradiction
      · exact comment_of_firstLocation located
  · dsimp only at located
    split at located
    · exact Except.ok.inj located ▸ rfl
    · split at located
      · contradiction
      · split at located
        · exact Except.ok.inj located ▸ rfl
        · contradiction

/-- What a position leads to has distinct names, and a comment with a length of two bytes. -/
theorem Leads.cases {position : Nat} {listing : Listing} (leads : Leads file position listing) :
    (listing.entries.map (·.name)).Nodup ∧ listing.remark.comment.length < 256 ^ 2 := by
  obtain ⟨record, found, read, located, lists⟩ := leads
  unfold Location.listing? at lists
  split at lists
  · split at lists
    · next entries stop records =>
      obtain rfl := Option.some.inj lists
      dsimp only
      rw [comment_of_location located]
      exact ⟨nodup_distinct entries, comment_lt_of_endRecordAt read⟩
    · contradiction
  · contradiction

/-- All entries that are held are held one by one. -/
theorem forall₂_of_holdAll {entries : List Entry} {stored : List Held}
    (found : holdAll file entries = .ok stored) :
    List.Forall₂ (fun entry held => hold file entry = .ok held) entries stored := by
  induction entries generalizing stored with
  | nil =>
    obtain rfl := Except.ok.inj found
    exact .nil
  | cons entry later ih =>
    rw [holdAll] at found
    split at found
    · next held others first rest =>
      obtain rfl := Except.ok.inj found
      exact .cons first (ih rest)
    · contradiction
    · contradiction

namespace Archive

variable {first archive : Archive} {base : List UInt8}

/-- An archive that is opened to append has a session over the entries that it holds. -/
theorem session_of_openExisting (opened : openExisting .append base = .ok first) :
    ∃ session, first.session = some session ∧ first.mode = .append ∧ first.closed = false ∧
      first.catalog.names = session.entries.map (·.name) ∧ first.catalog.InStep ∧
      session.remark.comment.length < 256 ^ 2 ∧
      List.Forall₂ (fun entry held => hold base entry = .ok held) session.entries first.stored := by
  unfold openExisting at opened
  split at opened
  · contradiction
  · next found lists =>
    split at opened
    · contradiction
    · next stored held =>
      obtain rfl := Except.ok.inj opened
      obtain ⟨position, leads⟩ := exists_leads lists
      obtain ⟨distinct, comment⟩ := leads.cases
      have names : (Catalog.ofList (found.entries.map fun entry => (entry.name, ()))).names =
          found.entries.map (·.name) := by
        rw [Catalog.names_ofList, List.map_map]
        exact eraseDups_of_nodup distinct
      exact ⟨_, rfl, rfl, rfl, names, .ofList _, comment, forall₂_of_holdAll held⟩

/-- What can be opened to append can be opened for reading, with the same entries. -/
theorem openExisting_read (opened : openExisting .append base = .ok first) :
    openExisting .read base = .ok { first with mode := .read, session := none } := by
  unfold openExisting at opened ⊢
  split at opened
  · contradiction
  · split at opened
    · contradiction
    · next stored held =>
      obtain rfl := Except.ok.inj opened
      rfl

/-- The entries of an archive last when others are put behind them: their stored bytes are before
the place of the first new one, and they are read back from their directory records. -/
def Lasting (archive : Archive) (file : List UInt8) : Prop :=
  ∀ session, archive.session = some session → ∀ held ∈ archive.stored,
    held.start + held.entry.length ≤ min session.position file.length ∧ held.entry.Rereads

end Archive

/-! ## A session under way -/

/-- Contents that are written under a path, and the compression that is asked for them. -/
structure Addition where
  /-- The path. -/
  path : String
  /-- The contents. -/
  contents : List UInt8
  /-- The compression. -/
  compression : Compression

namespace Addition

variable (addition : Addition) (deflater : Deflate.Deflater)

/-- The bytes that the contents are stored as. -/
def stored : List UInt8 :=
  (Options.ofCompression addition.compression).pack deflater addition.contents

/-- The numbers that tell of what is written fit into its records. -/
structure Fits : Prop where
  /-- The path has a length of two bytes. -/
  path_lt : (Utf8.encode addition.path).length < 256 ^ 2
  /-- The contents have a length of eight bytes. -/
  contents_lt : addition.contents.length < 256 ^ 8
  /-- The length of the contents is told apart from that of the stored bytes. -/
  told : Entry.Told addition.contents.length (addition.stored deflater).length

end Addition

/-- What was written, as it is on a shelf. -/
def shelfOf (written : List Addition) : List (String × Except ArchiveError (List UInt8)) :=
  written.map fun addition => (addition.path, .ok addition.contents)

/-- The names of what was written are those on the shelf. -/
theorem names_shelfOf (written : List Addition) :
    (shelfOf written).map (·.1) = written.map (·.path) := by
  rw [shelfOf, List.map_map]
  rfl

/-- A session extends what a file held by what was written: the stored bytes of what the file held
are before the place of the next entry, and all entries rest there, if the numbers that tell of them
fit. -/
structure Session.Extends (deflater : Deflate.Deflater) (session : Session) (file : List UInt8)
    (stored : List Held) (shelf : List (String × Except ArchiveError (List UInt8)))
    (written : List Addition) : Prop where
  /-- The comment has a length of two bytes. -/
  comment : session.remark.comment.length < 256 ^ 2
  /-- The stored bytes are before the next entry. -/
  before : ∀ held ∈ stored, held.start + held.entry.length ≤ min session.position file.length
  /-- The names are those on the shelf and those written. -/
  names : session.entries.map (·.name) = shelf.map (·.1) ++ written.map (·.path)
  /-- The entries rest before the next one. -/
  shelved : session.position < 256 ^ 8 →
    (∀ addition ∈ written, addition.Fits deflater) →
    Shelved (Bytes.resize file session.position) session.entries (shelf ++ shelfOf written)

namespace Session.Extends

variable {deflater : Deflate.Deflater} {session : Session} {stored : List Held}
  {written : List Addition} {shelf : List (String × Except ArchiveError (List UInt8))}

/-- Stored bytes before the next entry stay where they are when it is added, and so do their
contents. -/
theorem item_add (extends_it : session.Extends deflater file stored shelf written) (path : String)
    (contents : List UInt8) (options : Options) {held : Held} (member : held ∈ stored) :
    held.item (session.add deflater file path contents options).2 = held.item file := by
  have inside : held.start + held.entry.length ≤ (file.take session.position).length := by
    rw [List.length_take]
    exact extends_it.before held member
  have kept : file.take session.position <+:
      (session.add deflater file path contents options).2 := by
    rw [Session.add]
    dsimp only
    exact Bytes.prefix_overwrite (List.take_prefix _ _) (List.length_take_le _ _) _
  rw [Held.item, Held.item, contents_of_slice (Bytes.slice_of_prefix kept inside) rfl,
    contents_of_slice (Bytes.slice_of_prefix (List.take_prefix _ _) inside) rfl]

/-- An entry that is added extends what was written. -/
theorem add (extends_it : session.Extends deflater file stored shelf written)
    (addition : Addition) :
    let after := session.add deflater file addition.path addition.contents
      (.ofCompression addition.compression)
    after.1.Extends deflater after.2 stored shelf (written ++ [addition]) := by
  intro after
  let packed := addition.stored deflater
  let entry := Entry.ofContents addition.path (.ofCompression addition.compression)
    addition.contents packed session.position
  let record := entry.localRecord packed
  have length : (Bytes.resize file session.position).length = session.position :=
    Bytes.length_resize file session.position
  have grown : file.length ≤ after.2.length := by
    have some_byte : record ≠ [] := List.cons_ne_nil _ _
    have reaches : after.2.length = max file.length (session.position + record.length) :=
      Bytes.length_overwrite file session.position some_byte
    omega
  have place : after.1.position = session.position + record.length := rfl
  refine ⟨extends_it.comment, fun held member => ?_, ?_, fun position_lt fits => ?_⟩
  · have before := extends_it.before held member
    omega
  · have names : after.1.entries = session.entries ++ [entry] := rfl
    rw [names, List.map_append, extends_it.names, List.map_append, List.append_assoc]
    rfl
  · have holds : packed.length ≤ record.length := by
      simp only [record, Entry.localRecord, List.length_append]
      omega
    have front : Bytes.resize after.2 after.1.position =
        Bytes.resize file session.position ++ record :=
      Bytes.resize_overwrite file session.position record
    have earlier := extends_it.shelved (by omega) fun other member =>
      fits other (List.mem_append_left _ member)
    have fitting := fits addition (List.mem_append_right _ (List.mem_singleton_self _))
    have rests : entry.Rests (Bytes.resize file session.position ++ record)
        (.ok addition.contents) := by
      have new := @Entry.rests_ofContents deflater addition.compression addition.path
        addition.contents (Bytes.resize file session.position) fitting.path_lt fitting.told
        fitting.contents_lt (Nat.lt_of_le_of_lt holds (by omega)) (by omega)
      rwa [length] at new
    rw [front, shelfOf, List.map_append, ← List.append_assoc]
    exact (earlier.mono (List.prefix_append _ _)).append_singleton rests

end Session.Extends

/-- Entries that are held before a place, and are read back, rest before it. -/
theorem shelved_of_held {entries : List Entry} {stored : List Held} {position : Nat}
    (holds : List.Forall₂ (fun entry held => hold file entry = .ok held) entries stored)
    (lasting : ∀ held ∈ stored,
      held.start + held.entry.length ≤ min position file.length ∧ held.entry.Rereads) :
    Shelved (Bytes.resize file position) entries (stored.map (·.item file)) := by
  induction holds with
  | nil => exact .nil
  | @cons entry held _ _ found _ ih =>
    obtain ⟨inside, rereads⟩ := lasting held (List.mem_cons_self ..)
    obtain ⟨same, behind⟩ := hold_cases found
    obtain ⟨known, start⟩ := held
    obtain rfl : known = entry := same
    have head : known.offset + localLength ≤ min position file.length := Nat.le_trans behind
      (Nat.le_trans (Nat.le_add_right start known.length) inside)
    have head_there := Bytes.slice_resize (Nat.le_trans head (Nat.min_le_right ..))
      (Nat.le_trans head (Nat.min_le_left ..))
    have there := Bytes.slice_resize (Nat.le_trans inside (Nat.min_le_right ..))
      (Nat.le_trans inside (Nat.min_le_left ..))
    refine .cons ⟨rfl, ⟨⟨start, hold_of_slice head_there rfl found, ?_,
      contents_of_slice there rfl⟩, rereads⟩⟩
      (ih fun held member => lasting held (List.mem_cons_of_mem _ member))
    rw [Bytes.length_resize]
    exact Nat.le_trans inside (Nat.min_le_left ..)

/-! ## An archive under way -/

namespace Archive

/-- An archive appends to what another one held at first: it reads what that one read, and lists the
new names behind those that there were. -/
structure Appends (deflater : Deflate.Deflater) (first : Archive) (base : List UInt8)
    (written : List Addition) (archive : Archive) (file : List UInt8) : Prop where
  /-- It is open to append. -/
  mode : archive.mode = .append
  /-- It is open. -/
  isOpen : archive.closed = false
  /-- It holds what was held at first. -/
  stored : archive.stored = first.stored
  /-- It reads the same. -/
  shelf : archive.shelf file = first.shelf base
  /-- It lists the old names and the new ones. -/
  names : archive.catalog.names = (first.shelf base).map (·.1) ++ written.map (·.path)
  /-- Its names and the set of those known are in step. -/
  inStep : archive.catalog.InStep
  /-- Its session goes on. -/
  session : ∃ session, archive.session = some session ∧
    session.Extends deflater file first.stored (first.shelf base) written

namespace Appends

variable {deflater : Deflate.Deflater} {first archive : Archive} {base : List UInt8}
  {written : List Addition}

/-- An archive that is opened to append has written nothing. -/
theorem start (opened : openExisting .append base = .ok first) (lasting : first.Lasting base) :
    first.Appends deflater base [] first base := by
  obtain ⟨session, current, mode, isOpen, names, inStep, comment, holds⟩ :=
    session_of_openExisting opened
  have lasting := lasting session current
  have shelved := shelved_of_held holds lasting
  have listed : session.entries.map (·.name) = (first.shelf base).map (·.1) ++ [] :=
    shelved.names.trans (List.append_nil _).symm
  refine ⟨mode, isOpen, rfl, rfl, names.trans listed, inStep, session, current, comment,
    fun held member => (lasting held member).1, listed, fun _ _ => ?_⟩
  exact (List.append_nil (first.shelf base)).symm ▸ shelved

/-- It reads what was read at first, whatever was written. -/
theorem read (appends : first.Appends deflater base written archive file) (path : String) :
    archive.read file path = ((first.shelf base).lookup path).getD (.ok []) := by
  rw [read_eq appends.isOpen (by rw [appends.mode]; decide), appends.shelf]

/-- The entries of its session have the names that it lists. -/
theorem names_session (appends : first.Appends deflater base written archive file)
    {session : Session} (current : archive.session = some session) :
    session.entries.map (·.name) = archive.catalog.names := by
  obtain ⟨_, same, extends_it⟩ := appends.session
  obtain rfl := Option.some.inj (current.symm.trans same)
  exact extends_it.names.trans appends.names.symm

/-- A write under a path that is listed is refused, and changes nothing. -/
theorem write_of_mem (appends : first.Appends deflater base written archive file) {path : String}
    (listed : path ∈ archive.catalog.names) (contents : List UInt8) (compression : Compression) :
    archive.write deflater file path contents compression =
      (.error (.zip (.duplicate path)), archive, file) := by
  obtain ⟨session, current, -⟩ := appends.session
  have stored : path ∈ session.entries.map (·.name) := appends.names_session current ▸ listed
  rw [Archive.write, if_neg (by rw [appends.isOpen]; exact Bool.false_ne_true),
    if_neg (by rw [appends.mode]; decide), current]
  exact if_pos stored

/-- A write under a new path succeeds. -/
theorem write_of_not_mem (appends : first.Appends deflater base written archive file)
    (addition : Addition) (new : addition.path ∉ archive.catalog.names) :
    ∃ after left, archive.write deflater file addition.path addition.contents
        addition.compression = (.ok (), after, left) ∧
      first.Appends deflater base (written ++ [addition]) after left := by
  obtain ⟨session, current, extends_it⟩ := appends.session
  let options := Options.ofCompression addition.compression
  let added := session.add deflater file addition.path addition.contents options
  let after : Archive :=
    { archive with session := some added.1, catalog := archive.catalog.insert addition.path () }
  have unstored : addition.path ∉ session.entries.map (·.name) :=
    appends.names_session current ▸ new
  have written_now : archive.write deflater file addition.path addition.contents
      addition.compression = (.ok (), after, added.2) := by
    rw [Archive.write, if_neg (by rw [appends.isOpen]; exact Bool.false_ne_true),
      if_neg (by rw [appends.mode]; decide), current]
    exact if_neg unstored
  have names : after.catalog.names = archive.catalog.names ++ [addition.path] := by
    rw [appends.inStep.names_insert, if_neg new]
  refine ⟨after, added.2, written_now, appends.mode, appends.isOpen, appends.stored, ?_, ?_,
    appends.inStep.insert _ _, added.1, rfl, extends_it.add addition⟩
  · rw [← appends.shelf, Archive.shelf, Archive.shelf]
    refine List.map_congr_left fun held member => ?_
    exact extends_it.item_add _ _ _ (appends.stored ▸ member)
  · rw [names, appends.names, List.map_append, List.append_assoc]
    rfl

/-- The file that closing completes is opened to the old entries with their contents, and the new
ones with theirs. -/
theorem reopen (appends : first.Appends deflater base written archive file)
    (legible : ∀ session front, archive.session = some session →
      session.complete file = completed front session.entries session.remark →
      Legible front session.entries session.remark)
    (fits : ∀ addition ∈ written, addition.Fits deflater) :
    let left := (archive.close file).2
    ∃ reader, openExisting .read left = .ok reader ∧ reader.mode = .read ∧
      reader.closed = false ∧ reader.catalog.names = archive.catalog.names ∧
      reader.shelf left = first.shelf base ++ shelfOf written := by
  intro left
  obtain ⟨session, current, extends_it⟩ := appends.session
  obtain ⟨front, kept, complete⟩ := session.complete_eq file
  have closed : left = completed front session.entries session.remark := by
    rw [← complete]
    simp only [left, close, current, appends.isOpen, Bool.false_eq_true, ↓reduceIte]
  have legible := legible session front current complete
  -- The place of the directory is inside the completed file, so eight bytes hold it.
  have position_lt : session.position < 256 ^ 8 := by
    have length := legible.length_lt
    have front_length := kept.length_le
    rw [completed, List.length_append] at length
    rw [Bytes.length_resize] at front_length
    omega
  have names := appends.names_session current
  have shelved := (extends_it.shelved position_lt fits).mono kept
  obtain ⟨found, lists, same⟩ := listing_completed legible extends_it.comment
    (fun entry member => (shelved.rests member).elim fun _ rests => rests.rereads)
    (fun entry member => (shelved.rests member).elim fun _ rests => rests.offset_lt)
    (names ▸ appends.inStep.nodup)
  have kept_left : front <+: left := closed ▸ List.prefix_append front _
  obtain ⟨stored, holds, shelf⟩ := shelved.holdAll kept_left same
  have found_names : found.entries.map (·.name) = archive.catalog.names :=
    (map_name_of_bare same).trans names
  refine ⟨⟨.read, stored, none, .ofList (found.entries.map fun entry => (entry.name, ())), false⟩,
    ?_, rfl, rfl, ?_, shelf⟩
  · rw [openExisting, closed, lists]
    dsimp only
    rw [← closed, holds]
    rfl
  · rw [Catalog.names_ofList, List.map_map]
    exact (congrArg List.eraseDups found_names).trans (eraseDups_of_nodup appends.inStep.nodup)

end Appends

end Archive

end Trajectory.Zip
