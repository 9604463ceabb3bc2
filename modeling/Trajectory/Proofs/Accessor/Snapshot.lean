import Trajectory.Proofs.Accessor.Scope
import Trajectory.Proofs.Volume.Files
import Trajectory.Proofs.Zip.Append
/-!
# Snapshots of an accessor that appends

An accessor that appends to a zip file reads the file as it was when it was opened, whatever it has
written since, while its enumeration and its register follow the writes. Once it is closed, opening
the file again gives the old entries and the new ones.
-/
namespace Trajectory

namespace Volume

variable {volume : Volume} {number : Nat}

/-- A file that is given contents twice has those given last. -/
theorem setContent_setContent (volume : Volume) (number : Nat) (first last : Content) :
    (volume.setContent number first).setContent number last = volume.setContent number last := by
  rw [setContent, setContent, setContent, List.set_set]

/-- A file of plain bytes is given others. -/
theorem setBytes_of_content {data : List UInt8} (content : volume.content number = .bytes data)
    (bytes : List UInt8) :
    volume.setBytes number bytes = volume.setContent number (.bytes bytes) := by
  rw [setBytes, content]

/-- A file is found where it was when it is given other contents. -/
theorem find_setContent {path : String} {place : Place}
    (found : volume.find path = .ok (place, .file number)) (content : Content) :
    (volume.setContent number content).find path = .ok (place, .file number) :=
  @find_congr (volume.setContent number content) number path place volume
    (fun _ _ standing => standing) found

end Volume

namespace Zip

/-- There is no archive in no bytes. -/
theorem ne_nil_of_openExisting {mode : Access} {file : List UInt8} {archive : Archive}
    (opened : Archive.openExisting mode file = .ok archive) : file ≠ [] := by
  rintro rfl
  contradiction

end Zip

/-- Of distinct names each is looked up as what is listed under it. -/
theorem lookup_of_mem {α : Type} {items : List (String × α)} (distinct : (items.map (·.1)).Nodup)
    {item : String × α} (member : item ∈ items) : items.lookup item.1 = some item.2 := by
  obtain ⟨before, later, rfl⟩ := List.append_of_mem member
  rw [List.map_append, List.map_cons] at distinct
  have apart := (List.nodup_append.mp distinct).2.2
  refine List.lookup_eq_some_iff.mpr ⟨before, later, rfl, fun other earlier => ?_⟩
  exact bne_iff_ne.mpr
    (Ne.symm (apart other.1 (List.mem_map_of_mem earlier) item.1 (List.mem_cons_self ..)))

/-- What writes nothing adds no write. -/
theorem Scope.all_record (scope : Scope) {call : Archive.Call}
    (unwritten : ∀ request, call ≠ .write request) (answer : Archive.Answer) :
    (scope.record call answer).all = scope.all := by
  unfold record
  split
  · next request => exact absurd rfl (unwritten request)
  · simp only [entered, all, Option.getD_some]
  · simp only [left, all, Option.getD_none, List.append_nil]
  · simp only [left, all, Option.getD_none, List.append_nil]
  · rfl

namespace Accessor

variable {config : Config} {volume : Volume} {path : String} {place : Place} {number : Nat}

/-- A zip file that can be read is opened to be read. -/
theorem openUsing_read_zip (kind : config.kind.getD (.ofPath path) = .zip)
    (found : volume.find path = .ok (place, .file number)) {archive : Zip.Archive}
    (opened : Zip.Archive.openExisting .read (volume.bytes number) = .ok archive) :
    openUsing config volume path .read =
      ⟨.ok (ofArchive path .read config.compression (.zip number archive)), volume, none⟩ := by
  have mode : Archive.effectiveMode volume path .read = .read := if_neg fun other => nomatch other.1
  rw [openUsing, mode, kind, Archive.openAs, Archive.openZip, mode]
  dsimp only
  rw [Archive.loadZip, found]
  dsimp only
  rw [opened]
  rfl

/-- An accessor that appends to a zip file has an archive of it. -/
theorem archive_of_openUsing_append (kind : config.kind.getD (.ofPath path) = .zip)
    (found : volume.find path = .ok (place, .file number)) {after : Volume} {accessor : Accessor}
    {warning : Option Tar.Warning}
    (opened : openUsing config volume path .append = ⟨.ok accessor, after, warning⟩) :
    ∃ archive, Zip.Archive.openExisting .append (volume.bytes number) = .ok archive ∧
      accessor = ofArchive path .append config.compression (.zip number archive) ∧
      after = volume := by
  have stands : volume.exists? path = true := by rw [Volume.exists?, found]; rfl
  have mode : Archive.effectiveMode volume path .append = .append :=
    if_neg fun missing => missing.2 stands
  obtain ⟨archive, opened_as, rfl⟩ := exists_archive_of_openUsing opened
  rw [kind, mode, Archive.openAs, Archive.openZip, mode] at opened_as
  rw [mode]
  dsimp only at opened_as
  split at opened_as
  · simp at opened_as
  · simp at opened_as
  · obtain ⟨loaded, rfl, -⟩ := Opening.mk.inj opened_as
    rw [Archive.loadZip, found] at loaded
    dsimp only at loaded
    split at loaded
    · contradiction
    · next inner found_inner => exact ⟨inner, found_inner, by rw [Except.ok.inj loaded], rfl⟩

/-- An accessor enumerates names, whichever way it is asked: it lists them, counts them, gives each
by its index, and answers every question as the register of these names does. -/
structure Enumerates (accessor : Accessor) (names : List String) : Prop where
  /-- It lists them. -/
  paths : accessor.paths = .ok names
  /-- It counts them. -/
  size : accessor.size = .ok names.length
  /-- Its archive gives each by its index. -/
  pathAt : ∀ archive, accessor.archive = some archive → ∀ index,
    archive.pathAt index = pickPath names index
  /-- Its register is that of these names. -/
  query : ∀ {α : Type} (question : Register → α),
    accessor.query question = .ok (question (.ofPaths names))

/-- An accessor of an open zip file enumerates the names that its archive lists. -/
theorem enumerates_zip {accessor : Accessor} {archive : Zip.Archive}
    (current : accessor.archive = some (.zip number archive)) (isOpen : archive.closed = false)
    (register : accessor.register = .ofPaths archive.catalog.names) :
    accessor.Enumerates archive.catalog.names := by
  have requires : (Archive.zip number archive).requireOpen = .ok () := by
    rw [Archive.requireOpen, Zip.Archive.requireOpen, isOpen]
    rfl
  have now : accessor.current = .ok (.zip number archive) := by rw [Accessor.current, current]
  refine ⟨?_, ?_, fun other same index => ?_, fun question => ?_⟩
  · rw [paths, now]
    dsimp only
    rw [Archive.paths, requires]
    rfl
  · rw [size, now]
    dsimp only
    rw [Archive.size, requires]
    rfl
  · obtain rfl := Option.some.inj (current.symm.trans same)
    rw [Archive.pathAt, requires]
    rfl
  · rw [query, now, register]

/-- An accessor of a zip file reads what its archive reads. -/
theorem read_zip {accessor : Accessor} {archive : Zip.Archive}
    (current : accessor.archive = some (.zip number archive)) (path : String) :
    (accessor.read volume path).1 = archive.read (volume.bytes number) path := by
  rw [read_of_some current]
  rfl

/-- An accessor reads a shelf of a zip file: under each path what is on the shelf, and otherwise
nothing. -/
def ReadsShelf (accessor : Accessor) (volume : Volume)
    (shelf : List (String × Except ArchiveError (List UInt8))) : Prop :=
  ∀ path, (accessor.read volume path).1 = (shelf.lookup path).getD (.ok [])

namespace ReadsShelf

variable {accessor : Accessor} {shelf : List (String × Except ArchiveError (List UInt8))}

/-- What is not on the shelf is read as empty. -/
theorem of_not_mem (reads : accessor.ReadsShelf volume shelf) {path : String}
    (absent : path ∉ shelf.map (·.1)) : (accessor.read volume path).1 = .ok [] := by
  have unlisted : shelf.lookup path = none := List.lookup_eq_none_iff.mpr fun item member =>
    bne_iff_ne.mpr fun same => absent (same ▸ List.mem_map_of_mem member)
  rw [reads path, unlisted, Option.getD_none]

/-- What is on the shelf is read, where each name is there once. -/
theorem of_mem (reads : accessor.ReadsShelf volume shelf) (distinct : (shelf.map (·.1)).Nodup)
    {item : String × Except ArchiveError (List UInt8)} (member : item ∈ shelf) :
    (accessor.read volume item.1).1 = item.2 := by
  rw [reads item.1, lookup_of_mem distinct member, Option.getD_some]

end ReadsShelf

/-- An accessor that was opened to read a zip file reads the shelf of its archive. -/
theorem readsShelf_ofArchive {archive : Zip.Archive} (mode : archive.mode = .read)
    (isOpen : archive.closed = false) :
    (ofArchive path .read config.compression (.zip number archive)).ReadsShelf volume
      (archive.shelf (volume.bytes number)) := by
  intro path
  rw [read_zip rfl, Zip.Archive.read_eq isOpen (by rw [mode]; decide)]

/-- A zip file that can be opened to append is read as its archive then is. -/
theorem exists_reader_of_openExisting (kind : config.kind.getD (.ofPath path) = .zip)
    (found : volume.find path = .ok (place, .file number)) {archive : Zip.Archive}
    (opened : Zip.Archive.openExisting .append (volume.bytes number) = .ok archive)
    (isOpen : archive.closed = false) :
    ∃ reader, openUsing config volume path .read = ⟨.ok reader, volume, none⟩ ∧
      reader.Enumerates archive.catalog.names ∧
      reader.ReadsShelf volume (archive.shelf (volume.bytes number)) := by
  let still : Zip.Archive := { archive with mode := .read, session := none }
  exact ⟨ofArchive path .read config.compression (.zip number still),
    openUsing_read_zip kind found (Zip.Archive.openExisting_read opened),
    @enumerates_zip _ _ still rfl isOpen rfl, @readsShelf_ofArchive _ _ _ _ still rfl isOpen⟩

/-! ## A run of calls -/

/-- What a request writes to a zip file. -/
def additionOf (request : Archive.Request) : Zip.Addition :=
  ⟨request.path, request.contents, request.compression⟩

/-- An accessor under way appends to what its archive held at first. -/
structure Account.Appends (libraries : Libraries) (first : Zip.Archive) (start : Volume)
    (number : Nat) (base : List UInt8) (account : Account) (archive : Zip.Archive)
    (file : List UInt8) : Prop where
  /-- It has its archive. -/
  current : account.accessor.archive = some (.zip number archive)
  /-- Nothing but the file has changed. -/
  volume : account.volume = start.setContent number (.bytes file)
  /-- The archive appends what was written. -/
  appends : first.Appends libraries.deflater base (account.scope.all.map additionOf) archive file
  /-- The register is that of the names that the archive lists. -/
  register : account.accessor.register = .ofPaths archive.catalog.names

namespace Account.Appends

variable {libraries : Libraries} {first archive : Zip.Archive} {start : Volume}
  {base file : List UInt8} {account : Account}

/-- The file of the archive has its bytes. -/
theorem content (appends : account.Appends libraries first start number base archive file)
    (inside : number < start.files.length) : account.volume.content number = .bytes file := by
  rw [appends.volume]
  exact Volume.content_setContent inside _

/-- An accessor that was opened to append has written nothing. -/
theorem opened (content : start.content number = .bytes file)
    (found : Zip.Archive.openExisting .append file = .ok first) (lasting : first.Lasting file) :
    Account.Appends libraries first start number file
      ⟨ofArchive path .append config.compression (.zip number first), start, .start⟩
      first file := by
  refine ⟨rfl, ?_, Zip.Archive.Appends.start found lasting, rfl⟩
  rw [← content, Volume.setContent_content]

/-- It reads what was there at first. -/
theorem readsShelf (appends : account.Appends libraries first start number base archive file)
    (inside : number < start.files.length) :
    account.accessor.ReadsShelf account.volume (first.shelf base) := by
  intro path
  rw [read_zip appends.current, Volume.bytes_of_content (appends.content inside)]
  exact appends.appends.read path

/-- What writes nothing keeps the account. -/
theorem of_same (appends : account.Appends libraries first start number base archive file)
    {after : Account} (current : after.accessor.archive = account.accessor.archive)
    (volume : after.volume = account.volume)
    (register : after.accessor.register = account.accessor.register)
    (same : after.scope.all = account.scope.all) :
    after.Appends libraries first start number base archive file :=
  ⟨current.trans appends.current, volume.trans appends.volume, same ▸ appends.appends,
    register.trans appends.register⟩

/-- A write under a path that is listed is refused, and changes nothing. -/
theorem put_of_mem (appends : account.Appends libraries first start number base archive file)
    (inside : number < start.files.length) {draft : Draft}
    (listed : draft.path ∈ archive.catalog.names) (immediate : Bool) :
    account.accessor.put account.volume draft immediate libraries =
      (.error (.zip (.duplicate draft.path)), account.accessor, account.volume) := by
  have bytes := Volume.bytes_of_content (appends.content inside)
  have unchanged : account.volume.setBytes number file = account.volume := by
    rw [← bytes, Volume.setBytes_bytes]
  rw [put_of_some appends.current, Archive.write]
  dsimp only
  rw [bytes, appends.appends.write_of_mem listed]
  dsimp only
  rw [unchanged, ← appends.current]

/-- A write under a new path succeeds. -/
theorem put_of_not_mem (appends : account.Appends libraries first start number base archive file)
    (inside : number < start.files.length) {draft : Draft}
    (new : draft.path ∉ archive.catalog.names) (immediate : Bool) :
    let put := account.accessor.put account.volume draft immediate libraries
    let request := account.accessor.request draft immediate
    put.1 = .ok () ∧ ∃ after left, Account.Appends libraries first start number base
      ⟨put.2.1, put.2.2, account.scope.write request⟩ after left := by
  intro put request
  have bytes := Volume.bytes_of_content (appends.content inside)
  obtain ⟨after, left, written, goes_on⟩ :=
    appends.appends.write_of_not_mem (additionOf request) new
  dsimp only [additionOf, request, Accessor.request] at written
  have put_eq : put = (.ok (),
      { account.accessor with
        archive := some (.zip number after)
        register := account.accessor.register.enterPath draft.path },
      account.volume.setBytes number left) := by
    dsimp only [put]
    rw [put_of_some appends.current, Archive.write]
    dsimp only
    rw [bytes, written]
  rw [put_eq]
  refine ⟨rfl, after, left, rfl, ?_, ?_, ?_⟩
  · dsimp only
    rw [Volume.setBytes_of_content (appends.content inside), appends.volume,
      Volume.setContent_setContent]
  · dsimp only
    rw [Scope.all_write, List.map_append]
    exact goes_on
  · have names : after.catalog.names = archive.catalog.names ++ [draft.path] := by
      rw [goes_on.names, appends.appends.names, List.map_append, List.append_assoc]
      rfl
    dsimp only
    rw [appends.register, Register.enterPath_ofPaths _ rfl, Archive.listed, if_neg new, names]

/-- A write keeps the account, whether it succeeds or is refused. -/
theorem put (appends : account.Appends libraries first start number base archive file)
    (inside : number < start.files.length) (draft : Draft) (immediate : Bool) :
    let put := account.accessor.put account.volume draft immediate libraries
    let request := account.accessor.request draft immediate
    ∃ after left, Account.Appends libraries first start number base
      ⟨put.2.1, put.2.2, account.scope.record (.write request) (.done put.1)⟩ after left := by
  intro put request
  by_cases listed : draft.path ∈ archive.catalog.names
  · have refused : put = _ := appends.put_of_mem inside listed immediate
    rw [refused]
    exact ⟨archive, file, appends⟩
  · obtain ⟨done, after, left, goes_on⟩ := appends.put_of_not_mem inside listed immediate
    have done : put.1 = .ok () := done
    rw [done]
    exact ⟨after, left, goes_on⟩

/-- A call keeps the account, unless it closes the accessor. -/
theorem call (appends : account.Appends libraries first start number base archive file)
    (inside : number < start.files.length) {call : Call} (stays : call ≠ .close) :
    ∃ after left,
      (account.call libraries call).Appends libraries first start number base after left := by
  cases call with
  | write draft => exact appends.put inside draft true
  | writeInBatch draft => exact appends.put inside draft false
  | read path =>
    rw [Account.call, perform, read_of_some appends.current]
    exact ⟨archive, file, appends.of_same appends.current.symm rfl rfl rfl⟩
  | startBatch =>
    rw [Account.call, perform, startBatch_eq, beginBatch_of_some appends.current]
    exact ⟨archive, file, appends.of_same appends.current.symm rfl rfl
      (@Scope.all_record account.scope .beginBatch (by simp) _)⟩
  | finishBatch =>
    rw [Account.call, perform, Batch.finish, endBatch_of_some appends.current]
    exact ⟨archive, file, appends.of_same appends.current.symm rfl rfl
      (@Scope.all_record account.scope .endBatch (by simp) _)⟩
  | close => exact absurd rfl stays

/-- So do several calls. -/
theorem run (appends : account.Appends libraries first start number base archive file)
    (inside : number < start.files.length) {calls : List Call} (stay : Call.close ∉ calls) :
    ∃ after left,
      (account.run libraries calls).Appends libraries first start number base after left := by
  induction calls generalizing account archive file with
  | nil => exact ⟨archive, file, appends⟩
  | cons call later ih =>
    rw [List.mem_cons, not_or] at stay
    obtain ⟨after, left, goes_on⟩ := appends.call inside (Ne.symm stay.1)
    exact ih goes_on stay.2

/-- Its archive lists the old names and those written. -/
theorem names (appends : account.Appends libraries first start number base archive file) :
    archive.catalog.names =
      (first.shelf base).map (·.1) ++ account.scope.all.map (·.path) := by
  rw [appends.appends.names, List.map_map]
  rfl

/-- It enumerates them. -/
theorem enumerates (appends : account.Appends libraries first start number base archive file) :
    account.accessor.Enumerates
      ((first.shelf base).map (·.1) ++ account.scope.all.map (·.path)) :=
  appends.names ▸ enumerates_zip appends.current appends.appends.isOpen appends.register

end Account.Appends

/-- Whatever the zip file of an accessor is completed to is legible. -/
def Account.Legible (account : Account) (number : Nat) : Prop :=
  ∀ archive session front, account.accessor.archive = some (.zip number archive) →
    archive.session = some session →
    session.complete (account.volume.bytes number) =
      Zip.completed front session.entries session.remark →
    Zip.Legible front session.entries session.remark

/-- Closing an accessor that appends leaves a file that is opened to the old entries and those
written. -/
theorem Account.Appends.reopen {libraries : Libraries} {first archive : Zip.Archive}
    {base file : List UInt8} {account : Account}
    (appends : account.Appends libraries first volume number base archive file)
    (inside : number < volume.files.length) (kind : config.kind.getD (.ofPath path) = .zip)
    (found : volume.find path = .ok (place, .file number)) (legible : account.Legible number)
    (fits : ∀ request ∈ account.scope.all, (additionOf request).Fits libraries.deflater) :
    let close := account.accessor.close account.volume
    let closed := close.2.2
    let written := account.scope.all.map additionOf
    close.1 = .ok () ∧ ∃ again,
      openUsing config closed path .read = ⟨.ok again, closed, none⟩ ∧
      again.Enumerates archive.catalog.names ∧
      again.ReadsShelf closed (first.shelf base ++ Zip.shelfOf written) := by
  have bytes := Volume.bytes_of_content (appends.content inside)
  have closing : account.accessor.close account.volume =
      (.ok (), { account.accessor with archive := none },
        volume.setContent number (.bytes (archive.close file).2)) := by
    rw [Accessor.close, appends.current]
    dsimp only [Archive.close]
    rw [bytes, Volume.setBytes_of_content (appends.content inside), appends.volume,
      Volume.setContent_setContent]
  rw [closing]
  refine ⟨rfl, ?_⟩
  have left : (volume.setContent number (.bytes (archive.close file).2)).bytes number =
      (archive.close file).2 := Volume.bytes_of_content (Volume.content_setContent inside _)
  obtain ⟨reader, opened, mode, isOpen, names, shelf⟩ := appends.appends.reopen
    (fun session front current complete =>
      legible archive session front appends.current current (by rw [bytes]; exact complete))
    (List.forall_mem_map.mpr fits)
  rw [← left] at opened shelf
  refine ⟨ofArchive path .read config.compression (.zip number reader),
    openUsing_read_zip kind (Volume.find_setContent found _) opened, ?_, ?_⟩
  · rw [← names]
    exact enumerates_zip rfl isOpen rfl
  · rw [← shelf]
    exact readsShelf_ofArchive mode isOpen

/-- An accessor that appends to a zip file reads, at any time, what could be read of the file when
it was opened, and nothing else; it enumerates what the file held and what was written since; it
refuses to write what it enumerates, which changes nothing; and once it is closed, the file is
opened to the old entries with their contents and the new ones with theirs, as they are or deflated
by whatever is inflated again. This takes entries that last when others are put behind them, and,
for the last part, numbers that fit and a completed file that is legible. -/
theorem append_reads_snapshot (libraries : Libraries) {file : List UInt8} {after : Volume}
    {accessor : Accessor} {warning : Option Tar.Warning}
    (kind : config.kind.getD (.ofPath path) = .zip)
    (found : volume.find path = .ok (place, .file number))
    (content : volume.content number = .bytes file)
    (opened : openUsing config volume path .append = ⟨.ok accessor, after, warning⟩)
    (lasting : ∀ archive, Zip.Archive.openExisting .append file = .ok archive →
      archive.Lasting file)
    {calls : List Call} (stay : Call.close ∉ calls) :
    ∃ reader old, openUsing config volume path .read = ⟨.ok reader, volume, none⟩ ∧
      reader.Enumerates old ∧
      let account := (Account.mk accessor after .start).run libraries calls
      let written := account.scope.all
      let names := old ++ written.map (·.path)
      (∀ path, (account.accessor.read account.volume path).1 = (reader.read volume path).1) ∧
      (∀ path ∉ old, (account.accessor.read account.volume path).1 = .ok []) ∧
      account.accessor.Enumerates names ∧
      (∀ draft immediate, draft.path ∈ names →
        account.accessor.put account.volume draft immediate libraries =
          (.error (.zip (.duplicate draft.path)), account.accessor, account.volume)) ∧
      (∀ draft immediate, draft.path ∉ names →
        (account.accessor.put account.volume draft immediate libraries).1 = .ok ()) ∧
      (account.Legible number →
        (∀ request ∈ written, (additionOf request).Fits libraries.deflater) →
        let close := account.accessor.close account.volume
        let closed := close.2.2
        close.1 = .ok () ∧
        ∃ again, openUsing config closed path .read = ⟨.ok again, closed, none⟩ ∧
          again.Enumerates names ∧
          (∀ path ∈ old, (again.read closed path).1 = (reader.read volume path).1) ∧
          ∀ request ∈ written, (again.read closed request.path).1 = .ok request.contents) := by
  obtain ⟨first, opened_first, rfl, rfl⟩ := archive_of_openUsing_append kind found opened
  have bytes : after.bytes number = file := Volume.bytes_of_content content
  have inside : number < after.files.length := by
    refine Nat.lt_of_not_le fun behind => ?_
    rw [Volume.content_of_le behind] at content
    exact Zip.ne_nil_of_openExisting opened_first (bytes.trans (Content.bytes.inj content).symm)
  have starts := @Account.Appends.opened config path number libraries _ _ _ content
    (bytes ▸ opened_first) (lasting first (bytes ▸ opened_first))
  obtain ⟨reader, reader_opened, reader_enumerates, reader_reads⟩ :=
    exists_reader_of_openExisting kind found opened_first starts.appends.isOpen
  rw [bytes] at reader_reads
  let old := (first.shelf file).map (·.1)
  have listed : first.catalog.names = old := starts.appends.names.trans (List.append_nil _)
  refine ⟨reader, old, reader_opened, listed ▸ reader_enumerates, ?_⟩
  intro account written names
  -- All that is said of the accessor now follows from the invariant that every call keeps.
  obtain ⟨archive, now, appends⟩ := starts.run inside stay
  have enumerated : archive.catalog.names = names := appends.names
  have reads := appends.readsShelf inside
  refine ⟨fun path => (reads path).trans (reader_reads path).symm, fun path => reads.of_not_mem,
    appends.enumerates, fun draft immediate member => ?_, fun draft immediate new => ?_,
    fun legible fits => ?_⟩
  · exact appends.put_of_mem inside (enumerated ▸ member) immediate
  · exact (appends.put_of_not_mem inside (enumerated ▸ new) immediate).1
  · intro close closed
    obtain ⟨done, again, again_opened, again_enumerates, again_reads⟩ :=
      appends.reopen inside kind found legible fits
    have distinct :
        ((first.shelf file ++ Zip.shelfOf (written.map additionOf)).map (·.1)).Nodup := by
      rw [List.map_append, Zip.names_shelfOf, ← appends.appends.names]
      exact appends.appends.inStep.nodup
    refine ⟨done, again, again_opened, enumerated ▸ again_enumerates, fun path member => ?_,
      fun request member => ?_⟩
    · obtain ⟨item, stored, rfl⟩ := List.mem_map.mp member
      have old_distinct : old.Nodup := (List.nodup_append.mp (List.map_append ▸ distinct)).1
      rw [again_reads.of_mem distinct (List.mem_append_left _ stored),
        reader_reads.of_mem old_distinct stored]
    · have on_shelf : (request.path, .ok request.contents) ∈ Zip.shelfOf (written.map additionOf) :=
        List.mem_map_of_mem (List.mem_map_of_mem member)
      exact again_reads.of_mem distinct (List.mem_append_right _ on_shelf)

/-- An accessor that writes `b` deflated and `c` as it is next to an `a` that was there reads only
`a` while it is open, refuses to write `a`, and leaves a file with all three. -/
theorem append_reads_snapshot_two :
    let session : Zip.Session := ⟨[], 0, .none⟩
    let first := session.add .literal [] "a" [1] (.ofCompression .none)
    let volume : Volume := ⟨[(["t.zip"], .file 0)], [.bytes (first.1.complete first.2)], [], 0⟩
    let calls : List Call := [.write ⟨"b", [2], some .slow⟩, .read "b",
      .write ⟨"a", [3], some .none⟩, .write ⟨"c", [], some .none⟩]
    ∃ accessor, openUsing .standard volume "t.zip" .append = ⟨.ok accessor, volume, none⟩ ∧
      let account := (Account.mk accessor volume .start).run .literal calls
      let closed := (account.accessor.close account.volume).2.2
      account.scope.all = [⟨"b", [2], .slow, true⟩, ⟨"c", [], .none, true⟩] ∧
      (account.accessor.read account.volume "a").1 = .ok [1] ∧
      (account.accessor.read account.volume "b").1 = .ok [] ∧
      account.accessor.paths = .ok ["a", "b", "c"] ∧
      ∃ again, openUsing .standard closed "t.zip" .read = ⟨.ok again, closed, none⟩ ∧
        again.paths = .ok ["a", "b", "c"] ∧ (again.read closed "a").1 = .ok [1] ∧
        (again.read closed "b").1 = .ok [2] ∧ (again.read closed "c").1 = .ok [] := by
  intro session added volume calls
  let file := added.1.complete added.2
  let written_first := Zip.Entry.ofContents "a" (.ofCompression .none) [1] [1] 0
  let entry : Zip.Entry := { written_first with extra := [] }
  let archive : Zip.Archive :=
    ⟨.append, [⟨entry, 51⟩], some ⟨[entry], 119, .none⟩, .ofList [("a", ())], false⟩
  let accessor := ofArchive "t.zip" .append Config.standard.compression (.zip 0 archive)
  have opens : Zip.Archive.openExisting .append file = .ok archive := by decide +kernel
  have kind : Config.standard.kind.getD (.ofPath "t.zip") = .zip := by decide +kernel
  have found : volume.find "t.zip" = .ok (["t.zip"], .file 0) := by decide +kernel
  have content : volume.content 0 = .bytes file := rfl
  have opened : openUsing .standard volume "t.zip" .append = ⟨.ok accessor, volume, none⟩ := by
    have mode : Archive.effectiveMode volume "t.zip" .append = .append := by decide +kernel
    have wide : Archive.isWide volume "t.zip" = .ok true := by decide +kernel
    have loaded : Archive.loadZip volume "t.zip" .append = .ok (.zip 0 archive) := by decide +kernel
    rw [openUsing, mode, kind, Archive.openAs, Archive.openZip, mode]
    dsimp only
    rw [wide, loaded]
    rfl
  have lasting : ∀ other, Zip.Archive.openExisting .append file = .ok other →
      other.Lasting file := by
    intro other opens_other session current held member
    obtain rfl : archive = other := Except.ok.inj (opens.symm.trans opens_other)
    obtain rfl := Option.some.inj current
    obtain rfl := List.mem_singleton.mp member
    exact ⟨by decide +kernel, entry, by decide +kernel, rfl⟩
  let account := (Account.mk accessor volume .start).run .literal calls
  let second := Zip.Entry.ofContents "b" (.ofCompression .slow) [2] (Deflate.store [2]) 119
  let third := Zip.Entry.ofContents "c" (.ofCompression .none) [] [] 181
  let last : Zip.Archive :=
    ⟨.append, [⟨entry, 51⟩], some ⟨[entry, second, third], 232, .none⟩,
      .ofList [("a", ()), ("b", ()), ("c", ())], false⟩
  have current : account.accessor.archive = some (.zip 0 last) := by decide +kernel
  have written : account.scope.all = [⟨"b", [2], .slow, true⟩, ⟨"c", [], .none, true⟩] := by
    decide +kernel
  have paths : account.accessor.paths = .ok ["a", "b", "c"] := by decide +kernel
  have read : (account.accessor.read account.volume "a").1 = .ok [1] := by decide +kernel
  have fits : ∀ request ∈ account.scope.all, (additionOf request).Fits .literal := by
    rw [written, List.forall_mem_cons, List.forall_mem_singleton]
    constructor
    · exact ⟨by decide +kernel, by decide +kernel, fun large => absurd large (by decide +kernel)⟩
    · exact ⟨by decide +kernel, by decide +kernel, fun large => absurd large (by decide +kernel)⟩
  have legible : account.Legible 0 := by
    intro other session front other_current of_other complete
    obtain rfl : last = other :=
      (Archive.zip.inj (Option.some.inj (current.symm.trans other_current))).2
    obtain rfl := Option.some.inj of_other
    exact Zip.legible_of_small rfl (by decide) (by rw [← complete]; decide +kernel)
  obtain ⟨reader, old, -, -, reads, missing, enumerates, -, -, closes⟩ :=
    append_reads_snapshot .literal kind found content opened lasting
      (by decide : Call.close ∉ calls)
  have all : old ++ account.scope.all.map (·.path) = ["a"] ++ ["b", "c"] :=
    Except.ok.inj (enumerates.paths.symm.trans paths)
  obtain rfl : old = ["a"] := List.append_cancel_right (written ▸ all)
  obtain ⟨-, again, reopened, enumerates_again, reads_old, reads_new⟩ := closes legible fits
  refine ⟨accessor, opened, written, read, missing "b" (by decide), paths, again, reopened, ?_, ?_,
    ?_, ?_⟩
  · exact enumerates_again.paths.trans (congrArg Except.ok all)
  · rw [reads_old "a" (by decide), ← reads]
    exact read
  · exact reads_new ⟨"b", [2], .slow, true⟩ (by decide +kernel)
  · exact reads_new ⟨"c", [], .none, true⟩ (by decide +kernel)

end Accessor

end Trajectory
