import Trajectory.Access
import Trajectory.Archive.Kind
import Trajectory.Compression
import Trajectory.Element
import Trajectory.Lz4
import Trajectory.Tar.Error
/-!
# Faults of archives

Every operation on an archive fails with one of these causes, each with the text that reports it.
-/
namespace Trajectory

/-- An operation that the mode of an archive excludes. -/
inductive ModeFault where
  /-- A write, while open for reading. -/
  | readOnly
  /-- A read, while open for writing. -/
  | writeOnly (kind : ArchiveKind)
  /-- An append to a zip file with entries of the old form. -/
  | notZip64 (file : String)
  deriving DecidableEq, Repr

/-- Stored contents of a database that cannot be put together. -/
inductive ContentsFault where
  /-- A piece does not decode. -/
  | block (error : Lz4.Error)
  /-- The pieces are longer than the recorded size. -/
  | overrun
  /-- The level of compression is unknown. -/
  | unknownLevel (level : Int)
  /-- The recorded size is negative. -/
  | negativeSize (size : Int)
  /-- The pieces are shorter than the recorded size. -/
  | missing (size found : Nat)
  deriving DecidableEq, Repr

/-- A zip file whose end or directory is damaged. -/
inductive ZipDamage where
  /-- There is no end record. -/
  | noEndRecord
  /-- The end record is cut off. -/
  | shortEndRecord
  /-- The directory lies outside the file. -/
  | outOfBounds
  /-- An entry of the directory is cut off. -/
  | shortEntry
  deriving DecidableEq, Repr

/-- A damaged archive. -/
inductive Corruption where
  /-- A header of a tar file. -/
  | header (fault : Tar.HeaderFault)
  /-- The contents at a path of a database. -/
  | contents (path : String) (fault : ContentsFault)
  /-- A zip file. -/
  | zip (file : String) (damage : ZipDamage)
  deriving DecidableEq, Repr

/-- A path that an archive does not take. -/
inductive PathFault where
  /-- The path would not stay below the directory. -/
  | refused (path : String)
  /-- The archive should be a directory. -/
  | notDirectory (file : String)
  /-- The entry has no header. -/
  | header (limit : Tar.HeaderLimit)
  deriving DecidableEq, Repr

/-- A fault of a database. -/
inductive SqliteError where
  /-- The file cannot be opened. -/
  | cannotOpen (file : String)
  /-- The journal cannot be made. -/
  | noJournal
  /-- A path that holds a NUL at a position. -/
  | nulInPath (position : Nat)
  /-- The name asks for a mode of a kind that there is not. -/
  | noSuchMode (kind mode : String)
  /-- The name asks for more access than there is. -/
  | modeNotAllowed (mode : String)
  /-- The name asks for a way to files that there is not. -/
  | noSuchVfs (name : String)
  /-- The name is on another machine. -/
  | invalidAuthority (name : String)
  /-- The file is something else. -/
  | notDatabase
  /-- The file is a database in part only. -/
  | malformed
  /-- A table is missing. -/
  | noTable (name : String)
  /-- The file may not be changed, or is no longer where it was. -/
  | readOnly
  /-- Another connection is changing the file. -/
  | locked
  /-- The file cannot be read, or a change not completed. -/
  | diskError
  /-- There is nothing to commit. -/
  | noTransaction
  /-- A row is longer than the database takes. -/
  | tooBig
  deriving DecidableEq, Repr

/-- A fault of a zip file. -/
inductive ZipError where
  /-- There is no end record. -/
  | noEndRecord
  /-- The end record puts the directory behind itself. -/
  | directoryBehindEnd
  /-- There is no directory where the end record puts it, nor later. -/
  | noDirectory
  /-- The comment of the end record goes past the end of the file. -/
  | commentOutside
  /-- The locator puts the end record of the new form behind itself. -/
  | wideEndBehindLocator
  /-- The file is one of several. -/
  | severalDisks
  /-- There is no end record of the new form where the locator puts it, nor later. -/
  | noWideEnd
  /-- The end record of the new form is too short. -/
  | wideEndShort
  /-- The end record of the new form goes past the locator. -/
  | wideEndLong
  /-- The end record of the new form and the locator name different parts of the file. -/
  | wideEndDisk
  /-- The end record of the new form does not end at the locator. -/
  | wideEndLength
  /-- The end record of the new form counts more entries than there is room for. -/
  | wideEndCount
  /-- A path is stored already. -/
  | duplicate (path : String)
  /-- The header of an entry is missing. -/
  | noLocalHeader
  /-- An entry is compressed in an unknown way. -/
  | unsupportedMethod
  /-- An entry is encrypted. -/
  | passwordRequired
  /-- An entry is strongly encrypted. -/
  | wrongPassword
  /-- The file cannot be read. -/
  | unreadable
  deriving DecidableEq, Repr

/-- Why an operation on an archive fails. -/
inductive ArchiveError where
  /-- The mode excludes it. -/
  | invalidMode (fault : ModeFault)
  /-- The archive is closed. -/
  | closed
  /-- The archive is damaged. -/
  | corrupt (corruption : Corruption)
  /-- A file or stream failed. -/
  | io (fault : IoError)
  /-- The database failed. -/
  | sqlite (error : SqliteError)
  /-- The zip file failed. -/
  | zip (error : ZipError)
  /-- The path is not taken. -/
  | invalidPath (fault : PathFault)
  /-- There are fewer entries. -/
  | outOfRange (index size : Nat)
  /-- The kind of archive cannot be opened. -/
  | unsupported (kind : ArchiveKind)
  /-- The contents are not elements. -/
  | elements (error : ElementError)
  deriving DecidableEq, Repr

namespace ModeFault

/-- The text of the fault. -/
def message : ModeFault → String
  | readOnly => "can't write to an archive opened for reading"
  | writeOnly kind => s!"can't read from a {kind.name} archive opened for writing"
  | notZip64 file =>
    s!"{file} is not a zip64 archive, only zip64 archives can be appended to; " ++
      "copy it into a new archive first"

end ModeFault

namespace ContentsFault

/-- The text of the fault. -/
def message : ContentsFault → String
  | block error => error.message
  | overrun => "chunk overruns stored size"
  | unknownLevel level => s!"unknown compression level {level}"
  | negativeSize size => s!"negative size {size}"
  | missing size found => s!"expected {size} bytes, found {found}"

end ContentsFault

namespace ZipDamage

/-- The text of the damage. -/
def message : ZipDamage → String
  | noEndRecord => "no end of central directory record"
  | shortEndRecord => "short end record"
  | outOfBounds => "central directory out of bounds"
  | shortEntry => "short central directory entry"

end ZipDamage

namespace Corruption

/-- The text of the damage. -/
def message : Corruption → String
  | header fault => fault.message
  | contents path fault => s!"{path}: {fault.message}"
  | zip file damage => s!"{file}: {damage.message}"

end Corruption

namespace PathFault

/-- The text of the fault. -/
def message : PathFault → String
  | refused path => path
  | notDirectory file => s!"{file} is not a directory"
  | header limit => limit.message

end PathFault

namespace SqliteError

/-- The text of the fault. -/
def message : SqliteError → String
  | cannotOpen file => s!"unable to open database file: {file}"
  | noJournal => "unable to open database file"
  | nulInPath position => s!"nul byte found in provided data at position: {position}"
  | noSuchMode kind mode => s!"no such {kind} mode: {mode}"
  | modeNotAllowed mode => s!"access mode not allowed: {mode}"
  | noSuchVfs name => s!"no such vfs: {name}"
  | invalidAuthority name => s!"invalid uri authority: {name}"
  | notDatabase => "file is not a database"
  | malformed => "database disk image is malformed"
  | noTable name => s!"no such table: {name}"
  | readOnly => "attempt to write a readonly database"
  | locked => "database is locked"
  | diskError => "disk I/O error"
  | noTransaction => "cannot commit - no transaction is active"
  | tooBig => "string or blob too big"

end SqliteError

namespace ZipError

/-- The text of the fault. -/
def message : ZipError → String
  | noEndRecord => "invalid Zip archive: Could not find EOCD"
  | directoryBehindEnd => "invalid Zip archive: Invalid CDFH offset in EOCD"
  | noDirectory => "invalid Zip archive: No CDFH found"
  | commentOutside => "invalid Zip archive: EOCD comment exceeds file boundary"
  | wideEndBehindLocator => "invalid Zip archive: Invalid EOCD64 Locator CD offset"
  | severalDisks => "invalid Zip archive: Multi-disk ZIP files are not supported"
  | noWideEnd => "invalid Zip archive: Could not find EOCD64"
  | wideEndShort => "invalid Zip archive: Low EOCD64 record size"
  | wideEndLong => "invalid Zip archive: EOCD64 extends beyond EOCD64 locator"
  | wideEndDisk => "invalid Zip archive: Invalid EOCD64: inconsistency with Locator data"
  | wideEndLength => "invalid Zip archive: Invalid EOCD64: inconsistent length"
  | wideEndCount => "invalid Zip archive: Invalid EOCD64: inconsistent number of files"
  | duplicate path => s!"invalid Zip archive: Duplicate filename: {path}"
  | noLocalHeader => "invalid Zip archive: Invalid local file header"
  | unsupportedMethod => "unsupported Zip archive: Compression method not supported"
  | passwordRequired => "unsupported Zip archive: Password required to decrypt file"
  | wrongPassword => "provided password is incorrect"
  | unreadable => "i/o error"

end ZipError

namespace ArchiveError

/-- The text of the fault. -/
def message : ArchiveError → String
  | invalidMode fault => s!"invalid mode: {fault.message}"
  | closed => "archive is closed"
  | corrupt corruption => s!"corrupt container: {corruption.message}"
  | io fault => s!"I/O error: {fault.message}"
  | sqlite error => s!"sqlite error: {error.message}"
  | zip error => s!"zip error: {error.message}"
  | invalidPath fault => s!"invalid path: {fault.message}"
  | outOfRange index size => s!"item {index} out of range for archive of {size} items"
  | unsupported kind => s!"unsupported: {kind.title} backend is not available"
  | elements error => error.message

/-- The cause that a fault of a tar file is. -/
def ofTar : Tar.Error → ArchiveError
  | .io fault => io fault
  | .limit limit => invalidPath (.header limit)
  | .header fault => corrupt (.header fault)

end ArchiveError

/-- A name of an enumeration, by position. -/
def pickPath (names : List String) (index : Nat) : Except ArchiveError String :=
  match names[index]? with
  | some name => .ok name
  | none => .error (.outOfRange index names.length)

end Trajectory
