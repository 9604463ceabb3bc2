import Trajectory.Access
import Trajectory.Archive.Error
import Trajectory.Text.Digits
import Trajectory.Text.Pieces
import Trajectory.Text.Utf8
/-!
# Names of databases

A database is opened by a path, or by a name that starts with `file:`. Such a name goes on with a
path, after `?` has settings separated by `&`, and ends before `#`. In it `%` and two digits stand
for a byte, which never separates anything; a zero byte ends the part that it is in. A setting can
narrow the access to the file, keep the database in memory, or declare that the file never
changes. Other settings are passed over, and so is one without a name.
-/
namespace Trajectory.Sqlite

/-- What a connection may do with the file of a database. -/
inductive Grant where
  /-- Read it. -/
  | read
  /-- Change it. -/
  | change
  /-- Change it, and make it where it is missing. -/
  | create
  /-- There is no file. -/
  | memory
  deriving DecidableEq, Repr

namespace Grant

/-- The order in which one grant exceeds another. -/
def rank : Grant → Nat
  | read => 1
  | change => 2
  | create => 6
  | memory => 128

/-- The grant of a word. -/
def ofWord? (word : String) : Option Grant :=
  if word = "ro" then some read
  else if word = "rw" then some change
  else if word = "rwc" then some create
  else if word = "memory" then some memory
  else none

/-- The grant that a mode of opening starts from. -/
def ofAccess (mode : Access) : Grant := if mode.canWrite then create else read

/-- Whether a grant can be narrowed to another. A database in memory exceeds nothing. -/
def allows (grant other : Grant) : Bool := other = memory || other.rank ≤ grant.rank

end Grant

/-- A unit of the text of a name. -/
inductive NameUnit where
  /-- A character. -/
  | plain (c : Char)
  /-- A byte that was written in digits. -/
  | escaped (byte : UInt8)
  deriving DecidableEq, Repr

namespace NameUnit

/-- The bytes of a unit. -/
def bytes : NameUnit → List UInt8
  | plain c => String.utf8EncodeChar c
  | escaped byte => [byte]

/-- The text of units, up to a zero byte. -/
def text (units : List NameUnit) : String :=
  String.ofList (Utf8.decodeLossy ((units.takeWhile (· ≠ escaped 0)).flatMap bytes))

/-- The units of a text. -/
def ofText : List Char → List NameUnit
  | [] => []
  | [c] => [plain c]
  | [c, d] => [plain c, plain d]
  | c :: high :: low :: rest =>
    match Text.digit? 16 high, Text.digit? 16 low with
    | some tens, some ones =>
      if c = '%' then escaped (UInt8.ofNat (16 * tens + ones)) :: ofText rest
      else plain c :: ofText (high :: low :: rest)
    | _, _ => plain c :: ofText (high :: low :: rest)

end NameUnit

/-- A database, as its name tells. -/
structure Name where
  /-- Path of its file. -/
  path : String
  /-- What may be done with the file. -/
  grant : Grant
  /-- Whether the file is declared never to change. -/
  frozen : Bool
  deriving DecidableEq, Repr

namespace Name

/-- A setting of a name, and its value. -/
def setting (units : List NameUnit) : String × String :=
  let (name, value) := Text.cut (.plain '=') units
  (NameUnit.text name, NameUnit.text (Text.join (.plain '=') value))

/-- Whether a value is a number other than zero, or says yes. A number wraps at 256, and one that
is out of range counts as zero. -/
def isTrue (value : String) : Bool :=
  let digits := value.toList.takeWhile Char.isDigit
  if digits.isEmpty then value.toLower ∈ ["on", "yes", "true"]
  else
    let number := ((Text.number? 10 digits).getD 0)
    number < 0x80000000 && number % 256 ≠ 0

/-- Narrow a grant by a setting. -/
def narrow (grant : Grant) (name value : String) : Except SqliteError Grant :=
  if name = "cache" then
    if value = "shared" ∨ value = "private" then .ok grant
    else .error (.noSuchMode "cache" value)
  else if name = "mode" then
    match Grant.ofWord? value with
    | none => .error (.noSuchMode "access" value)
    | some other => if grant.allows other then .ok other else .error (.modeNotAllowed value)
  else .ok grant

/-- Narrow a grant by several settings. -/
def narrowAll (grant : Grant) : List (String × String) → Except SqliteError Grant
  | [] => .ok grant
  | (name, value) :: later =>
    match narrow grant name value with
    | .ok narrowed => narrowAll narrowed later
    | .error error => .error error

/-- The ways to files that there are. -/
def systems : List String := ["unix", "unix-none", "unix-dotfile", "unix-excl"]

/-- The way to memory in place of files. -/
def memorySystem : String := "memdb"

/-- The name that units make, after the part that names a machine. -/
def ofUnits (grant : Grant) (units : List NameUnit) : Except SqliteError Name :=
  let (path, query) := Text.cut (.plain '?') (units.takeWhile (· ≠ .plain '#'))
  let query := Text.join (.plain '?') query
  let settings := ((Text.pieces (.plain '&') query).map setting).filter (·.1 ≠ "")
  match narrowAll grant settings with
  | .error error => .error error
  | .ok narrowed =>
    let frozen := ((settings.lookup "immutable").map isTrue).getD false
    match settings.reverse.lookup "vfs" with
    | none => .ok ⟨NameUnit.text path, narrowed, frozen⟩
    | some system =>
      if system ∈ systems then .ok ⟨NameUnit.text path, narrowed, frozen⟩
      else if system = memorySystem then
        .ok ⟨"", if frozen then .read else narrowed, frozen⟩
      else .error (.noSuchVfs system)

/-- The database of a name. -/
def ofText (mode : Access) (text : String) : Except SqliteError Name :=
  let grant := Grant.ofAccess mode
  match text.toList with
  | 'f' :: 'i' :: 'l' :: 'e' :: ':' :: '/' :: '/' :: rest =>
    let machine := String.ofList (rest.takeWhile (· ≠ '/'))
    if machine = "" ∨ machine = "localhost" then
      ofUnits grant (NameUnit.ofText (rest.dropWhile (· ≠ '/')))
    else .error (.invalidAuthority machine)
  | 'f' :: 'i' :: 'l' :: 'e' :: ':' :: rest => ofUnits grant (NameUnit.ofText rest)
  | _ => .ok ⟨text, grant, false⟩

/-- The path of a database that is kept in memory. -/
def memoryPath : String := ":memory:"

/-- Whether the database has no file. -/
def isApart (name : Name) : Bool :=
  name.grant = .memory || name.path = "" || name.path = memoryPath

end Name

end Trajectory.Sqlite
