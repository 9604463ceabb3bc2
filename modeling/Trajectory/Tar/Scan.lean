import Trajectory.Source
import Trajectory.Tar.Layout
/-!
# Scanning a tar archive

A scan walks from header to header, from offset zero on. It ends cleanly at a block of zeros or
at the end of the source; with a warning at a part of a block, or past the first entry at a block
without the format's mark; and with an error at a damaged header or when the source fails.
Where a scan has ended, it stays.
-/
namespace Trajectory.Tar

/-- An entry found, and where its contents are. -/
structure Entry where
  /-- Path of the entry. -/
  path : String
  /-- Offset of the contents. -/
  offset : Nat
  /-- Bytes of the contents. -/
  size : Nat
  deriving DecidableEq, Repr

/-- What a scan tolerates at the end of an archive, and reports. -/
inductive Warning where
  /-- The archive ends inside a block. -/
  | truncated (offset length : Nat)
  /-- Something other than a header follows the entries. -/
  | foreign (offset : Nat)
  deriving DecidableEq, Repr

/-- The text of a warning. -/
def Warning.message : Warning → String
  | truncated offset length => s!"truncated tar header at offset {offset} ({length} bytes)"
  | foreign offset => s!"tar magic mismatch at offset {offset}, ignoring the rest"

/-- What one step of a scan finds. -/
inductive Finding where
  /-- An entry. -/
  | entry (found : Entry)
  /-- The end, perhaps with something to report. -/
  | finished (warning : Option Warning)
  /-- A fault, which ends the scan too. -/
  | failed (error : Error)
  deriving DecidableEq, Repr

/-- A scan under way. -/
structure Scanner where
  /-- The archive. -/
  source : Source
  /-- End of the last entry found, where the next header is. -/
  offset : Nat
  /-- Whether the scan has ended. -/
  done : Bool
  deriving DecidableEq, Repr

namespace Scanner

/-- A scan of a source from its start. -/
def start (source : Source) : Scanner := ⟨source, 0, false⟩

/-- What a block read whole at an offset is. -/
def classify (block : List UInt8) (offset : Nat) : Finding :=
  match Header.decode block offset with
  | .ok (some header) => .entry ⟨header.path, offset + blockLength, header.size⟩
  | .ok none => .finished none
  | .error (.magic place) =>
    if offset = 0 then .failed (.header (.magic place)) else .finished (some (.foreign place))
  | .error fault => .failed (.header fault)

/-- Look for the next entry of a scan that has not ended. -/
def find (scanner : Scanner) : Finding × Source :=
  match (scanner.source.seek scanner.offset).fill blockLength with
  | (block, .full, source) => (classify block scanner.offset, source)
  | ([], .dry, source) => (.finished none, source)
  | (part, .dry, source) => (.finished (some (.truncated scanner.offset part.length)), source)
  | (_, .failed fault, source) => (.failed (.io fault), source)

/-- Take one step; a scan that has ended finds nothing more. -/
def next (scanner : Scanner) : Finding × Scanner :=
  if scanner.done then (.finished none, scanner)
  else
    match scanner.find with
    | (.entry found, source) =>
      (.entry found, ⟨source, scanner.offset + entryLength found.size, false⟩)
    | (finding, source) => (finding, ⟨source, scanner.offset, true⟩)

end Scanner

/-- The result of a whole scan. -/
structure Scan where
  /-- The entries, each with the end of the scan after it. -/
  entries : List (Entry × Nat)
  /-- How the scan ended: the finding after the last entry. -/
  ending : Finding
  /-- The scan after that. -/
  scanner : Scanner
  deriving DecidableEq, Repr

namespace Scanner

/-- Take a number of steps at most, up to the end. -/
def run : Nat → Scanner → Scan
  | 0, scanner => ⟨[], .finished none, scanner⟩
  | steps + 1, scanner =>
    match scanner.next with
    | (.entry found, after) =>
      let rest := run steps after
      { rest with entries := (found, after.offset) :: rest.entries }
    | (finding, after) => ⟨[], finding, after⟩

end Scanner

/-- Scan a source to the end. Each entry takes a block inside the source, so one step more than
there are whole blocks reaches the end. -/
def scan (source : Source) : Scan :=
  Scanner.run (source.data.length / blockLength + 1) (Scanner.start source)

/-- Read the contents of an entry. -/
def readContents (source : Source) (entry : Entry) : Except IoError (List UInt8) × Source :=
  (source.seek entry.offset).readExact entry.size

end Trajectory.Tar
