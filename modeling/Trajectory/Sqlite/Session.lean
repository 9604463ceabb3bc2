import Trajectory.Sqlite.Archive
import Trajectory.Sqlite.Connection
/-!
# Archives in databases in use

A session is an archive with the connection to its database. An archive that sees committed rows
needs the file to hold a database still; one with changes of a batch of its own sees those. A
batch takes hold of the file with its first write, and lets go of it when it ends. Where a batch
could not be completed, ending it again fails, and so does closing the archive.
-/
namespace Trajectory.Sqlite

/-- An archive with the connection to its database. -/
structure Session where
  /-- The name it was opened by. -/
  file : String
  /-- The connection. -/
  connection : Connection
  /-- The archive. -/
  archive : Archive
  deriving DecidableEq, Repr

namespace Session

/-- Open the archive in a database; one opened for writing gets its tables. -/
def start (volume : Volume) (file : String) (mode : Access) (sizes : PieceSizes) :
    Except SqliteError Session × Volume :=
  match Connection.start volume file mode with
  | (.error error, after) => (.error error, after)
  | (.ok connection, after) =>
    let (found, after) :=
      if mode.canWrite then connection.prepare after else connection.look after fileTable
    (found.map fun rows => ⟨file, connection, .ofDatabase mode sizes rows⟩, after)

variable (session : Session) (volume : Volume)

/-- The rows that were committed, for a session that looks at them. -/
def committed : Except SqliteError Database × Volume :=
  if session.archive.batch.hasChanges then (.ok .empty, volume)
  else session.connection.look volume fileTable

/-- Read an entry. -/
def read (path : String) : Except ArchiveError (List UInt8) × Volume :=
  if session.archive.closed then (.error .closed, volume)
  else
    match session.committed volume with
    | (.error error, settled) => (.error (.sqlite error), settled)
    | (.ok rows, settled) => (session.archive.read rows path, settled)

/-- The rows to be changed, for a session that is not changing any. -/
def changeable : Except SqliteError Database × Volume :=
  if session.archive.batch.hasChanges then (.ok .empty, volume)
  else session.connection.changeable volume

/-- Write an entry. A batch holds the file from its first write on, also where that was refused. -/
def write (engine : Engine) (path : String) (contents : List UInt8)
    (compression : Compression) : Except ArchiveError Unit × Session × Volume :=
  match session.archive.requireWritable with
  | .error error => (.error error, session, volume)
  | .ok () =>
    match session.changeable volume with
    | (.error error, settled) => (.error (.sqlite error), session, settled)
    | (.ok rows, settled) =>
      let (result, archive, changed) := session.archive.write engine rows path contents compression
      let after :=
        if session.archive.batch.hasChanges then settled
        else if archive.batch.hasChanges then session.connection.hold settled
        else if result.toBool then session.connection.change settled changed
        else settled
      (result, { session with archive := archive }, after)

/-- Begin a batch of writes. -/
def beginBatch : Except ArchiveError Unit × Session :=
  let (result, archive) := session.archive.beginBatch
  (result, { session with archive := archive })

/-- Complete the batch under way, if there is one. -/
def commit : Except ArchiveError Unit × Session × Volume :=
  match session.archive.batch with
  | .idle => (.ok (), session, volume)
  | .begun => (.ok (), { session with archive.batch := .idle }, volume)
  | .lost => (.error (.sqlite .noTransaction), session, volume)
  | .changed rows =>
    match session.connection.commit volume rows with
    | (.ok (), after) => (.ok (), { session with archive.batch := .idle }, after)
    | (.error error, after) =>
      (.error (.sqlite error), { session with archive.batch := .lost }, after)

/-- End the batch of writes. -/
def endBatch : Except ArchiveError Unit × Session × Volume :=
  if session.archive.closed then (.error .closed, session, volume) else session.commit volume

/-- Close the archive, which ends a batch. -/
def close : Except ArchiveError Unit × Session × Volume :=
  if session.archive.closed then (.ok (), session, volume)
  else
    match session.commit volume with
    | (.ok (), ended, after) => (.ok (), { ended with archive.closed := true }, after)
    | (.error error, ended, after) => (.error error, ended, after)

end Session

end Trajectory.Sqlite
