import Trajectory.Accessor.Copy
import Trajectory.Config.Text
import Trajectory.Proofs.Record.Label
import Trajectory.Proofs.Record.RoundTrip
import Trajectory.Proofs.Tar.Header
import Trajectory.Proofs.Ledger
import Trajectory.Proofs.Tar.Image
import Trajectory.Proofs.Tar.Course
import Trajectory.Proofs.Tar.Growth
import Trajectory.Proofs.Tar.Session
import Trajectory.Proofs.Tar.Spelling
import Trajectory.Proofs.Sqlite.Statement
import Trajectory.Proofs.Sqlite.Rows
import Trajectory.Proofs.Volume.Path
import Trajectory.Proofs.Sqlite.Connection
import Trajectory.Proofs.Sqlite.Name
import Trajectory.Proofs.Sqlite.Operations
import Trajectory.Proofs.Sqlite.Session
import Trajectory.Proofs.Tar.Fresh
import Trajectory.Proofs.Tar.Damage
import Trajectory.Proofs.Sqlite.Listing
import Trajectory.Proofs.Accessor.Reachable
import Trajectory.Proofs.Bytes.LittleEndian
import Trajectory.Proofs.Record.Order
import Trajectory.Proofs.Record.Register
import Trajectory.Proofs.Archive.Known
import Trajectory.Proofs.Archive.Opened
import Trajectory.Proofs.Accessor.Replay
import Trajectory.Proofs.Volume.Files
import Trajectory.Proofs.Archive.Keeps
import Trajectory.Proofs.Archive.Apart
import Trajectory.Proofs.Archive.Adrift
import Trajectory.Proofs.Archive.ReadOnly
import Trajectory.Proofs.Accessor.Lineage
import Trajectory.Proofs.Accessor.Copy
import Trajectory.Proofs.Source
import Trajectory.Proofs.Tar.Cut
import Trajectory.Proofs.Archive.Calls
import Trajectory.Proofs.Archive.Frozen
import Trajectory.Proofs.Volume.Tree
import Trajectory.Proofs.Volume.Stores
import Trajectory.Proofs.Sqlite.Steady
import Trajectory.Proofs.Sqlite.Scope
import Trajectory.Proofs.Sqlite.Account
import Trajectory.Proofs.Accessor.Scope
import Trajectory.Proofs.Directory.Names
import Trajectory.Proofs.Directory.Entries
import Trajectory.Proofs.Tar.Checksum
import Trajectory.Proofs.Archive.Enumeration
import Trajectory.Proofs.Archive.Closed
import Trajectory.Proofs.Accessor.Closed
import Trajectory.Proofs.Tar.Untrusted
import Trajectory.Proofs.Record.Listing
import Trajectory.Proofs.Volume.Inside
import Trajectory.Proofs.Volume.Confined
import Trajectory.Proofs.Directory.Components
import Trajectory.Proofs.Directory.Confinement
import Trajectory.Proofs.Directory.Misses
import Trajectory.Proofs.Sqlite.Untrusted
import Trajectory.Proofs.Zip.Window
import Trajectory.Proofs.Zip.Layout
import Trajectory.Proofs.Zip.Form
import Trajectory.Proofs.Zip.Record
import Trajectory.Proofs.Zip.Completed
import Trajectory.Proofs.Zip.Session
import Trajectory.Proofs.Zip.Append
import Trajectory.Proofs.Accessor.Snapshot
import Trajectory.Proofs.Bytes.Chunks
import Trajectory.Proofs.Element
import Trajectory.Proofs.Sqlite.Pieces
import Trajectory.Proofs.Sink
import Trajectory.Proofs.Tar.Room
import Trajectory.Proofs.Source.Delivery
import Trajectory.Proofs.Record.Numeral
