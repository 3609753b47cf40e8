import Isam.Calendar.Date
import Isam.Calendar.Format
import Isam.Calendar.Time
import Isam.Calendar.Written
import Isam.Client.Access
import Isam.Client.Field
import Isam.Client.Index
import Isam.Client.Record
import Isam.Client.Session
import Isam.Client.Table
import Isam.Client.Workspace
import Isam.Codec.Bytes
import Isam.Codec.TableFile
import Isam.Codec.Payload
import Isam.Config
import Isam.Disk.Files
import Isam.Disk.Path
import Isam.Disk.Tree
import Isam.Double.Basic
import Isam.Double.Shortest
import Isam.Engine.Basic
import Isam.Error
import Isam.Field.Check
import Isam.Field.Properties
import Isam.Field.Type
import Isam.Field.Value
import Isam.FiniteMap
import Isam.Json.Config
import Isam.Json.Decode
import Isam.Json.Reader
import Isam.Json.Schema
import Isam.Json.Value
import Isam.Lock.Mode
import Isam.Lock.Table
import Isam.Schema.Basic
import Isam.Schema.Decl
import Isam.Server.Connections
import Isam.Server.Engine
import Isam.Server.Rows
import Isam.Server.State
import Isam.Server.Tables
import Isam.Storage.Rows
import Isam.Storage.Order
import Isam.Text.Printable
import Isam.Text.Basic
import Isam.Proofs.FiniteMap
import Isam.Proofs.Disk.TablePlaces
import Isam.Proofs.Disk.Writes
import Isam.Proofs.Server.Run
import Isam.Proofs.Storage.Rows
import Isam.Proofs.Storage.Search
import Isam.Proofs.Storage.Traversal
import Isam.Proofs.Server.Checks
import Isam.Proofs.Server.Effect
import Isam.Proofs.Server.Registry
import Isam.Proofs.Server.Closing
import Isam.Proofs.Server.Opening
import Isam.Proofs.Server.Registered
import Isam.Proofs.Server.Paths
import Isam.Proofs.Server.Handles
import Isam.Proofs.Codec.Bytes
import Isam.Proofs.Codec.Payload
import Isam.Proofs.Codec.TableFile
import Isam.Proofs.Codec.Checksum
import Isam.Proofs.Codec.Header
import Isam.Proofs.Schema.Valid
import Isam.Proofs.Schema.WellFormed
import Isam.Proofs.Codec.RoundTrip
import Isam.Proofs.Codec.Damage
import Isam.Proofs.Storage.Keys
import Isam.Proofs.Storage.Made
import Isam.Proofs.Server.Places
import Isam.Proofs.Server.Reopening
import Isam.Proofs.Server.Uniqueness
import Isam.Proofs.Lock.Table
import Isam.Proofs.Server.Locking
import Isam.Proofs.Server.Authority
import Isam.Proofs.Server.Images
import Isam.Proofs.Lock.WellFormed
import Isam.Proofs.Lock.Holdings
import Isam.Proofs.Lock.Stats
import Isam.Proofs.Server.Orphans
import Isam.Proofs.Server.Failures
import Isam.Proofs.Server.Exclusion
import Isam.Proofs.Field.Order
import Isam.Proofs.Double.Nearest
import Isam.Proofs.Field.Numbers
import Isam.Proofs.Field.Coerce
import Isam.Proofs.Storage.Order
import Isam.Proofs.Client.Moves
import Isam.Proofs.Client.Scan
import Isam.Proofs.Client.Acts
import Isam.Proofs.Client.Requests
import Isam.Proofs.Client.Connections
import Isam.Proofs.Client.Bindings
import Isam.Proofs.Client.Answers
import Isam.Proofs.Client.Inert
import Isam.Proofs.Server.RowNumbers
import Isam.Proofs.Field.Check
import Isam.Proofs.Client.Steps
import Isam.Proofs.Client.Fields
import Isam.Proofs.Client.Buffers
import Isam.Proofs.Client.Definitions
import Isam.Proofs.Client.Reopened
import Isam.Proofs.Client.Loading
import Isam.Proofs.Client.Tables
import Isam.Proofs.Server.WholeFiles
import Isam.Proofs.Client.WholeFiles
import Isam.Proofs.Client.Setting
import Isam.Proofs.Client.Trail
import Isam.Proofs.Text.Numerals
import Isam.Proofs.Calendar.Days
import Isam.Proofs.Calendar.Written
import Isam.Proofs.Calendar.UnixSeconds
import Isam.Proofs.Client.Fresh
import Isam.Proofs.Client.Settled
import Isam.Proofs.Client.Segments
import Isam.Proofs.Client.Declared
import Isam.Proofs.Server.GivenBack
import Isam.Proofs.Client.AllOrNothing
import Isam.Proofs.Field.Access
import Isam.Proofs.Client.Accessors
import Isam.Proofs.Lock.Waking
import Isam.Proofs.Client.KeyLength
