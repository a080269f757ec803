import Palmtop.Archive.Codec.Bits
import Palmtop.Archive.Codec.Bzip2
import Palmtop.Archive.Codec.Checksum
import Palmtop.Archive.Codec.Deflate
import Palmtop.Archive.Codec.Gzip
import Palmtop.Archive.Codec.Rotation
import Palmtop.Archive.Compression
import Palmtop.Archive.Container
import Palmtop.Archive.Cursor
import Palmtop.Archive.EntryName
import Palmtop.Archive.Error
import Palmtop.Archive.Stream
import Palmtop.Archive.Tar
import Palmtop.Archive.Writer
import Palmtop.Device.Bus
import Palmtop.Device.Error
import Palmtop.Device.Faults
import Palmtop.Device.Info
import Palmtop.Device.Memory
import Palmtop.Device.Reader
import Palmtop.Device.Session
import Palmtop.Device.SlotTable
import Palmtop.Device.Slots
import Palmtop.Device.Survey
import Palmtop.Device.Writer
import Palmtop.Files
import Palmtop.Handoff
import Palmtop.Handoff.Named
import Palmtop.Migration.Attendant
import Palmtop.Migration.Dialogue
import Palmtop.Migration.Error
import Palmtop.Migration.Event
import Palmtop.Migration.Incident
import Palmtop.Migration.Phase
import Palmtop.Migration.Plan
import Palmtop.Migration.Rehearsal
import Palmtop.Migration.Report
import Palmtop.Migration.Run
import Palmtop.Migration.Script
import Palmtop.Path
import Palmtop.Record
import Palmtop.Replica.Basic
import Palmtop.Replica.Error
import Palmtop.Replica.Kind
import Palmtop.Replica.Registry
import Palmtop.Replica.Sharing
import Palmtop.Replica.Warmup
import Palmtop.Settings.ArchivePath
import Palmtop.Settings.Basic
import Palmtop.Settings.Error
import Palmtop.Settings.Format.Json
import Palmtop.Settings.Format.Scan
import Palmtop.Settings.Format.Toml.Document
import Palmtop.Settings.Format.Toml.Scalar
import Palmtop.Settings.Format.Yaml.Cursor
import Palmtop.Settings.Format.Yaml.Document
import Palmtop.Settings.Format.Yaml.Scalar
import Palmtop.Settings.Format.Yaml.Token
import Palmtop.Settings.Layers
import Palmtop.Settings.Value
import Palmtop.Settings.Variables
import Palmtop.Text.Blank
import Palmtop.Text.Decimal
import Palmtop.Text.Digest
import Palmtop.Text.Digits
import Palmtop.Text.Fields
import Palmtop.Text.Printable
import Palmtop.Text.Quoted
import Palmtop.Text.Units
import Palmtop.Text.Utf8
import Palmtop.Transfer
import Palmtop.Transfer.Script
import Palmtop.Proofs.Device.Memory
import Palmtop.Proofs.Device.Commands
import Palmtop.Proofs.Device.SlotTable
import Palmtop.Proofs.Device.Merge
import Palmtop.Proofs.Device.Refusals
import Palmtop.Proofs.Device.Writing
import Palmtop.Proofs.Device.Accepting
import Palmtop.Proofs.Device.Transcript
import Palmtop.Proofs.Device.Hearing
import Palmtop.Proofs.Device.Wiring
import Palmtop.Proofs.Device.Reading
import Palmtop.Proofs.Device.GivingUp
import Palmtop.Proofs.Device.Isolation
import Palmtop.Proofs.Device.Resuming
import Palmtop.Proofs.Device.Allocating
import Palmtop.Proofs.Device.Asking
import Palmtop.Proofs.Device.Embedding
import Palmtop.Proofs.Device.Bus
import Palmtop.Proofs.Device.Gathering
import Palmtop.Proofs.Replica.Hosting
import Palmtop.Proofs.Replica.Mirror
import Palmtop.Proofs.Replica.Courses
import Palmtop.Proofs.Replica.Replacing
import Palmtop.Proofs.Replica.Deleted
import Palmtop.Proofs.Replica.Ordering
import Palmtop.Proofs.Replica.Interleaving
import Palmtop.Proofs.Replica.Refreshing
import Palmtop.Proofs.Replica.Accepting
import Palmtop.Proofs.Replica.Addressing
import Palmtop.Proofs.Replica.Sharing
import Palmtop.Proofs.Text.Utf8
import Palmtop.Proofs.Archive.EntryName
import Palmtop.Proofs.Archive.Header
import Palmtop.Proofs.Archive.Members
import Palmtop.Proofs.Files
import Palmtop.Proofs.Archive.Cursor
import Palmtop.Proofs.Archive.Walking
import Palmtop.Proofs.Archive.RoundTrip
import Palmtop.Proofs.Archive.GivenBack
import Palmtop.Proofs.Archive.Counting
import Palmtop.Proofs.Archive.Skipping
import Palmtop.Proofs.Migration.Course
import Palmtop.Proofs.Migration.Connecting
import Palmtop.Proofs.Migration.BackingUp
import Palmtop.Proofs.Migration.Restoring
import Palmtop.Proofs.Migration.Dialogue
import Palmtop.Proofs.Migration.Completion
import Palmtop.Proofs.Migration.Isolation
import Palmtop.Proofs.Migration.History
import Palmtop.Proofs.Migration.Moves
import Palmtop.Proofs.Migration.Posting
import Palmtop.Proofs.Migration.Sparing
import Palmtop.Proofs.Migration.Stopping
import Palmtop.Proofs.Handoff
import Palmtop.Proofs.Migration.Phases
import Palmtop.Proofs.Migration.Progress
import Palmtop.Proofs.Migration.Accounts
import Palmtop.Proofs.Migration.Keeping
import Palmtop.Proofs.Migration.Reporting
import Palmtop.Proofs.Migration.Leaving
import Palmtop.Proofs.Delivery
import Palmtop.Proofs.Device.Minutes
import Palmtop.Proofs.Device.Visiting
import Palmtop.Proofs.Device.Freshness
import Palmtop.Proofs.Migration.Holding
import Palmtop.Proofs.Migration.Prompting
import Palmtop.Proofs.Migration.Requests
import Palmtop.Proofs.Migration.Serving
import Palmtop.Proofs.Replica.Refusing
import Palmtop.Proofs.Replica.FreshIds
import Palmtop.Proofs.Migration.Answering
import Palmtop.Proofs.Migration.Negotiating
import Palmtop.Proofs.Migration.Unlocking
import Palmtop.Proofs.Device.Exhausting
import Palmtop.Proofs.Archive.Outstanding
import Palmtop.Proofs.Migration.Counting
import Palmtop.Proofs.Migration.Announcing
import Palmtop.Proofs.Migration.Reckoning
import Palmtop.Proofs.Device.Plugging
import Palmtop.Proofs.Path
import Palmtop.Proofs.Settings.ArchivePath
import Palmtop.Proofs.Replica.Warmup
import Palmtop.Proofs.Settings.Format
import Palmtop.Proofs.Settings.Layers
import Palmtop.Proofs.Device.Sequences
import Palmtop.Proofs.Device.Renumbering
