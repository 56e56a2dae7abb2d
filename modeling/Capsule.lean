import Capsule.Bus.Call
import Capsule.Bus.Client
import Capsule.Bus.Descriptor
import Capsule.Bus.Property
import Capsule.Bus.Reply
import Capsule.Bus.Script
import Capsule.Bus.Transfer
import Capsule.Capabilities
import Capsule.Command
import Capsule.Command.Form
import Capsule.Config
import Capsule.Config.Arguments
import Capsule.Config.Load
import Capsule.Config.Validation
import Capsule.Double
import Capsule.Double.Shortest
import Capsule.Error
import Capsule.Files
import Capsule.Image
import Capsule.Json.Bytes
import Capsule.Json.Decode
import Capsule.Json.Document
import Capsule.Json.Numeral
import Capsule.Json.Printer
import Capsule.Json.Value
import Capsule.Main
import Capsule.Poll
import Capsule.Preparation
import Capsule.Programs
import Capsule.Proofs.Bus.Descriptors
import Capsule.Proofs.Bus.Listing
import Capsule.Proofs.Bus.Runs
import Capsule.Proofs.Bus.Variants
import Capsule.Proofs.Config.Acceptance
import Capsule.Proofs.Config.Formats
import Capsule.Proofs.Config.HostRoot
import Capsule.Proofs.Config.Members
import Capsule.Proofs.Config.PivotRoot
import Capsule.Proofs.Config.Pulling
import Capsule.Proofs.Config.Reading
import Capsule.Proofs.Config.Resolving
import Capsule.Proofs.Config.RoundTrip
import Capsule.Proofs.Config.Rules
import Capsule.Proofs.Config.StringMaps
import Capsule.Proofs.Course
import Capsule.Proofs.Double
import Capsule.Proofs.Files
import Capsule.Proofs.Json.Grammar
import Capsule.Proofs.Json.Naturals
import Capsule.Proofs.Json.Soundness
import Capsule.Proofs.Json.Spelling
import Capsule.Proofs.Poll.Cadence
import Capsule.Proofs.Poll.Deadline
import Capsule.Proofs.Poll.Lookup
import Capsule.Proofs.Preparation.Ending
import Capsule.Proofs.Preparation.Fetching
import Capsule.Proofs.Preparation.Rendering
import Capsule.Proofs.Record
import Capsule.Proofs.Report.Sizes
import Capsule.Proofs.Report.Times
import Capsule.Proofs.Supervisor.Doomed
import Capsule.Proofs.Supervisor.Exclusion
import Capsule.Proofs.Supervisor.Isolation
import Capsule.Proofs.Supervisor.Journey
import Capsule.Proofs.Supervisor.Launch
import Capsule.Proofs.Supervisor.Ledger
import Capsule.Proofs.Supervisor.Move
import Capsule.Proofs.Supervisor.Naming
import Capsule.Proofs.Supervisor.Reservation
import Capsule.Proofs.Supervisor.Stages
import Capsule.Proofs.SystemVersion
import Capsule.Proofs.Task.Lifecycle
import Capsule.Proofs.Time.Calendar
import Capsule.Proofs.Utf8
import Capsule.Proofs.Watch.Transfers
import Capsule.Proofs.World.Deadlines
import Capsule.Proofs.World.Verdict
import Capsule.Proofs.Yaml.Documents
import Capsule.Proofs.Yaml.Reader
import Capsule.Proofs.Yaml.Tokens
import Capsule.Pull
import Capsule.Record
import Capsule.Rehearsal
import Capsule.Rehearsal.Document
import Capsule.Rehearsal.Shell
import Capsule.Report
import Capsule.Schedule
import Capsule.Settings
import Capsule.Supervisor
import Capsule.SystemVersion
import Capsule.Task
import Capsule.Task.Child
import Capsule.Task.Exit
import Capsule.Task.Id
import Capsule.Text.Blank
import Capsule.Text.Hex
import Capsule.Text.Printable
import Capsule.Text.Quoted
import Capsule.Text.Utf8
import Capsule.TextMap
import Capsule.Time.Calendar
import Capsule.Time.Ticker
import Capsule.Watch
import Capsule.World
import Capsule.World.Commands
import Capsule.Yaml.Core
import Capsule.Yaml.Decode
import Capsule.Yaml.Mark
import Capsule.Yaml.Node
import Capsule.Yaml.Scalar
import Capsule.Yaml.Token
