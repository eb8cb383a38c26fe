import RaftAdmin.Cluster.Basic
import RaftAdmin.Command.Basic
import RaftAdmin.Command.Change
import RaftAdmin.Command.Elect
import RaftAdmin.Command.Info
import RaftAdmin.Command.Options
import RaftAdmin.Config.Basic
import RaftAdmin.Config.Error
import RaftAdmin.Config.Key
import RaftAdmin.Config.Reference
import RaftAdmin.Config.Registry
import RaftAdmin.Config.Store
import RaftAdmin.Config.Typed
import RaftAdmin.Decimal.Binary64
import RaftAdmin.Decimal.Shortest
import RaftAdmin.Error
import RaftAdmin.Group.Basic
import RaftAdmin.Group.Id
import RaftAdmin.Http.Client
import RaftAdmin.Http.Status
import RaftAdmin.Http.Submission
import RaftAdmin.Http.Transport
import RaftAdmin.Json.Reader
import RaftAdmin.Json.Value
import RaftAdmin.Json.Writer
import RaftAdmin.Log.Directive
import RaftAdmin.Log.Event
import RaftAdmin.Log.Filter
import RaftAdmin.Log.Format
import RaftAdmin.Log.Line
import RaftAdmin.Log.Pattern
import RaftAdmin.Log.Settings
import RaftAdmin.Main
import RaftAdmin.Peer.Address
import RaftAdmin.Peer.Basic
import RaftAdmin.Program
import RaftAdmin.Proofs.Reference.Derivation
import RaftAdmin.Proofs.Reference.Search
import RaftAdmin.Resolution.Basic
import RaftAdmin.Resolution.Request
import RaftAdmin.Retry
import RaftAdmin.Rpc.Failure
import RaftAdmin.Rpc.Reply
import RaftAdmin.Rpc.Wire
import RaftAdmin.Script.Act
import RaftAdmin.Script.Basic
import RaftAdmin.Script.Connector
import RaftAdmin.Script.Session
import RaftAdmin.Script.Sink
import RaftAdmin.Shell.Arguments
import RaftAdmin.Shell.Execute
import RaftAdmin.Shell.Help
import RaftAdmin.Shell.Option
import RaftAdmin.Shell.Run
import RaftAdmin.Shell.Usage
import RaftAdmin.Site.FileTree
import RaftAdmin.Site.Load
import RaftAdmin.Site.Nested
import RaftAdmin.Site.Path
import RaftAdmin.Site.Properties
import RaftAdmin.Text.Alphanumeric
import RaftAdmin.Text.Blank
import RaftAdmin.Text.Listing
import RaftAdmin.Text.Numeral
import RaftAdmin.Text.Split
import RaftAdmin.Yaml.Character
import RaftAdmin.Yaml.Cursor
import RaftAdmin.Yaml.Document
import RaftAdmin.Yaml.Grammar
import RaftAdmin.Yaml.Lexer
import RaftAdmin.Yaml.Property
import RaftAdmin.Yaml.Scalar.Block
import RaftAdmin.Yaml.Scalar.Plain
import RaftAdmin.Yaml.Scalar.Quoted
import RaftAdmin.Yaml.Schema
import RaftAdmin.Yaml.Tag
import RaftAdmin.Yaml.Token
import RaftAdmin.Yaml.Tree
import RaftAdmin.Yaml.Value
import RaftAdmin.Proofs.Reference.Termination
import RaftAdmin.Proofs.Reference.Evaluation
import RaftAdmin.Proofs.Configuration.Reading
import RaftAdmin.Proofs.Configuration.Substitution
import RaftAdmin.Proofs.Reference.Cycle
import RaftAdmin.Proofs.Configuration.Cycle
import RaftAdmin.Proofs.Configuration.Values
import RaftAdmin.Proofs.Reference.Freezing
import RaftAdmin.Proofs.Configuration.Freezing
import RaftAdmin.Proofs.Configuration.Termination
import RaftAdmin.Proofs.Http.Acceptance
import RaftAdmin.Proofs.Http.Chase
import RaftAdmin.Proofs.Resolution.Adoption
import RaftAdmin.Proofs.Resolution.Discipline
import RaftAdmin.Proofs.Command.Discipline
import RaftAdmin.Proofs.Command.ExitCode
import RaftAdmin.Proofs.Command.Outcome
import RaftAdmin.Proofs.Command.Cut
import RaftAdmin.Proofs.Command.Release
import RaftAdmin.Proofs.Cluster.Agreement
import RaftAdmin.Proofs.Command.Denotation
import RaftAdmin.Proofs.Shells.Membership
import RaftAdmin.Proofs.Command.Arguments
import RaftAdmin.Proofs.Command.Mistake
import RaftAdmin.Proofs.Command.MissingInput
import RaftAdmin.Proofs.Configuration.History
import RaftAdmin.Proofs.Configuration.Families
import RaftAdmin.Proofs.Configuration.Observation
import RaftAdmin.Proofs.Configuration.Provenance
import RaftAdmin.Proofs.Group.Id
import RaftAdmin.Proofs.Peer.Address
import RaftAdmin.Proofs.Json.RoundTrip
import RaftAdmin.Proofs.Wire.RoundTrip
import RaftAdmin.Proofs.Command.Succession
import RaftAdmin.Proofs.Command.Info
import RaftAdmin.Proofs.Command.Membership
import RaftAdmin.Proofs.Resolution.Pass
import RaftAdmin.Proofs.Command.Contacts
import RaftAdmin.Proofs.Command.Priority
import RaftAdmin.Proofs.Resolution.Service
import RaftAdmin.Proofs.Command.Leadership
import RaftAdmin.Proofs.Configuration.Stability
import RaftAdmin.Proofs.Command.Pairs
import RaftAdmin.Proofs.Resolution.Ambiguity
import RaftAdmin.Proofs.Command.Target
import RaftAdmin.Proofs.Peer.Spelling
import RaftAdmin.Proofs.Text.Lines
import RaftAdmin.Proofs.Site.Properties
import RaftAdmin.Proofs.Cluster.CommitIndex
import RaftAdmin.Proofs.Site.Nested
import RaftAdmin.Proofs.Command.Grouping
import RaftAdmin.Proofs.Configuration.Mismatch
import RaftAdmin.Proofs.Shell.Dashes
import RaftAdmin.Proofs.Configuration.Instances
import RaftAdmin.Proofs.Retry.Dispatch
import RaftAdmin.Proofs.Configuration.Nonempty
