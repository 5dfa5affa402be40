import AgentAssembly.Data.Dict
import AgentAssembly.Data.Distinct
import AgentAssembly.Data.Json
import AgentAssembly.Data.Json.Reader
import AgentAssembly.Data.Record
import AgentAssembly.Data.TextForm
import AgentAssembly.Data.Timestamp
import AgentAssembly.Data.Uuid
import AgentAssembly.Disk.Commit
import AgentAssembly.Disk.Path
import AgentAssembly.Disk.Tree
import AgentAssembly.Generation
import AgentAssembly.Identifier
import AgentAssembly.Number.Decimal
import AgentAssembly.Number.Double
import AgentAssembly.Number.Numeral
import AgentAssembly.Package
import AgentAssembly.Package.AgentModule
import AgentAssembly.Package.EntryPoint
import AgentAssembly.Package.Import
import AgentAssembly.Package.Listing
import AgentAssembly.Package.Marker
import AgentAssembly.Package.Runner
import AgentAssembly.Package.Source
import AgentAssembly.Package.ToolModule
import AgentAssembly.Project
import AgentAssembly.Project.Agent
import AgentAssembly.Project.BuildContext
import AgentAssembly.Project.Error
import AgentAssembly.Project.Record
import AgentAssembly.Project.Tool
import AgentAssembly.Session.Service
import AgentAssembly.Session.Store
import AgentAssembly.Settings
import AgentAssembly.Settings.KeyPath
import AgentAssembly.Settings.Layered
import AgentAssembly.Settings.Library
import AgentAssembly.Settings.Load
import AgentAssembly.Settings.LogFilter
import AgentAssembly.Settings.LogFilter.Pattern
import AgentAssembly.Settings.Logging
import AgentAssembly.Settings.Scalar
import AgentAssembly.Settings.Toml
import AgentAssembly.Settings.Toml.Moment
import AgentAssembly.Settings.Toml.Scalar
import AgentAssembly.Settings.Toml.Table
import AgentAssembly.Settings.Toml.Text
import AgentAssembly.Template.Helper
import AgentAssembly.Text.Alphanumeric
import AgentAssembly.Text.Blank
import AgentAssembly.Text.Lines
import AgentAssembly.Text.Quoted
import AgentAssembly.Text.Ranges
import AgentAssembly.Text.Shown
import AgentAssembly.Text.TripleQuoted
import AgentAssembly.Text.Unprintable
import AgentAssembly.Validation
import AgentAssembly.Validation.Collision
import AgentAssembly.Validation.Delegation
import AgentAssembly.Validation.Finding
import AgentAssembly.Proofs.Delegation.Search
import AgentAssembly.Proofs.Delegation.Cycles
import AgentAssembly.Proofs.Delegation.Root
import AgentAssembly.Proofs.Identifier
import AgentAssembly.Proofs.Identifier.NormalForm
import AgentAssembly.Proofs.Validation.Collision
import AgentAssembly.Proofs.Validation.WellFormed
import AgentAssembly.Proofs.Validation.Clash
import AgentAssembly.Proofs.Collections
import AgentAssembly.Proofs.Package.Rendering
import AgentAssembly.Proofs.Package.Files
import AgentAssembly.Proofs.Package.Definitions
import AgentAssembly.Proofs.Package.Imports
import AgentAssembly.Proofs.Project.Lawful
import AgentAssembly.Proofs.Project.Edit
import AgentAssembly.Proofs.Project.Frame
import AgentAssembly.Proofs.Project.FieldRules
import AgentAssembly.Proofs.Project.Retention
import AgentAssembly.Proofs.Session.Run
import AgentAssembly.Proofs.Project.Timeless
import AgentAssembly.Proofs.Session.Independence
import AgentAssembly.Proofs.Session.Retention
import AgentAssembly.Proofs.Disk.Effect
import AgentAssembly.Proofs.Disk.Rollback
import AgentAssembly.Proofs.Generation
import AgentAssembly.Proofs.Session.Expiry
import AgentAssembly.Proofs.Text.Literals
import AgentAssembly.Proofs.Text.Delimited
import AgentAssembly.Proofs.Package.Reading
import AgentAssembly.Proofs.Session.Sweeping
import AgentAssembly.Proofs.Package.Closure
import AgentAssembly.Proofs.Package.Environment
import AgentAssembly.Proofs.Package.Order
import AgentAssembly.Proofs.Disk.Succession
import AgentAssembly.Proofs.Confinement
import AgentAssembly.Proofs.Project.ListHistory
import AgentAssembly.Proofs.Package.Requirements
import AgentAssembly.Proofs.Session.Timeout
import AgentAssembly.Proofs.Text.Indentation
import AgentAssembly.Proofs.Package.ToolBody
import AgentAssembly.Proofs.Project.Facet
import AgentAssembly.Proofs.Project.Roster
import AgentAssembly.Proofs.Project.Replay
import AgentAssembly.Proofs.Project.Revision
import AgentAssembly.Proofs.Project.Admission
import AgentAssembly.Proofs.Session.Listing
import AgentAssembly.Proofs.Project.Record
import AgentAssembly.Proofs.Exchange
import AgentAssembly.Proofs.Settings.Environment
import AgentAssembly.Proofs.Settings.Logging
