import Dataflow.Assembly
import Dataflow.Binary64.Basic
import Dataflow.Binary64.Decimal
import Dataflow.Binary64.Layout
import Dataflow.Binary64.Shortest
import Dataflow.Callback
import Dataflow.CommandLine
import Dataflow.Constant
import Dataflow.Draft
import Dataflow.Error
import Dataflow.Execution
import Dataflow.Expr.Basic
import Dataflow.Expr.Parser
import Dataflow.Expr.Token
import Dataflow.Files.Basic
import Dataflow.Files.Path
import Dataflow.Host
import Dataflow.Id
import Dataflow.Json.Basic
import Dataflow.Json.Printer
import Dataflow.Json.Reader
import Dataflow.Json.Record
import Dataflow.Lattice
import Dataflow.Loader
import Dataflow.Main
import Dataflow.Operation.Application
import Dataflow.Operation.Basic
import Dataflow.Operation.Builtin
import Dataflow.Operation.Catalogue
import Dataflow.Operation.Lifecycle
import Dataflow.Operation.Matching
import Dataflow.OrderedMap
import Dataflow.Pipeline.Basic
import Dataflow.Pipeline.Document
import Dataflow.Plot
import Dataflow.Proofs.Draft.Copying
import Dataflow.Proofs.Draft.Desk
import Dataflow.Proofs.Draft.Drawing
import Dataflow.Proofs.Draft.Edits
import Dataflow.Proofs.Draft.Functions
import Dataflow.Proofs.Draft.Identifiers
import Dataflow.Proofs.Draft.Orderly
import Dataflow.Proofs.Draft.Parallel
import Dataflow.Proofs.Draft.Settling
import Dataflow.Proofs.Execution
import Dataflow.Proofs.Execution.Parallel
import Dataflow.Proofs.Execution.Records
import Dataflow.Proofs.Expr.Exactness
import Dataflow.Proofs.Expr.Faults
import Dataflow.Proofs.Expr.Grammar
import Dataflow.Proofs.Expr.Integers
import Dataflow.Proofs.Expr.Names
import Dataflow.Proofs.Expr.Offsets
import Dataflow.Proofs.Expr.Parsing
import Dataflow.Proofs.Expr.Scanning
import Dataflow.Proofs.Expr.Tiling
import Dataflow.Proofs.Host.Sharing
import Dataflow.Proofs.Host.VariablesRoot
import Dataflow.Proofs.Json.Numbers
import Dataflow.Proofs.Json.Reading
import Dataflow.Proofs.Lattice
import Dataflow.Proofs.Lattice.Ancestry
import Dataflow.Proofs.Operation.Application
import Dataflow.Proofs.Operation.Callback
import Dataflow.Proofs.Operation.Drawings
import Dataflow.Proofs.Operation.Growth
import Dataflow.Proofs.Operation.Lifecycle
import Dataflow.Proofs.Operation.Matching
import Dataflow.Proofs.Operation.Minting
import Dataflow.Proofs.Operation.Parallel
import Dataflow.Proofs.Operation.Proper
import Dataflow.Proofs.Operation.Selection
import Dataflow.Proofs.Operation.Splicing
import Dataflow.Proofs.Operation.Template
import Dataflow.Proofs.OrderedMap
import Dataflow.Proofs.Pipeline.Decoding
import Dataflow.Proofs.Pipeline.Isomorphism
import Dataflow.Proofs.Pipeline.Join
import Dataflow.Proofs.Pipeline.Shifting
import Dataflow.Proofs.Pipeline.WellFormed
import Dataflow.Proofs.Pipeline.Wiring
import Dataflow.Proofs.Provenance
import Dataflow.Proofs.Recipe.Compiling
import Dataflow.Proofs.Recipe.Exactness
import Dataflow.Proofs.Recipe.Parallel
import Dataflow.Proofs.Recipe.Rejection
import Dataflow.Proofs.Recipe.Splicing
import Dataflow.Proofs.Recipe.Templates
import Dataflow.Proofs.Resolution
import Dataflow.Proofs.Resolution.Exactness
import Dataflow.Proofs.Script.Assignments
import Dataflow.Proofs.Script.Runs
import Dataflow.Proofs.Store.Changes
import Dataflow.Proofs.Store.History
import Dataflow.Proofs.Store.Parallel
import Dataflow.Proofs.Store.Requests
import Dataflow.Proofs.Store.Runs
import Dataflow.Proofs.Store.Selection
import Dataflow.Proofs.Store.Tags
import Dataflow.Proofs.Tree.Basic
import Dataflow.Proofs.Tree.Drawing
import Dataflow.Proofs.Tree.Meaning
import Dataflow.Proofs.TypeName
import Dataflow.Proofs.TypeRegistry
import Dataflow.Proofs.Variable.Alias
import Dataflow.Proofs.Variable.Built
import Dataflow.Proofs.Variable.Copying
import Dataflow.Proofs.Variable.Drawing
import Dataflow.Proofs.Variable.Parallel
import Dataflow.Proofs.Variable.Refusal
import Dataflow.Proofs.Variable.Restoring
import Dataflow.Proofs.Variable.RoundTrip
import Dataflow.Proofs.Variable.Shape
import Dataflow.Proofs.Variable.Workbench
import Dataflow.Proofs.Variable.Writing
import Dataflow.Proofs.Workspace.Accounts
import Dataflow.Proofs.Workspace.Agreement
import Dataflow.Proofs.Workspace.Aliasing
import Dataflow.Proofs.Workspace.Atomicity
import Dataflow.Proofs.Workspace.Calls
import Dataflow.Proofs.Workspace.Commuting
import Dataflow.Proofs.Workspace.Computing
import Dataflow.Proofs.Workspace.Frame
import Dataflow.Proofs.Workspace.FreeNames
import Dataflow.Proofs.Workspace.Integers
import Dataflow.Proofs.Workspace.Labels
import Dataflow.Proofs.Workspace.Names
import Dataflow.Proofs.Workspace.Opening
import Dataflow.Proofs.Workspace.Reopening
import Dataflow.Proofs.Workspace.Repeating
import Dataflow.Proofs.Workspace.Rereading
import Dataflow.Proofs.Workspace.RootTag
import Dataflow.Proofs.Workspace.Runs
import Dataflow.Proofs.Workspace.Sessions
import Dataflow.Proofs.Workspace.Sharing
import Dataflow.Proofs.Workspace.Singles
import Dataflow.Proofs.Workspace.VariableTags
import Dataflow.Provenance.Basic
import Dataflow.Provenance.Document
import Dataflow.Recipe
import Dataflow.Resolution
import Dataflow.Script.Report
import Dataflow.Script.Run
import Dataflow.Script.Statement
import Dataflow.Settings
import Dataflow.Store.Action
import Dataflow.Store.Basic
import Dataflow.Text.Blank
import Dataflow.Text.Letter
import Dataflow.Text.Printable
import Dataflow.Text.Quoted
import Dataflow.Text.Ranges
import Dataflow.Text.Words
import Dataflow.Toml.Basic
import Dataflow.Toml.Printer
import Dataflow.Toml.Reader
import Dataflow.Toml.Scalar
import Dataflow.TypeName
import Dataflow.TypeRegistry
import Dataflow.Variable
import Dataflow.Workspace
