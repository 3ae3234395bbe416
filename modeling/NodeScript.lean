import NodeScript.Assets.AssetStore
import NodeScript.Assets.Files
import NodeScript.Assets.GraphAsset
import NodeScript.Build.Arguments
import NodeScript.Build.Batch
import NodeScript.Build.Command
import NodeScript.Build.Program
import NodeScript.Code.Expr
import NodeScript.Code.Source
import NodeScript.Code.Unit
import NodeScript.Constant
import NodeScript.Document.Tree
import NodeScript.Document.Fault
import NodeScript.Document.GraphCodec
import NodeScript.Document.Numeral
import NodeScript.Document.Skip
import NodeScript.Document.Quoted
import NodeScript.Document.Reader
import NodeScript.Document.Scan
import NodeScript.Document.TypeCodec
import NodeScript.Editor.Action
import NodeScript.Editor.Searcher
import NodeScript.Editor.Reconcile
import NodeScript.Editor.Session
import NodeScript.Editor.Settings
import NodeScript.Editor.Store
import NodeScript.Editor.View
import NodeScript.Graph.Basic
import NodeScript.Graph.Define
import NodeScript.Graph.Definition
import NodeScript.Graph.Edit
import NodeScript.Graph.Inference
import NodeScript.Graph.Join
import NodeScript.Graph.Node
import NodeScript.Graph.Port
import NodeScript.Graph.Reach
import NodeScript.Main
import NodeScript.Numeric.Binary
import NodeScript.Numeric.Decimal
import NodeScript.OrderedMap
import NodeScript.Proofs.Editor.Actions
import NodeScript.Proofs.Editor.InLine
import NodeScript.Proofs.Editor.Notes
import NodeScript.Proofs.Editor.Picture
import NodeScript.Proofs.Editor.Redraw
import NodeScript.Proofs.Editor.Session
import NodeScript.Proofs.Editor.Views
import NodeScript.Proofs.Graph.Distance
import NodeScript.Proofs.Graph.Edits
import NodeScript.Proofs.Graph.Join
import NodeScript.Proofs.Graph.Links
import NodeScript.Proofs.Graph.Ports
import NodeScript.Proofs.Graph.Redefine
import NodeScript.Proofs.Graph.Removal
import NodeScript.Proofs.Graph.Supply
import NodeScript.Proofs.Graph.SureReach
import NodeScript.Proofs.Graph.Walk
import NodeScript.Proofs.Graph.WellFormed
import NodeScript.Proofs.OrderedMap
import NodeScript.Proofs.Translation.ControlFlow
import NodeScript.Proofs.Translation.Emission
import NodeScript.Proofs.Translation.Execution
import NodeScript.Proofs.Translation.Faultless
import NodeScript.Proofs.Translation.Simulation
import NodeScript.Proofs.Translation.Stacks
import NodeScript.Proofs.Typing.Fitting
import NodeScript.Proofs.Typing.Solving
import NodeScript.Report.Basic
import NodeScript.Report.Build
import NodeScript.Report.Editor
import NodeScript.Report.Fault
import NodeScript.Report.Graph
import NodeScript.Shell.Arithmetic
import NodeScript.Shell.Builtin
import NodeScript.Shell.Condition
import NodeScript.Shell.Execute
import NodeScript.Shell.Expand
import NodeScript.Shell.Format
import NodeScript.Shell.Grammar
import NodeScript.Shell.Lexer
import NodeScript.Shell.Pattern
import NodeScript.Shell.Program
import NodeScript.Shell.Redirection
import NodeScript.Shell.Regex
import NodeScript.Shell.Tools
import NodeScript.Shell.State
import NodeScript.Shell.Syntax
import NodeScript.Shell.Utility
import NodeScript.Text.Alphanumeric
import NodeScript.Text.Lines
import NodeScript.Text.Hidden
import NodeScript.Text.Lowercase
import NodeScript.Text.Names
import NodeScript.Text.Quoted
import NodeScript.Text.Ranges
import NodeScript.Text.Utf8
import NodeScript.Translation.Compile
import NodeScript.Translation.Context
import NodeScript.Translation.Diagnostics
import NodeScript.Translation.Scope
import NodeScript.Translation.Statement
import NodeScript.Translation.Translate
import NodeScript.Translation.Value
import NodeScript.Typing.Operator
import NodeScript.Typing.Signature
import NodeScript.Typing.Solving
import NodeScript.Typing.TypeDatabase
import NodeScript.Typing.TypeExpr
import NodeScript.Typing.TypeText
import NodeScript.Uuid
import NodeScript.Proofs.Graph.Histories
import NodeScript.Proofs.Translation.Evaluation
import NodeScript.Proofs.Translation.Depth
import NodeScript.Proofs.Translation.Linkage
import NodeScript.Proofs.Translation.Backflow
import NodeScript.Proofs.Translation.Functions
import NodeScript.Proofs.Translation.Cycles
import NodeScript.Proofs.Translation.Locals
import NodeScript.Proofs.Translation.Scoping
import NodeScript.Proofs.Translation.WellScoped
import NodeScript.Proofs.Translation.Traversal
import NodeScript.Proofs.Translation.Filing
import NodeScript.Proofs.Translation.Assembly
import NodeScript.Proofs.Typing.TypeText
import NodeScript.Proofs.Translation.Merging
import NodeScript.Proofs.Translation.Subscriptions
import NodeScript.Proofs.Translation.Blocks
import NodeScript.Proofs.Translation.Redeclaration
import NodeScript.Proofs.Graph.InPlace
import NodeScript.Proofs.Graph.Lasting
import NodeScript.Proofs.Editor.ReturnPorts
import NodeScript.Proofs.Editor.StoreRuns
import NodeScript.Proofs.Typing.Storable
import NodeScript.Proofs.Graph.Inferred
import NodeScript.Proofs.Graph.Verdicts
import NodeScript.Proofs.Graph.Resting
import NodeScript.Proofs.Graph.Settling
import NodeScript.Proofs.Code.LineMap
import NodeScript.Proofs.Translation.Tails
import NodeScript.Proofs.Translation.Fields
import NodeScript.Proofs.Translation.Variables
import NodeScript.Proofs.Numeric.Nearest
import NodeScript.Proofs.Numeric.Shortest
import NodeScript.Proofs.Numeric.Numerals
import NodeScript.Proofs.Document.Steps
import NodeScript.Proofs.Document.Quoted
import NodeScript.Proofs.Document.Numbers
import NodeScript.Proofs.Document.Stores
import NodeScript.Proofs.Document.Records
import NodeScript.Proofs.Document.Graphs
import NodeScript.Proofs.Assets.RoundTrip
import NodeScript.Proofs.Typing.Spelling
import NodeScript.Proofs.Typing.FirstFault
import NodeScript.Proofs.Typing.Registration
import NodeScript.Proofs.Code.Denoted
import NodeScript.Proofs.Code.Reading
import NodeScript.Proofs.Translation.Independence
import NodeScript.Proofs.Editor.Searches
import NodeScript.Proofs.Translation.Tracing
import NodeScript.Proofs.Build.Batches
import NodeScript.Proofs.Graph.Exactness
import NodeScript.Proofs.Graph.Parts
import NodeScript.Proofs.Translation.Unrelated
import NodeScript.Proofs.Graph.Creation
import NodeScript.Proofs.Graph.Relisting
import NodeScript.Proofs.Graph.StoredValues
import NodeScript.Proofs.Graph.Cascade
import NodeScript.Proofs.Graph.Accesses
import NodeScript.Proofs.Graph.Owners
import NodeScript.Proofs.Graph.Rebinding
import NodeScript.Proofs.Editor.Plans
import NodeScript.Proofs.Typing.AnyOrder
import NodeScript.Proofs.Editor.Deletion
import NodeScript.Proofs.Typing.Merges
import NodeScript.Proofs.Typing.OpenSlots
import NodeScript.Proofs.Translation.CompilerOutput
import NodeScript.Proofs.Assets.FileTree
import NodeScript.Proofs.Build.Runs
import NodeScript.Proofs.Build.Outputs
import NodeScript.Proofs.Graph.Closures
import NodeScript.Proofs.Translation.Demands
import NodeScript.Proofs.Editor.Saving
import NodeScript.Proofs.Translation.TraceRuns
import NodeScript.Proofs.Translation.Hooks
import NodeScript.Proofs.Typing.ShapeSearch
import NodeScript.Proofs.Editor.Rings
import NodeScript.Proofs.Typing.Restoring
import NodeScript.Proofs.Document.Registers
import NodeScript.Proofs.Translation.Said
import NodeScript.Proofs.Translation.Operators
import NodeScript.Proofs.Typing.Substitution
import NodeScript.Proofs.Code.Literals
import NodeScript.Shell.Commands
