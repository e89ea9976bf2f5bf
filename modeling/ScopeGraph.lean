import ScopeGraph.Artifact
import ScopeGraph.CommandLine.Arguments
import ScopeGraph.CommandLine.Commands
import ScopeGraph.CommandLine.Outline
import ScopeGraph.CommandLine.Printed
import ScopeGraph.CommandLine.SyntaxTrees
import ScopeGraph.Config
import ScopeGraph.Dictionary
import ScopeGraph.Error
import ScopeGraph.Files.Change
import ScopeGraph.Files.Companion
import ScopeGraph.Files.DatabaseFile
import ScopeGraph.Files.DatabaseName
import ScopeGraph.Files.Name
import ScopeGraph.Files.Path
import ScopeGraph.Files.Tree
import ScopeGraph.Graph.Containment
import ScopeGraph.Graph.Content
import ScopeGraph.Graph.ContentText
import ScopeGraph.Graph.Cypher
import ScopeGraph.Graph.Key
import ScopeGraph.Graph.MergeOp
import ScopeGraph.Graph.Plan
import ScopeGraph.Json.Basic
import ScopeGraph.Json.Strings
import ScopeGraph.Listing
import ScopeGraph.Main
import ScopeGraph.Proofs.Artifact
import ScopeGraph.Proofs.Dictionary
import ScopeGraph.Proofs.Files.Below
import ScopeGraph.Proofs.Files.Growth
import ScopeGraph.Proofs.Files.Walk
import ScopeGraph.Proofs.Graph.Containment
import ScopeGraph.Proofs.Graph.Cypher
import ScopeGraph.Proofs.Graph.FileOrder
import ScopeGraph.Proofs.Graph.FromNothing
import ScopeGraph.Proofs.Graph.Identities
import ScopeGraph.Proofs.Graph.Key
import ScopeGraph.Proofs.Graph.PlanCounts
import ScopeGraph.Proofs.Graph.PlanMerges
import ScopeGraph.Proofs.Graph.PlanOrder
import ScopeGraph.Proofs.Graph.Rerun
import ScopeGraph.Proofs.Graph.ScopeContent
import ScopeGraph.Proofs.InOrder
import ScopeGraph.Proofs.Json.OneLine
import ScopeGraph.Proofs.Json.ReadBack
import ScopeGraph.Proofs.Listing
import ScopeGraph.Proofs.Run.Counts
import ScopeGraph.Proofs.Run.OutputRoot
import ScopeGraph.Proofs.Run.Recorded
import ScopeGraph.Proofs.Run.SourcePath
import ScopeGraph.Proofs.Scope.Attribution
import ScopeGraph.Proofs.Scope.CallChain
import ScopeGraph.Proofs.Scope.CallOrder
import ScopeGraph.Proofs.Scope.CalleePath
import ScopeGraph.Proofs.Scope.DefaultExports
import ScopeGraph.Proofs.Scope.Descriptors
import ScopeGraph.Proofs.Scope.DocRows
import ScopeGraph.Proofs.Scope.Docs
import ScopeGraph.Proofs.Scope.Entries
import ScopeGraph.Proofs.Scope.ExportBindings
import ScopeGraph.Proofs.Scope.Exports
import ScopeGraph.Proofs.Scope.Namesakes
import ScopeGraph.Proofs.Scope.Numbering
import ScopeGraph.Proofs.Scope.Passes
import ScopeGraph.Proofs.Scope.Placement
import ScopeGraph.Proofs.Scope.Preorder
import ScopeGraph.Proofs.Scope.QualifiedNames
import ScopeGraph.Proofs.Scope.Redeclarations
import ScopeGraph.Proofs.Scope.Traversal
import ScopeGraph.Proofs.Scope.WellFormed
import ScopeGraph.Proofs.Store.Agreement
import ScopeGraph.Proofs.Store.Atomicity
import ScopeGraph.Proofs.Store.Integrity
import ScopeGraph.Proofs.Store.Journal
import ScopeGraph.Proofs.Store.LimitedSink
import ScopeGraph.Proofs.Store.NodeProperties
import ScopeGraph.Proofs.Store.Protocol
import ScopeGraph.Proofs.Store.ScriptLog
import ScopeGraph.Proofs.Syntax.Bodies
import ScopeGraph.Proofs.Syntax.Comments
import ScopeGraph.Proofs.Syntax.Faults
import ScopeGraph.Proofs.Syntax.Places
import ScopeGraph.Proofs.Syntax.Worklist
import ScopeGraph.Proofs.Text.Bytes
import ScopeGraph.Report.Run
import ScopeGraph.Report.Stats
import ScopeGraph.Report.Table
import ScopeGraph.Report.Theme
import ScopeGraph.Run.Artifacts
import ScopeGraph.Run.Pipeline
import ScopeGraph.Run.SourcePath
import ScopeGraph.Run.Targets
import ScopeGraph.Scope.CallChain
import ScopeGraph.Scope.Calls
import ScopeGraph.Scope.Declaration
import ScopeGraph.Scope.Descriptor
import ScopeGraph.Scope.Docs
import ScopeGraph.Scope.Entries
import ScopeGraph.Scope.Exports
import ScopeGraph.Scope.Extract
import ScopeGraph.Source
import ScopeGraph.Store.Apply
import ScopeGraph.Store.Contract
import ScopeGraph.Store.Database
import ScopeGraph.Store.Guarded
import ScopeGraph.Store.Recorder
import ScopeGraph.Store.Script
import ScopeGraph.Store.Sink
import ScopeGraph.Syntax.Comment
import ScopeGraph.Syntax.Fault
import ScopeGraph.Syntax.Kind
import ScopeGraph.Syntax.Node
import ScopeGraph.Syntax.NodeClass
import ScopeGraph.Syntax.Outline
import ScopeGraph.Syntax.OutlineText
import ScopeGraph.Text.Characters
import ScopeGraph.Text.Quoted
import ScopeGraph.Text.Slice
import ScopeGraph.Text.Utf8
import ScopeGraph.Text.Width
import ScopeGraph.Toml.Document
import ScopeGraph.Toml.Quoted
import ScopeGraph.Toml.Scalar
import ScopeGraph.Toml.Scan
import ScopeGraph.Toml.Value
