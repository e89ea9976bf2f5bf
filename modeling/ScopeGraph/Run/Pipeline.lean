import ScopeGraph.Config
import ScopeGraph.Graph.Plan
import ScopeGraph.Report.Run
import ScopeGraph.Run.Artifacts
import ScopeGraph.Run.SourcePath
import ScopeGraph.Scope.Extract
import ScopeGraph.Store.Apply

/-!
# Runs

A run reads a source file, extracts its scope, writes the artifacts, plans the merges and applies
them to a graph store.
-/
set_option autoImplicit false

namespace ScopeGraph

open Files (Location Tree)

/-- Gives a text its syntax tree. -/
abbrev Grammar := String → Syntax.Node

/-- What is fixed for all runs under one configuration. -/
structure Pipeline where
  strict : Bool
  layout : Layout
  base? : Option Location
  deriving DecidableEq, Repr

namespace Pipeline

def ofConfig (config : Config) (tree : Tree) : Except Error Pipeline :=
  match config.baseDir? with
  | none => .ok ⟨config.strictSyntax, ⟨config.outputDir⟩, none⟩
  | some directory =>
    match tree.canonical directory with
    | .ok base => .ok ⟨config.strictSyntax, ⟨config.outputDir⟩, some base⟩
    | .error refusal => .error (.invalidPath (.unresolvedBase directory refusal))

def sourcePath (pipeline : Pipeline) (tree : Tree) (input : String) : Except Error String :=
  match tree.canonical input with
  | .ok location => .ok (recordedPath pipeline.base? location)
  | .error refusal => .error (.invalidPath (.unresolved input refusal))

def extract (pipeline : Pipeline) (grammar : Grammar) (tree : Tree) (input : String)
    (tally : Tally) : Except Error (Scope × Tally) := do
  let path ← pipeline.sourcePath tree input
  let text ← (tree.readText input).mapError Error.io
  let source ← Source.read pipeline.strict path text (grammar text)
  return source.scope tally

def plan (pipeline : Pipeline) (scope : Scope) : Except Error (List MergeOp) :=
  scope.plan pipeline.layout

def report (scope : Scope) (tally : Tally) (artifacts : ArtifactReport) (operations : Nat) :
    RunReport where
  sourcePath := scope.sourcePath
  functions := scope.functions.length
  classes := scope.classes.length
  members := scope.descriptorCount - scope.functions.length - scope.classes.length
  chains := scope.chainCount
  exports := scope.exports.length
  anonymous := tally.anonymous
  unresolved := tally.unresolved
  operations := operations
  artifactsWritten := artifacts.written
  artifactsFailed := artifacts.failed

structure Prepared where
  scope : Scope
  tally : Tally
  artifacts : ArtifactReport
  ops : List MergeOp

def prepare (pipeline : Pipeline) (grammar : Grammar) (tree : Tree) (input : String) :
    Except Error Prepared × Tree :=
  match pipeline.extract grammar tree input .zero with
  | .error cause => (.error cause, tree)
  | .ok (scope, tally) =>
    let (artifacts, written) := pipeline.layout.writeAll scope tree
    (return ⟨scope, tally, artifacts, ← pipeline.plan scope⟩, written)

structure Outcome (σ : Type) where
  result : Except Error RunReport
  tree : Tree
  /-- The store, if the run got as far as its merges; it is closed. -/
  store? : Option σ

/-- Runs on one input.  The store is reached through the files as the artifacts leave them. -/
def run {σ : Type} [GraphStore σ] (pipeline : Pipeline) (grammar : Grammar) (tree : Tree)
    (input : String) (reach : Tree → σ × Tree) : Outcome σ :=
  match pipeline.prepare grammar tree input with
  | (.error cause, left) => ⟨.error cause, left, none⟩
  | (.ok prepared, written) =>
    let (store, reached) := reach written
    match GraphStore.apply prepared.ops store with
    | (.error cause, last) => ⟨.error cause, reached, some last⟩
    | (.ok operations, last) =>
      ⟨.ok (report prepared.scope prepared.tally prepared.artifacts operations), reached,
        some last⟩

end Pipeline
end ScopeGraph
