import ScopeGraph.CommandLine.Arguments
import ScopeGraph.CommandLine.Outline
import ScopeGraph.Report.Stats
import ScopeGraph.Run.Targets

/-!
# Commands

Each command is a function from the file tree to what it prints and the file tree after it.
-/
set_option autoImplicit false

namespace ScopeGraph.CommandLine

open Files (Tree)

structure Answer where
  code : Nat
  output : String
  errors : String
  deriving DecidableEq, Repr

namespace Answer

def lines (texts : List String) : String := String.join (texts.map (· ++ "\n"))

def success (output : List String) (errors : List String) : Answer :=
  ⟨0, lines output, lines errors⟩

/-- A failure, with what was printed before it. -/
def failure (output : List String) (reason : String) : Answer :=
  ⟨1, lines output, lines [s!"❌ {reason}"]⟩

def ofError (output : List String) (cause : Error) : Answer :=
  failure output (": ".intercalate cause.chain)

end Answer

def info (name value : String) : String := s!"ℹ️ {name}: {value}"

/-! ## The commands -/

def runInit (tree : Tree) (path : String) (force : Bool) : Answer × Tree :=
  match Config.standard.save tree path force with
  | (.ok (), written) => (.success [s!"✅ Wrote {path}"] [], written)
  | (.error cause, left) => (.failure [] cause.message, left)

/-- The settings with those of the options in front of them. -/
def RunOptions.over (options : RunOptions) (config : Config) : Config where
  database := options.database?.getD config.database
  outputDir := options.outputDir?.getD config.outputDir
  baseDir? := options.baseDir?.or config.baseDir?
  strictSyntax := !options.lenient && config.strictSyntax

def announce (options : RunOptions) : List String :=
  if options.json then [] else [s!"🚀 Extracting {options.input}"]

def closing (config : Config) (options : RunOptions) (report : RunReport) : Answer :=
  if options.json then .success [report.toJson.renderSpread] []
  else
    let target := match options.cypher? with
      | some path => info "Cypher script" path
      | none => info "Database" config.database
    let warnings :=
      if 0 < report.artifactsFailed then
        [s!"⚠️ {report.artifactsFailed} artifact(s) could not be written"]
      else []
    .success
      (announce options ++ [report.table, target, info "Artifacts" config.outputDir,
        s!"✅ Merged {report.sourcePath} into the graph"])
      warnings

def finish (config : Config) (options : RunOptions) : Except Error RunReport → Answer
  | .ok report => closing config options report
  | .error cause => .ofError (announce options) cause

def runExtract (grammar : Grammar) (tree : Tree) (config : Config) (options : RunOptions) :
    Answer × Tree :=
  match Pipeline.ofConfig config tree with
  | .error cause => (.ofError [] cause, tree)
  | .ok pipeline =>
    match options.cypher? with
    | some path =>
      match pipeline.runScript grammar tree options.input path with
      | .error refusal => (.failure (announce options) refusal.message, tree)
      | .ok run => (finish config options run.result, run.tree)
    | none =>
      match ensureParent tree config.database with
      | ⟨.error refusal, left⟩ => (.failure (announce options) refusal.message, left)
      | ⟨.ok (), ready⟩ =>
        let (result, last) := pipeline.runDatabase grammar ready options.input config.database
        (finish config options result, last)

def extracted (grammar : Grammar) (tree : Tree) (config : Config) (input : String) :
    Except Error (Pipeline × Scope × Tally) := do
  let pipeline ← Pipeline.ofConfig config tree
  let (scope, tally) ← pipeline.extract grammar tree input .zero
  return (pipeline, scope, tally)

def showScope (grammar : Grammar) (tree : Tree) (config : Config) (input : String) (json : Bool) :
    Answer :=
  match extracted grammar tree config input with
  | .error cause => .ofError [] cause
  | .ok (_, scope, tally) =>
    if json then .success [scope.toJson.renderSpread] []
    else if 0 < tally.unresolved then
      .success (scope.lines ++ [""])
        [s!"⚠️ {tally.unresolved} call(s) with no resolvable callee"]
    else .success scope.lines []

/-- The number of an operation, in four places or more. -/
def placeOf (index : Nat) : String :=
  let digits := toString index
  String.ofList (List.replicate (4 - digits.length) ' ') ++ digits

def numbered : Nat → List MergeOp → List String
  | _, [] => []
  | index, op :: rest => s!"{placeOf index} {op.display}" :: numbered (index + 1) rest

def showPlan (grammar : Grammar) (tree : Tree) (config : Config) (input : String) (cypher : Bool) :
    Answer :=
  let planned := do
    let (pipeline, scope, _) ← extracted grammar tree config input
    pipeline.plan scope
  match planned with
  | .error cause => .ofError [] cause
  | .ok ops =>
    if cypher then
      let (result, script) := GraphStore.apply ops (Script.onSink .unlimited)
      let written := Text.ofBytes script.sink.held
      match result with
      | .ok _ => ⟨0, written, ""⟩
      | .error cause => { Answer.ofError [] cause with output := written }
    else .success (numbered 0 ops ++ ["", s!"  operations {ops.length}"]) []

def showStats (tree : Tree) (config : Config) (json : Bool) : Answer × Tree :=
  if tree.has config.database then
    let opened := tree.openDatabase config.database
    match opened.result with
    | .error cause => (.ofError [] cause, opened.tree)
    | .ok session =>
      let stats := Stats.ofContent session.database.content
      let last := session.leave none opened.tree
      if json then (.success [stats.toJson.renderSpread] [], last)
      else (.success [s!"🗄️ {config.database}", "", "━📊 graph━", stats.table] [], last)
  else
    (.failure [] s!"no graph database at {config.database} (run `callscope run` first)", tree)

def perform (grammar : Grammar) (tree : Tree) (configPath : String) (config : Config) :
    Command → Answer × Tree
  | .init force => runInit tree configPath force
  | .run options => runExtract grammar tree (options.over config) options
  | .scope input json lenient =>
    let settings := { config with strictSyntax := !lenient && config.strictSyntax }
    (showScope grammar tree settings input json, tree)
  | .plan input cypher => (showPlan grammar tree config input cypher, tree)
  | .stats database? json =>
    showStats tree { config with database := database?.getD config.database } json

/-! ## The program -/

/-- What the program does with its arguments. -/
inductive Reaction where
  /-- The usage is shown, because it was asked for or because of a mistake. -/
  | usage (code : Nat)
  /-- The configuration cannot be read. -/
  | misconfigured (cause : ConfigError)
  | answer (answer : Answer)
  deriving DecidableEq, Repr

def versionText : String := "callscope 0.1.0"

def invoke (grammar : Grammar) (tree : Tree) (invocation : Invocation) : Reaction × Tree :=
  let path := invocation.config?.getD Config.standardPath
  match Config.load tree path with
  | .error cause => (.misconfigured cause, tree)
  | .ok config? =>
    let (answer, last) :=
      perform grammar tree path (config?.getD Config.standard) invocation.command
    (.answer answer, last)

def react (grammar : Grammar) (tree : Tree) (arguments : List String) : Reaction × Tree :=
  match Request.ofArguments arguments with
  | .help => (.usage 0, tree)
  | .misuse => (.usage 2, tree)
  | .version => (.answer (.success [versionText] []), tree)
  | .invoke invocation => invoke grammar tree invocation

end ScopeGraph.CommandLine
