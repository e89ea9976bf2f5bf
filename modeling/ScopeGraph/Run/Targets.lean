import ScopeGraph.Files.DatabaseFile
import ScopeGraph.Run.Pipeline
import ScopeGraph.Store.Script

/-!
# Where the graph goes

A run merges into a database file or writes a script file.
-/
set_option autoImplicit false

namespace ScopeGraph

open Files (Tree)

namespace Pipeline

def runDatabase (pipeline : Pipeline) (grammar : Grammar) (tree : Tree) (input database : String) :
    Except Error RunReport × Tree :=
  let opened := tree.openDatabase database
  match opened.result with
  | .error cause => (.error cause, opened.tree)
  | .ok session =>
    let outcome := pipeline.run grammar opened.tree input session.reach
    (outcome.result, session.leave outcome.store? outcome.tree)

structure ScriptRun where
  result : Except Error RunReport
  committed : Nat
  tree : Tree

/-- Runs into a script file that is created first; fails early if it cannot be. -/
def runScript (pipeline : Pipeline) (grammar : Grammar) (tree : Tree) (input path : String) :
    Except Refusal ScriptRun :=
  match tree.destination path with
  | .error refusal => .error refusal
  | .ok location =>
    let created := tree.put location (.file (.text ""))
    let script := Script.onSink .unlimited
    let outcome := pipeline.run grammar created input fun written => (script, written)
    let last := outcome.store?.getD script
    .ok {
      result := outcome.result
      committed := last.committed
      tree := outcome.tree.overwrite location last.sink.held }

end Pipeline
end ScopeGraph
