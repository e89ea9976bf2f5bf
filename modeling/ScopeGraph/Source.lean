import ScopeGraph.Error
import ScopeGraph.Syntax.Comment
import ScopeGraph.Syntax.Fault
import ScopeGraph.Text.Quoted

/-!
# Source files

A source is a text under the path it is recorded by, with its syntax tree and its comments.  A
strict reading refuses a tree that holds a syntax error.
-/
set_option autoImplicit false

namespace ScopeGraph

open Syntax

structure Source where
  path : String
  text : String
  root : Node
  /-- Sorted by where they start. -/
  comments : List Comment

namespace Source

def position (text : String) (offset : Nat) : Position :=
  ⟨Text.row text offset, Text.column text offset⟩

def read (strict : Bool) (path text : String) (root : Node) : Except Error Source :=
  if strict && root.flagged then
    .error (.parse path (root.firstFault.map fun node => position text node.span.start))
  else
    .ok { path, text, root, comments := root.comments text }

/-- A one-line description for diagnostics. -/
def summary (source : Source) : String :=
  "SourceUnit \x7b path: " ++ Text.quoted source.path ++
    s!", bytes: {source.text.utf8ByteSize}, comments: {source.comments.length} \x7d"

end Source
end ScopeGraph
