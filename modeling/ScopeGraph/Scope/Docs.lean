import ScopeGraph.Syntax.Comment

/-!
# Doc comments of declarations

The doc comment that ends nearest before a node is attached if it ends on the row above it.
-/
set_option autoImplicit false

namespace ScopeGraph

open Syntax

def laterEnd (best : Option Comment) (comment : Comment) : Option Comment :=
  match best with
  | none => some comment
  | some held => if held.span.stop ≤ comment.span.stop then some comment else some held

/-- The doc comment with the greatest end that is no later than `start`.  The comments are sorted
by where they start, so those that start before `start` come first. -/
def nearestDoc? (comments : List Comment) (start : Nat) : Option Comment :=
  let preceding := comments.takeWhile (·.span.start < start)
  (preceding.filter fun comment => comment.isDoc && comment.span.stop ≤ start).foldl laterEnd none

def docFor? (source : String) (comments : List Comment) (node : Node) : Option String :=
  (nearestDoc? comments node.span.start).bind fun comment =>
    if comment.endRow + 1 = Text.row source node.span.start then some comment.text else none

end ScopeGraph
