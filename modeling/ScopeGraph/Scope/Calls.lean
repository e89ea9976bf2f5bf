import ScopeGraph.Scope.CallChain
import ScopeGraph.Syntax.NodeClass

/-!
# Calls of a body

The callee of a call is unwrapped through member accesses, subscripts, parentheses, sequences and
inner calls down to its base.  A base without a name leaves the call unresolved.  The calls of a
body are those outside of nested scopes, the last one first: a call comes before the calls that
its callee and its arguments make.
-/
set_option autoImplicit false

namespace ScopeGraph

open Syntax

def isQuote (c : Char) : Bool := c = '"' || c = '\'' || c = '`'

def trimEnds (drops : Char → Bool) (text : String) : String :=
  String.ofList (((text.toList.dropWhile drops).reverse.dropWhile drops).reverse)

namespace Syntax.Node
variable (source : String)

mutual

/-- The names that an expression in callee position goes through, outermost object first. -/
def path : Node → List String
  | ⟨kind, field, span, named, faulty, flagged, children⟩ =>
    let node : Node := ⟨kind, field, span, named, faulty, flagged, children⟩
    match kind with
    | .memberExpression =>
      pathOf .object children ++ ((node.child? .property).map (text source)).toList
    | .subscriptExpression =>
      pathOf .object children ++
        ((node.child? .index).map fun index => trimEnds isQuote (index.text source)).toList
    | .identifier => [node.text source]
    | .this => ["this"]
    | .functionExpression | .function | .generatorFunction | .arrowFunction =>
      [((node.child? .name).map (text source)).getD "anonymous"]
    | .sequenceExpression | .parenthesizedExpression => pathOfLastSlot children
    | .callExpression => pathOf .function children
    | _ => []

def pathOf (field : Field) : List Node → List String
  | [] => []
  | node :: rest => if node.field = some field then node.path else pathOf field rest

def pathOfLastSlot : List Node → List String
  | [] => []
  | node :: rest =>
    if node.isSlot && !rest.any isSlot then node.path else pathOfLastSlot rest

end

/-- The callee of a call as a path of names; empty if its base has no name. -/
def calleePath (call : Node) : List String := pathOf source .function call.children

end Syntax.Node

namespace Syntax.Node

mutual

/-- The calls outside of nested scopes, the last ones first. -/
def calls : Node → List Node
  | ⟨kind, field, span, named, faulty, flagged, children⟩ =>
    let node : Node := ⟨kind, field, span, named, faulty, flagged, children⟩
    if node.isScope then []
    else if kind = .callExpression then node :: callsOfSlots children
    else callsOfSlots children

def callsOfSlots : List Node → List Node
  | [] => []
  | node :: rest => if node.isSlot then callsOfSlots rest ++ node.calls else callsOfSlots rest

end

def callChains (source : String) (body : Node) : List CallChain :=
  ((body.calls.map (calleePath source)).filter (· ≠ [])).map CallChain.mk

def unresolvedCalls (source : String) (body : Node) : Nat :=
  (body.calls.map (calleePath source)).countP (· = [])

end Syntax.Node
end ScopeGraph
