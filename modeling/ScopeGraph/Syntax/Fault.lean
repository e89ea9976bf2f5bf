import ScopeGraph.Syntax.Node

/-!
# The first syntax error of a tree

Faulty nodes are looked for in document order over all children, and a subtree that is not flagged
is passed over.
-/
set_option autoImplicit false

namespace ScopeGraph.Syntax.Node

mutual

def firstFault : Node → Option Node
  | ⟨kind, field, span, named, faulty, flagged, children⟩ =>
    if faulty then some ⟨kind, field, span, named, faulty, flagged, children⟩
    else if flagged then firstFaultAmong children
    else none

def firstFaultAmong : List Node → Option Node
  | [] => none
  | node :: rest =>
    match node.firstFault with
    | some fault => some fault
    | none => firstFaultAmong rest

end

end ScopeGraph.Syntax.Node
