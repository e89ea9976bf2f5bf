import ScopeGraph.Syntax.Kind
import ScopeGraph.Text.Slice

/-!
# Syntax trees

A node knows its kind, the field it fills in its parent, the span of text it covers and its
children.  The extraction goes from a node to its *slots*: the named children that are not
comments.  Two orders of visit are used, both entering only the nodes that a test lets through:
document order (`visit`) and order by depth, then document order (`levels`).
-/
set_option autoImplicit false

namespace ScopeGraph.Syntax

structure Node where
  kind : Kind
  field : Option Field
  span : Span
  named : Bool
  /-- The node itself marks a syntax error: it stands for text that fits nowhere, or for a token
  that is not there. -/
  faulty : Bool
  /-- The node or one below it is said to be faulty. -/
  flagged : Bool
  children : List Node

namespace Node

mutual

def weight : Node → Nat
  | ⟨_, _, _, _, _, _, children⟩ => 1 + weightAll children

def weightAll : List Node → Nat
  | [] => 0
  | node :: rest => node.weight + weightAll rest

end

def child? (field : Field) (node : Node) : Option Node :=
  node.children.find? (·.field = some field)

/-- A slot may hold declarations and calls. -/
def isSlot (node : Node) : Bool := node.named && node.kind ≠ .comment

def slots (node : Node) : List Node := node.children.filter isSlot

def namedChildren (node : Node) : List Node := node.children.filter (·.named)

section Visits
variable (enters : Node → Bool)

mutual

/-- The node and what its slots lead to, in document order; slots are looked into where `enters`
holds. -/
def visit : Node → List Node
  | ⟨kind, field, span, named, faulty, flagged, children⟩ =>
    let node : Node := ⟨kind, field, span, named, faulty, flagged, children⟩
    node :: if enters node then visitSlots children else []

def visitSlots : List Node → List Node
  | [] => []
  | node :: rest => if node.isSlot then node.visit ++ visitSlots rest else visitSlots rest

end

/-- Puts two lists of levels side by side. -/
def beside {α : Type} : List (List α) → List (List α) → List (List α)
  | [], levels => levels
  | levels, [] => levels
  | first :: rest, first' :: rest' => (first ++ first') :: beside rest rest'

mutual

/-- The node and what its slots lead to, level by level; slots are looked into where `enters`
holds. -/
def levels : Node → List (List Node)
  | ⟨kind, field, span, named, faulty, flagged, children⟩ =>
    let node : Node := ⟨kind, field, span, named, faulty, flagged, children⟩
    [node] :: if enters node then levelsOfSlots children else []

def levelsOfSlots : List Node → List (List Node)
  | [] => []
  | node :: rest =>
    if node.isSlot then beside node.levels (levelsOfSlots rest) else levelsOfSlots rest

end

def byDepth (node : Node) : List Node := (node.levels enters).flatten

end Visits

def text (source : String) (node : Node) : String := Text.slice source node.span

/-- The text of the node that fills `name`, unless it is empty. -/
def declaredName? (source : String) (node : Node) : Option String :=
  ((node.child? .name).map (text source)).filter (· ≠ "")

end Node
end ScopeGraph.Syntax
