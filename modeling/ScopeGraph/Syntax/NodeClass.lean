import ScopeGraph.Syntax.Node

/-!
# Classes of nodes

Functions and classes open a scope of their own; a few statements may carry an export; everything
else is looked through.
-/
set_option autoImplicit false

namespace ScopeGraph.Syntax

inductive NodeClass where
  | functionLike
  | classLike
  | exportLike
  | other
  deriving DecidableEq, Repr

namespace NodeClass

def isScope : NodeClass → Bool
  | functionLike | classLike => true
  | exportLike | other => false

/-- A method counts as a function here: one that stands in no class body belongs to an object
literal. -/
def ofKind : Kind → NodeClass
  | .functionDeclaration | .generatorFunctionDeclaration | .functionExpression | .function
  | .generatorFunction | .arrowFunction | .methodDefinition => functionLike
  | .classDeclaration | .classExpression => classLike
  | .exportStatement | .expressionStatement => exportLike
  | _ => other

end NodeClass

namespace Node

def nodeClass (node : Node) : NodeClass := NodeClass.ofKind node.kind

def isScope (node : Node) : Bool := node.nodeClass.isScope

def isOpen (node : Node) : Bool := !node.isScope

/-- The scopes at or below a node that no other scope encloses, in document order. -/
def scopesInOrder (node : Node) : List Node := (node.visit isOpen).filter isScope

def scopesByDepth (node : Node) : List Node := (node.byDepth isOpen).filter isScope

end Node
end ScopeGraph.Syntax
