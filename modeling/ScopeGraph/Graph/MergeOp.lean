import ScopeGraph.Graph.Key

/-!
# Merge operations

A merge makes sure that a node or a relationship is there and sets its properties; doing it again
changes nothing.
-/
set_option autoImplicit false

namespace ScopeGraph

structure NodeMerge where
  key : NodeKey
  /-- A second label: the name of the file that a declaration is from. -/
  tag? : Option String
  properties : Properties
  deriving DecidableEq

structure RelMerge where
  source : NodeKey
  kind : RelKind
  target : NodeKey
  properties : Properties
  deriving DecidableEq

inductive MergeOp where
  | node (merge : NodeMerge)
  | relationship (merge : RelMerge)
  deriving DecidableEq

namespace MergeOp

/-- A node without a tag. -/
def plainNode (key : NodeKey) (properties : List (String × String)) : MergeOp :=
  .node ⟨key, none, Dictionary.ofList properties⟩

/-- A relationship without properties. -/
def link (source : NodeKey) (kind : RelKind) (target : NodeKey) : MergeOp :=
  .relationship ⟨source, kind, target, .empty⟩

def display : MergeOp → String
  | node merge => s!"MERGE {merge.key.display}"
  | relationship merge =>
    s!"MERGE {merge.source.display} -{merge.kind.name}-> {merge.target.display}"

end MergeOp
end ScopeGraph
