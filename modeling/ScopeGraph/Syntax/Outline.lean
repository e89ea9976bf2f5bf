import ScopeGraph.Syntax.Node

/-!
# Outlines

An outline lists the nodes of a tree in document order, each with its depth: the parent of a node
is the nearest earlier node that is one level up.
-/
set_option autoImplicit false

namespace ScopeGraph.Syntax

structure OutlineRow where
  depth : Nat
  kind : String
  span : Span
  field : Option String
  named : Bool
  faulty : Bool
  flagged : Bool

namespace Outline

/-- Puts a row in front of the trees of the rows after it and makes it the parent of the ones that
follow it one level down. -/
def graft (row : OutlineRow) (trees : List (Nat × Node)) : List (Nat × Node) :=
  let isChild (tree : Nat × Node) : Bool := tree.1 = row.depth + 1
  let node : Node :=
    { kind := Kind.ofName row.kind
      field := row.field.map Field.ofName
      span := row.span
      named := row.named
      faulty := row.faulty
      flagged := row.flagged
      children := (trees.takeWhile isChild).map Prod.snd }
  (row.depth, node) :: trees.dropWhile isChild

def root? (rows : List OutlineRow) : Option Node :=
  match rows.foldr graft [] with
  | [(0, node)] => some node
  | _ => none

end Outline
end ScopeGraph.Syntax
