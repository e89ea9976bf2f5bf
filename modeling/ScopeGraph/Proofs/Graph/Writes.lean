import ScopeGraph.Graph.Content
import ScopeGraph.Proofs.Graph.Table

/-!
# Merges as writes to two tables

Merging an operation writes to the table of nodes and to the table of relationships.  A node merge
writes its node; a relationship merge touches both its ends, which adds them if need be and changes
nothing else, and writes its relationship.
-/
set_option autoImplicit false

namespace ScopeGraph

namespace NodeRow

def write (merge : NodeMerge) : Write NodeRow.key where
  key := merge.key.canonical
  fresh := ofMerge merge
  update := update merge
  keyOf_fresh := rfl
  keyOf_update := fun _ => rfl

/-- Makes sure of a node without a change to it. -/
def touch (key : NodeKey) : Write NodeRow.key where
  key := key.canonical
  fresh := ofKey key
  update := id
  keyOf_fresh := rfl
  keyOf_update := fun _ => rfl

theorem mergeInto_eq_into (merge : NodeMerge) (rows : List NodeRow) :
    mergeInto merge rows = (write merge).into rows := by
  induction rows with
  | nil => rfl
  | cons row rest ih =>
      rw [mergeInto, Write.into, ih]
      rfl

theorem ensure_eq_into (key : NodeKey) (rows : List NodeRow) :
    ensure key rows = (touch key).into rows := by
  induction rows with
  | nil => rfl
  | cons row rest ih =>
      rw [ensure, Write.into, ih]
      rfl

end NodeRow

namespace RelRow

/-- By what a relationship is found: its ends and its kind. -/
def identity (row : RelRow) : String × RelKind × String := (row.source, row.kind, row.target)

def write (merge : RelMerge) : Write identity where
  key := (ofMerge merge).identity
  fresh := ofMerge merge
  update := fun row => { row with properties := merge.properties.toText }
  keyOf_fresh := rfl
  keyOf_update := fun _ => rfl

theorem matches_iff (merge : RelMerge) (row : RelRow) :
    Matches merge row ↔ row.identity = (ofMerge merge).identity := by
  simp [Matches, identity, ofMerge]

theorem mergeInto_eq_into (merge : RelMerge) (rows : List RelRow) :
    mergeInto merge rows = (write merge).into rows := by
  induction rows with
  | nil => rfl
  | cons row rest ih =>
      rw [mergeInto, Write.into, ih]
      simp only [matches_iff]
      rfl

end RelRow

namespace MergeOp

def nodeWrites : MergeOp → List (Write NodeRow.key)
  | node merge => [NodeRow.write merge]
  | relationship merge => [NodeRow.touch merge.source, NodeRow.touch merge.target]

def relWrites : MergeOp → List (Write RelRow.identity)
  | node _ => []
  | relationship merge => [RelRow.write merge]

end MergeOp

namespace Content

theorem eq_of_rows {first second : Content} (nodes : first.nodes = second.nodes)
    (relationships : first.relationships = second.relationships) : first = second := by
  cases first
  cases second
  cases nodes
  cases relationships
  rfl

theorem nodes_merge (content : Content) (op : MergeOp) :
    (content.merge op).nodes = Write.allInto op.nodeWrites content.nodes := by
  cases op with
  | node merge => exact NodeRow.mergeInto_eq_into merge content.nodes
  | relationship merge =>
      simp only [Content.merge, MergeOp.nodeWrites, Write.allInto_cons, Write.allInto_nil,
        NodeRow.ensure_eq_into]

theorem relationships_merge (content : Content) (op : MergeOp) :
    (content.merge op).relationships = Write.allInto op.relWrites content.relationships := by
  cases op with
  | node merge => rfl
  | relationship merge => exact RelRow.mergeInto_eq_into merge content.relationships

theorem nodes_mergeAll (content : Content) (ops : List MergeOp) :
    (content.mergeAll ops).nodes =
      Write.allInto (ops.flatMap MergeOp.nodeWrites) content.nodes := by
  induction ops generalizing content with
  | nil => rfl
  | cons op rest ih =>
      rw [List.flatMap_cons, Write.allInto_append, ← nodes_merge]
      exact ih (content.merge op)

theorem relationships_mergeAll (content : Content) (ops : List MergeOp) :
    (content.mergeAll ops).relationships =
      Write.allInto (ops.flatMap MergeOp.relWrites) content.relationships := by
  induction ops generalizing content with
  | nil => rfl
  | cons op rest ih =>
      rw [List.flatMap_cons, Write.allInto_append, ← relationships_merge]
      exact ih (content.merge op)

end Content
end ScopeGraph
