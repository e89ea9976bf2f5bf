import ScopeGraph.Graph.Plan
import ScopeGraph.Proofs.Graph.Writes

/-!
# Merging twice

The last merge of a node decides on its properties, the last one with a tag on its tag; the last
merge of a relationship decides on its properties.  A second round of the same merges therefore
finds every row as it would leave it.
-/
set_option autoImplicit false

namespace ScopeGraph

namespace NodeRow

/-- Replaces what is given and keeps the rest. -/
def overlay (tag? properties? : Option String) (row : NodeRow) : NodeRow :=
  { row with tag? := tag?.or row.tag?, properties := properties?.getD row.properties }

theorem overlay_overlay (tag? properties? laterTag? laterProperties? : Option String)
    (row : NodeRow) :
    overlay laterTag? laterProperties? (overlay tag? properties? row) =
      overlay (laterTag?.or tag?) (laterProperties?.or properties?) row := by
  cases laterTag? <;> cases laterProperties? <;> rfl

theorem overlay_twice (tag? properties? : Option String) (row : NodeRow) :
    overlay tag? properties? (overlay tag? properties? row) = overlay tag? properties? row := by
  rw [overlay_overlay, Option.or_self, Option.or_self]

theorem exists_overlay_of_mem_nodeWrites {op : MergeOp} {write : Write NodeRow.key}
    (member : write ∈ op.nodeWrites) :
    ∃ tag? properties?, ∀ row, write.update row = overlay tag? properties? row := by
  cases op with
  | node merge =>
      have same : write = NodeRow.write merge := List.mem_singleton.mp member
      subst same
      exact ⟨merge.tag?, some merge.properties.toText, fun _ => rfl⟩
  | relationship merge =>
      simp only [MergeOp.nodeWrites, List.mem_cons, List.not_mem_nil, or_false] at member
      rcases member with rfl | rfl <;> exact ⟨none, none, fun _ => rfl⟩

/-- The last writers of a row: its writes together replace a tag and properties, if any. -/
theorem exists_overlay_of_writes (writes : List (Write NodeRow.key)) :
    (∀ write ∈ writes, ∃ op : MergeOp, write ∈ op.nodeWrites) →
      ∃ tag? properties?, ∀ row, Write.updateAll writes row = overlay tag? properties? row := by
  induction writes with
  | nil =>
      intro _
      exact ⟨none, none, fun _ => rfl⟩
  | cons write rest ih =>
      intro fromMerges
      obtain ⟨op, member⟩ := fromMerges write List.mem_cons_self
      obtain ⟨tag?, properties?, first⟩ := exists_overlay_of_mem_nodeWrites member
      obtain ⟨laterTag?, laterProperties?, later⟩ :=
        ih fun other inside => fromMerges other (List.mem_cons_of_mem write inside)
      refine ⟨laterTag?.or tag?, laterProperties?.or properties?, ?_⟩
      intro row
      rw [Write.updateAll_cons, later, first, overlay_overlay]

theorem absorbing_nodeWrites (ops : List MergeOp) :
    Write.Absorbing (ops.flatMap MergeOp.nodeWrites) := by
  intro part picked row
  have fromMerges : ∀ write ∈ part, ∃ op : MergeOp, write ∈ op.nodeWrites := by
    intro write member
    obtain ⟨op, _, inside⟩ := List.mem_flatMap.mp (picked.subset member)
    exact ⟨op, inside⟩
  obtain ⟨tag?, properties?, reads⟩ := exists_overlay_of_writes part fromMerges
  rw [reads, reads, overlay_twice]

theorem settled_nodeWrites (ops : List MergeOp) :
    Write.Settled (ops.flatMap MergeOp.nodeWrites) := by
  intro write member
  obtain ⟨op, _, inside⟩ := List.mem_flatMap.mp member
  cases op with
  | node merge =>
      have same : write = NodeRow.write merge := List.mem_singleton.mp inside
      subst same
      change NodeRow.update merge (ofMerge merge) = ofMerge merge
      simp [NodeRow.update, ofMerge]
  | relationship merge =>
      simp only [MergeOp.nodeWrites, List.mem_cons, List.not_mem_nil, or_false] at inside
      rcases inside with rfl | rfl <;> rfl

end NodeRow

namespace RelRow

/-- The last writer of a row decides on its properties. -/
theorem exists_properties_of_writes (writes : List (Write identity)) :
    (∀ write ∈ writes, ∃ op : MergeOp, write ∈ op.relWrites) →
      ∃ properties? : Option String, ∀ row, Write.updateAll writes row =
        { row with properties := properties?.getD row.properties } := by
  induction writes with
  | nil =>
      intro _
      exact ⟨none, fun _ => rfl⟩
  | cons write rest ih =>
      intro fromMerges
      obtain ⟨op, member⟩ := fromMerges write List.mem_cons_self
      obtain ⟨later?, later⟩ :=
        ih fun other inside => fromMerges other (List.mem_cons_of_mem write inside)
      cases op with
      | node merge => cases member
      | relationship merge =>
          have same : write = RelRow.write merge := List.mem_singleton.mp member
          subst same
          refine ⟨some (later?.getD merge.properties.toText), ?_⟩
          intro row
          rw [Write.updateAll_cons, later]
          rfl

theorem absorbing_relWrites (ops : List MergeOp) :
    Write.Absorbing (ops.flatMap MergeOp.relWrites) := by
  intro part picked row
  have fromMerges : ∀ write ∈ part, ∃ op : MergeOp, write ∈ op.relWrites := by
    intro write member
    obtain ⟨op, _, inside⟩ := List.mem_flatMap.mp (picked.subset member)
    exact ⟨op, inside⟩
  obtain ⟨properties?, reads⟩ := exists_properties_of_writes part fromMerges
  rw [reads, reads]
  cases properties? <;> rfl

theorem settled_relWrites (ops : List MergeOp) :
    Write.Settled (ops.flatMap MergeOp.relWrites) := by
  intro write member
  obtain ⟨op, _, inside⟩ := List.mem_flatMap.mp member
  cases op with
  | node merge => cases inside
  | relationship merge =>
      have same : write = RelRow.write merge := List.mem_singleton.mp inside
      subst same
      rfl

end RelRow

namespace Content

theorem mergeAll_twice (content : Content) (ops : List MergeOp) :
    (content.mergeAll ops).mergeAll ops = content.mergeAll ops := by
  have nodes : ((content.mergeAll ops).mergeAll ops).nodes = (content.mergeAll ops).nodes := by
    rw [nodes_mergeAll, nodes_mergeAll]
    exact Write.allInto_twice _ _ (NodeRow.absorbing_nodeWrites ops)
      (NodeRow.settled_nodeWrites ops)
  have relationships : ((content.mergeAll ops).mergeAll ops).relationships =
      (content.mergeAll ops).relationships := by
    rw [relationships_mergeAll, relationships_mergeAll]
    exact Write.allInto_twice _ _ (RelRow.absorbing_relWrites ops) (RelRow.settled_relWrites ops)
  exact eq_of_rows nodes relationships

/-- Merging a list of operations, or the plan of a scope, a second time changes no row of any
content. -/
theorem rerun_changes_nothing (content : Content) :
    (∀ ops : List MergeOp, (content.mergeAll ops).mergeAll ops = content.mergeAll ops) ∧
      ∀ (scope : Scope) (layout : Layout),
        (scope.plan layout).map (fun ops => (content.mergeAll ops).mergeAll ops) =
          (scope.plan layout).map content.mergeAll := by
  refine ⟨content.mergeAll_twice, ?_⟩
  intro scope layout
  cases scope.plan layout with
  | error cause => rfl
  | ok ops => exact congrArg Except.ok (content.mergeAll_twice ops)

end Content
end ScopeGraph
