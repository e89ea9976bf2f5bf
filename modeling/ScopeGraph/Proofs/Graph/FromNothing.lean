import ScopeGraph.Proofs.Graph.Writes

/-!
# What merges build from nothing

Merged into an empty content, operations leave one row for each relationship they name, as its last
merge has it.  If every end of a relationship is merged as a node too, and a node merge replaces
what others of its key have made, no node is left as a bare end.  If no two node merges disagree on
a key, they leave exactly the rows of the node merges.
-/
set_option autoImplicit false

namespace ScopeGraph

def MergeOp.nodeMerge? : MergeOp → Option NodeMerge
  | node merge => some merge
  | relationship _ => none

def MergeOp.relMerge? : MergeOp → Option RelMerge
  | node _ => none
  | relationship merge => some merge

def nodeMerges (ops : List MergeOp) : List NodeMerge := ops.filterMap MergeOp.nodeMerge?

def relMerges (ops : List MergeOp) : List RelMerge := ops.filterMap MergeOp.relMerge?

theorem mem_nodeMerges {ops : List MergeOp} {merge : NodeMerge} :
    merge ∈ nodeMerges ops ↔ .node merge ∈ ops := by
  rw [nodeMerges, List.mem_filterMap]
  constructor
  · rintro ⟨op, member, same⟩
    cases op with
    | node found =>
        cases same
        exact member
    | relationship link => cases same
  · intro member
    exact ⟨_, member, rfl⟩

theorem mem_relMerges {ops : List MergeOp} {merge : RelMerge} :
    merge ∈ relMerges ops ↔ .relationship merge ∈ ops := by
  rw [relMerges, List.mem_filterMap]
  constructor
  · rintro ⟨op, member, same⟩
    cases op with
    | node found => cases same
    | relationship link =>
        cases same
        exact member
  · intro member
    exact ⟨_, member, rfl⟩

namespace Content

theorem nodup_keys_mergeAll (ops : List MergeOp) :
    ((empty.mergeAll ops).nodes.map NodeRow.key).Nodup := by
  rw [nodes_mergeAll]
  exact Write.nodup_keys_allInto _ _ List.nodup_nil

theorem flatMap_relWrites (ops : List MergeOp) :
    ops.flatMap MergeOp.relWrites = (relMerges ops).map RelRow.write := by
  induction ops with
  | nil => rfl
  | cons op rest ih =>
      rw [List.flatMap_cons, ih]
      cases op <;> rfl

/-- The later merge leaves nothing of what the earlier one, or a link to its key, has made. -/
structure Replaces (later earlier : NodeMerge) : Prop where
  merged : NodeRow.update later (NodeRow.ofMerge earlier) = NodeRow.ofMerge later
  touched : NodeRow.update later (NodeRow.ofKey earlier.key) = NodeRow.ofMerge later

theorem Replaces.refl (merge : NodeMerge) : Replaces merge merge where
  merged := by simp [NodeRow.update, NodeRow.ofMerge]
  touched := by simp [NodeRow.update, NodeRow.ofKey, NodeRow.ofMerge]

/-- All ends of relationships are merged as nodes. -/
structure MergesEnds (ops : List MergeOp) : Prop where
  source : ∀ link ∈ relMerges ops, ∃ merge ∈ nodeMerges ops, merge.key = link.source
  target : ∀ link ∈ relMerges ops, ∃ merge ∈ nodeMerges ops, merge.key = link.target

/-- All ends are merged, and node merges of one key replace each other. -/
structure Closed (ops : List MergeOp) : Prop extends MergesEnds ops where
  replaces : ∀ first ∈ nodeMerges ops, ∀ second ∈ nodeMerges ops,
    first.key.canonical = second.key.canonical → Replaces second first

theorem mem_flatMap_nodeWrites {ops : List MergeOp} {write : Write NodeRow.key}
    (member : write ∈ ops.flatMap MergeOp.nodeWrites) :
    (∃ merge ∈ nodeMerges ops, write = NodeRow.write merge) ∨
      ∃ link ∈ relMerges ops,
        write = NodeRow.touch link.source ∨ write = NodeRow.touch link.target := by
  obtain ⟨op, inside, written⟩ := List.mem_flatMap.mp member
  cases op with
  | node merge =>
      exact .inl ⟨merge, mem_nodeMerges.mpr inside, List.mem_singleton.mp written⟩
  | relationship link =>
      simp only [MergeOp.nodeWrites, List.mem_cons, List.not_mem_nil, or_false] at written
      exact .inr ⟨link, mem_relMerges.mpr inside, written⟩

theorem write_mem_nodeWrites {ops : List MergeOp} {merge : NodeMerge}
    (member : merge ∈ nodeMerges ops) :
    NodeRow.write merge ∈ ops.flatMap MergeOp.nodeWrites := by
  exact List.mem_flatMap.mpr ⟨_, mem_nodeMerges.mp member, List.mem_singleton_self _⟩

/-- A write of a closed list writes a node merge or touches its key. -/
theorem Closed.write_cases {ops : List MergeOp} (closed : Closed ops)
    {write : Write NodeRow.key} (member : write ∈ ops.flatMap MergeOp.nodeWrites) :
    ∃ merge ∈ nodeMerges ops, write.key = merge.key.canonical ∧
      (write = NodeRow.write merge ∨ write = NodeRow.touch merge.key) := by
  rcases mem_flatMap_nodeWrites member with ⟨merge, planned, same⟩ | ⟨link, linked, ends⟩
  · subst same
    exact ⟨merge, planned, rfl, .inl rfl⟩
  · rcases ends with same | same
    · obtain ⟨merge, planned, key⟩ := closed.source link linked
      subst same
      exact ⟨merge, planned, by rw [key]; rfl, .inr (by rw [key])⟩
    · obtain ⟨merge, planned, key⟩ := closed.target link linked
      subst same
      exact ⟨merge, planned, by rw [key]; rfl, .inr (by rw [key])⟩

/-- Once a node is merged it stays as one of its merges has it; before that it is absent or a bare
end. -/
theorem foldl_nodeWrites {merges : List NodeMerge}
    (replaces : ∀ first ∈ merges, ∀ second ∈ merges, Replaces second first)
    (writes : List (Write NodeRow.key)) :
    ∀ found : Option NodeRow,
      (∀ write ∈ writes, ∃ merge ∈ merges,
        write = NodeRow.write merge ∨ write = NodeRow.touch merge.key) →
      ((∃ merge ∈ merges, found = some (NodeRow.ofMerge merge)) ∨
        (found = none ∨ ∃ merge ∈ merges, found = some (NodeRow.ofKey merge.key)) ∧
          ∃ merge ∈ merges, NodeRow.write merge ∈ writes) →
      ∃ merge ∈ merges,
        writes.foldl (fun found write => some (found.elim write.fresh write.update)) found =
          some (NodeRow.ofMerge merge) := by
  induction writes with
  | nil =>
      rintro found _ (done | ⟨_, _, _, member⟩)
      · exact done
      · cases member
  | cons write rest ih =>
      intro found all current
      have later := fun other member => all other (List.mem_cons_of_mem write member)
      rw [List.foldl_cons]
      apply ih _ later
      by_cases merged : ∃ merge ∈ merges, write = NodeRow.write merge
      · obtain ⟨merge, listed, same⟩ := merged
        subst same
        refine .inl ⟨merge, listed, congrArg some ?_⟩
        rcases current with ⟨other, known, rfl⟩ | ⟨rfl | ⟨other, known, rfl⟩, _⟩
        · exact (replaces other known merge listed).merged
        · rfl
        · exact (replaces other known merge listed).touched
      · obtain ⟨merge, listed, shape⟩ := all write List.mem_cons_self
        have touched : write = NodeRow.touch merge.key :=
          shape.resolve_left fun same => merged ⟨merge, listed, same⟩
        subst touched
        rcases current with ⟨other, known, rfl⟩ | ⟨bare, awaited, planned, member⟩
        · exact .inl ⟨other, known, rfl⟩
        · have member : NodeRow.write awaited ∈ rest :=
            (List.mem_cons.mp member).resolve_left fun same => merged ⟨awaited, planned, same.symm⟩
          refine .inr ⟨.inr ?_, awaited, planned, member⟩
          rcases bare with rfl | ⟨other, known, rfl⟩
          · exact ⟨merge, listed, rfl⟩
          · exact ⟨other, known, rfl⟩

theorem Closed.lookup_nodes {ops : List MergeOp} (closed : Closed ops) {merge : NodeMerge}
    (planned : merge ∈ nodeMerges ops) :
    ∃ last ∈ nodeMerges ops, last.key.canonical = merge.key.canonical ∧
      Write.lookup NodeRow.key merge.key.canonical (empty.mergeAll ops).nodes =
        some (NodeRow.ofMerge last) := by
  let merges := (nodeMerges ops).filter (·.key.canonical = merge.key.canonical)
  have listed : ∀ {other}, other ∈ merges ↔
      other ∈ nodeMerges ops ∧ other.key.canonical = merge.key.canonical := by
    simp [merges]
  have replaces : ∀ first ∈ merges, ∀ second ∈ merges, Replaces second first := by
    intro first firstListed second secondListed
    exact closed.replaces first (listed.mp firstListed).1 second (listed.mp secondListed).1
      ((listed.mp firstListed).2.trans (listed.mp secondListed).2.symm)
  have shapes : ∀ write ∈ Write.on merge.key.canonical (ops.flatMap MergeOp.nodeWrites),
      ∃ other ∈ merges, write = NodeRow.write other ∨ write = NodeRow.touch other.key := by
    intro write member
    obtain ⟨inside, key⟩ := List.mem_filter.mp member
    obtain ⟨other, otherPlanned, otherKey, shape⟩ := closed.write_cases inside
    exact ⟨other, listed.mpr ⟨otherPlanned, otherKey.symm.trans (of_decide_eq_true key)⟩, shape⟩
  have awaited : NodeRow.write merge ∈
      Write.on merge.key.canonical (ops.flatMap MergeOp.nodeWrites) :=
    List.mem_filter.mpr ⟨write_mem_nodeWrites planned, decide_eq_true rfl⟩
  rw [nodes_mergeAll, Write.lookup_allInto]
  obtain ⟨last, among, found⟩ := foldl_nodeWrites replaces _ none shapes
    (.inr ⟨.inl rfl, merge, listed.mpr ⟨planned, rfl⟩, awaited⟩)
  exact ⟨last, (listed.mp among).1, (listed.mp among).2, found⟩

/-- Every node of a closed list stands as one of its merges has it. -/
theorem Closed.exists_nodeMerge_of_mem {ops : List MergeOp} (closed : Closed ops) {row : NodeRow}
    (member : row ∈ (empty.mergeAll ops).nodes) :
    ∃ merge ∈ nodeMerges ops, row = NodeRow.ofMerge merge := by
  have found := (Write.mem_iff_lookup _ (nodup_keys_mergeAll ops) row).mp member
  have key : row.key ∈ (empty.mergeAll ops).nodes.map NodeRow.key := List.mem_map_of_mem member
  rw [nodes_mergeAll, Write.mem_keys_allInto] at key
  rcases key with ⟨write, written, same⟩ | absent
  · obtain ⟨merge, planned, mergeKey, _⟩ := closed.write_cases written
    obtain ⟨last, lastPlanned, _, stands⟩ := closed.lookup_nodes planned
    refine ⟨last, lastPlanned, ?_⟩
    rw [← same, mergeKey, stands] at found
    exact (Option.some.inj found).symm
  · cases absent

/-! ## Nodes of a coherent list -/

/-- All ends are merged, and node merges of one key are the same merge. -/
structure Coherent (ops : List MergeOp) : Prop extends MergesEnds ops where
  agree : ∀ first ∈ nodeMerges ops, ∀ second ∈ nodeMerges ops,
    first.key.canonical = second.key.canonical → first = second

theorem Coherent.closed {ops : List MergeOp} (coherent : Coherent ops) : Closed ops where
  toMergesEnds := coherent.toMergesEnds
  replaces first firstPlanned second secondPlanned same := by
    rw [coherent.agree first firstPlanned second secondPlanned same]
    exact .refl second

end Content
end ScopeGraph
