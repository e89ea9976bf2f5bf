import Mathlib.Algebra.BigOperators.Group.List.Basic
import Mathlib.Algebra.GroupWithZero.Nat
import ScopeGraph.Proofs.Graph.Key
import ScopeGraph.Proofs.Graph.Writes
import ScopeGraph.Report.Stats
import ScopeGraph.Store.Database

/-!
# Integrity of the stored graph

A graph that merges have built has one row for each key, one for each relationship, and no
relationship that ends nowhere.  A merge keeps this, so it holds of what is committed and of what an
open transaction works on, whatever has been done with the database and however often it has been
opened.  Rows stay where they are and keep all that they are found by.
-/
set_option autoImplicit false

namespace ScopeGraph

open GraphStore (call)

/-! ## What writes keep -/

namespace Write

variable {ρ κ β : Type} {keyOf : ρ → κ} [DecidableEq κ]

/-- A view of the rows that updates do not change only grows. -/
theorem map_prefix_into (write : Write keyOf) (view : ρ → β)
    (keeps : ∀ row, view (write.update row) = view row) (rows : List ρ) :
    rows.map view <+: (write.into rows).map view := by
  induction rows with
  | nil => exact List.nil_prefix
  | cons row rest ih =>
      rw [into]
      split
      · have same : (row :: rest).map view = (write.update row :: rest).map view := by
          rw [List.map_cons, List.map_cons, keeps]
        exact ⟨[], by rw [List.append_nil, same]⟩
      · exact List.cons_prefix_cons.mpr ⟨rfl, ih⟩

theorem map_prefix_allInto (view : ρ → β) (writes : List (Write keyOf))
    (keeps : ∀ write ∈ writes, ∀ row, view (write.update row) = view row) (rows : List ρ) :
    rows.map view <+: (allInto writes rows).map view := by
  induction writes generalizing rows with
  | nil => exact List.prefix_rfl
  | cons write rest ih =>
      have first := write.map_prefix_into view (keeps write List.mem_cons_self) rows
      have later := ih (fun other member => keeps other (List.mem_cons_of_mem write member))
        (write.into rows)
      exact first.trans later

/-- What holds of the row to add and survives the update holds of all rows. -/
theorem forall_mem_into {holds : ρ → Prop} (write : Write keyOf) (fresh : holds write.fresh)
    (update : ∀ row, holds row → holds (write.update row)) {rows : List ρ}
    (before : ∀ row ∈ rows, holds row) : ∀ row ∈ write.into rows, holds row := by
  induction rows with
  | nil =>
      intro row member
      rw [List.mem_singleton.mp member]
      exact fresh
  | cons head rest ih =>
      obtain ⟨here, others⟩ := List.forall_mem_cons.mp before
      rw [into]
      split
      · exact List.forall_mem_cons.mpr ⟨update head here, others⟩
      · exact List.forall_mem_cons.mpr ⟨here, ih others⟩

theorem forall_mem_allInto {holds : ρ → Prop} (writes : List (Write keyOf))
    (fresh : ∀ write ∈ writes, holds write.fresh)
    (update : ∀ write ∈ writes, ∀ row, holds row → holds (write.update row)) {rows : List ρ}
    (before : ∀ row ∈ rows, holds row) : ∀ row ∈ allInto writes rows, holds row := by
  induction writes generalizing rows with
  | nil => exact before
  | cons write rest ih =>
      obtain ⟨first, laterFresh⟩ := List.forall_mem_cons.mp fresh
      obtain ⟨kept, laterUpdate⟩ := List.forall_mem_cons.mp update
      exact ih laterFresh laterUpdate (write.forall_mem_into first kept before)

end Write

namespace NodeRow

/-- What a row is found by: its label, its key and its name. -/
def fixed (row : NodeRow) : Label × String × NameCell := (row.label, row.key, row.name)

/-- The key is the text of a node key, and the label is the one in that text. -/
def Labelled (row : NodeRow) : Prop :=
  (∃ key : NodeKey, row.key = key.canonical) ∧
    ∀ key : NodeKey, row.key = key.canonical → row.label = key.label

theorem labelled_ofMerge (merge : NodeMerge) : (ofMerge merge).Labelled := by
  refine ⟨⟨merge.key, rfl⟩, ?_⟩
  intro key same
  exact ((NodeKey.canonical_eq_iff merge.key key).mp same).1

end NodeRow

namespace MergeOp

theorem nodeWrite_cases {op : MergeOp} {write : Write NodeRow.key}
    (member : write ∈ op.nodeWrites) :
    (∃ merge, write.fresh = NodeRow.ofMerge merge) ∧
      ∀ row, (write.update row).fixed = row.fixed := by
  cases op with
  | node merge =>
      cases List.mem_singleton.mp member
      exact ⟨⟨merge, rfl⟩, fun _ => rfl⟩
  | relationship merge =>
      simp only [nodeWrites, List.mem_cons, List.not_mem_nil, or_false] at member
      rcases member with rfl | rfl
      · exact ⟨⟨_, rfl⟩, fun _ => rfl⟩
      · exact ⟨⟨_, rfl⟩, fun _ => rfl⟩

end MergeOp

namespace Content

/-! ## Rows stay -/

/-- Every row is still at its position, with the same label, key and name, or the same ends and
kind. -/
structure KeptBy (before after : Content) : Prop where
  nodes : before.nodes.map NodeRow.fixed <+: after.nodes.map NodeRow.fixed
  relationships :
    before.relationships.map RelRow.identity <+: after.relationships.map RelRow.identity

theorem KeptBy.refl (content : Content) : content.KeptBy content :=
  ⟨List.prefix_rfl, List.prefix_rfl⟩

theorem keptBy_merge (content : Content) (op : MergeOp) : content.KeptBy (content.merge op) where
  nodes := by
    rw [nodes_merge]
    exact Write.map_prefix_allInto NodeRow.fixed op.nodeWrites
      (fun _ member => (MergeOp.nodeWrite_cases member).2) content.nodes
  relationships := by
    rw [relationships_merge]
    exact Write.map_prefix_allInto RelRow.identity op.relWrites
      (fun write _ => write.keyOf_update) content.relationships

theorem KeptBy.mem_keys {before after : Content} (kept : before.KeptBy after) {key : String}
    (member : key ∈ before.nodes.map NodeRow.key) : key ∈ after.nodes.map NodeRow.key := by
  have keys : ∀ content : Content, content.nodes.map NodeRow.key =
      (content.nodes.map NodeRow.fixed).map fun fixed => fixed.2.1 := by
    intro content
    rw [List.map_map]
    rfl
  rw [keys] at member ⊢
  exact (kept.nodes.map _).subset member

/-! ## Integrity -/

/-- Keys and relationships are there once, a row has the label that its key tells, and the ends of
every relationship are nodes. -/
structure Integral (content : Content) : Prop where
  nodup_keys : (content.nodes.map NodeRow.key).Nodup
  labelled : ∀ row ∈ content.nodes, row.Labelled
  nodup_relationships : (content.relationships.map RelRow.identity).Nodup
  ends_exist : ∀ row ∈ content.relationships,
    row.source ∈ content.nodes.map NodeRow.key ∧ row.target ∈ content.nodes.map NodeRow.key

theorem integral_empty : empty.Integral := by
  constructor <;> simp [empty]

theorem ends_exist_merge (content : Content) (op : MergeOp)
    (before : ∀ row ∈ content.relationships,
      row.source ∈ content.nodes.map NodeRow.key ∧ row.target ∈ content.nodes.map NodeRow.key) :
    ∀ row ∈ (content.merge op).relationships,
      row.source ∈ (content.merge op).nodes.map NodeRow.key ∧
        row.target ∈ (content.merge op).nodes.map NodeRow.key := by
  have kept := content.keptBy_merge op
  have old : ∀ row ∈ content.relationships,
      row.source ∈ (content.merge op).nodes.map NodeRow.key ∧
        row.target ∈ (content.merge op).nodes.map NodeRow.key := by
    intro row member
    obtain ⟨source, target⟩ := before row member
    exact ⟨kept.mem_keys source, kept.mem_keys target⟩
  cases op with
  | node merge => exact old
  | relationship merge =>
      -- The ends are made sure of before the row is written.
      have ends : ∀ key, key = merge.source.canonical ∨ key = merge.target.canonical →
          key ∈ (content.merge (.relationship merge)).nodes.map NodeRow.key := by
        intro key either
        rw [nodes_merge, Write.mem_keys_allInto]
        rcases either with rfl | rfl
        · exact .inl ⟨NodeRow.touch merge.source, by simp [MergeOp.nodeWrites], rfl⟩
        · exact .inl ⟨NodeRow.touch merge.target, by simp [MergeOp.nodeWrites], rfl⟩
      rw [relationships_merge]
      refine Write.forall_mem_allInto _ ?_ ?_ old
      · intro write member
        cases List.mem_singleton.mp member
        exact ⟨ends _ (.inl rfl), ends _ (.inr rfl)⟩
      · intro write member row exist
        cases List.mem_singleton.mp member
        exact exist

theorem Integral.merge {content : Content} (integral : content.Integral) (op : MergeOp) :
    (content.merge op).Integral where
  nodup_keys := by
    rw [nodes_merge]
    exact Write.nodup_keys_allInto _ _ integral.nodup_keys
  labelled := by
    rw [nodes_merge]
    refine Write.forall_mem_allInto _ ?_ ?_ integral.labelled
    · intro write member
      obtain ⟨merge, made⟩ := (MergeOp.nodeWrite_cases member).1
      rw [made]
      exact NodeRow.labelled_ofMerge merge
    · intro write member row labelled
      have fixed := (MergeOp.nodeWrite_cases member).2 row
      simp only [NodeRow.fixed, Prod.mk.injEq] at fixed
      rw [NodeRow.Labelled, fixed.1, fixed.2.1]
      exact labelled
  nodup_relationships := by
    rw [relationships_merge]
    exact Write.nodup_keys_allInto _ _ integral.nodup_relationships
  ends_exist := content.ends_exist_merge op integral.ends_exist

end Content

/-! ## Counts add up -/

theorem sum_map_ite_eq_count {β : Type} [DecidableEq β] (values : List β) (value : β) :
    (values.map fun other => if value = other then 1 else 0).sum = values.count value := by
  induction values with
  | nil => rfl
  | cons head rest ih =>
      rw [List.map_cons, List.sum_cons, ih, List.count_cons, Nat.add_comm]
      by_cases same : value = head
      · simp [same]
      · have differ : head ≠ value := fun equal => same equal.symm
        simp [same, differ]

/-- The rows of each value are all rows taken together, if each value is listed once. -/
theorem sum_countP_eq_length {ρ β : Type} [DecidableEq β] (values : List β) (valueOf : ρ → β)
    (once : ∀ value, values.count value = 1) (rows : List ρ) :
    (values.map fun value => rows.countP (valueOf · = value)).sum = rows.length := by
  induction rows with
  | nil => simp
  | cons row rest ih =>
      have here := (sum_map_ite_eq_count values (valueOf row)).trans (once (valueOf row))
      simp only [List.countP_cons, decide_eq_true_eq, List.sum_map_add, ih, here,
        List.length_cons]

namespace Stats

theorem nodes_eq_sum (content : Content) :
    (ofContent content).nodes = ((ofContent content).byLabel.map Prod.snd).sum := by
  have counted := sum_countP_eq_length Label.all NodeRow.label
    (fun label => by cases label <;> rfl) content.nodes
  simp only [ofContent, Content.nodeCount, List.map_map]
  exact counted.symm

theorem relationships_eq_sum (content : Content) :
    (ofContent content).relationships = ((ofContent content).byKind.map Prod.snd).sum := by
  have counted := sum_countP_eq_length RelKind.all RelRow.kind
    (fun kind => by cases kind <;> rfl) content.relationships
  simp only [ofContent, Content.relationshipCount, List.map_map]
  exact counted.symm

end Stats

/-! ## Whatever is done with a database -/

namespace Database

/-- What can be done with a database file: calls on the open store, and opening it anew, which
loses an open transaction. -/
inductive Step where
  | call (next : StoreCall)
  | reopen

def step (database : Database) : Step → Database
  | .call next => (call next database).state
  | .reopen => ofContent database.committed

def run (database : Database) (steps : List Step) : Database := steps.foldl step database

/-- The committed content and that of an open transaction have integrity. -/
structure Integral (database : Database) : Prop where
  committed : database.committed.Integral
  working : ∀ working ∈ database.working?, working.Integral

theorem integral_ofContent {content : Content} (integral : content.Integral) :
    (ofContent content).Integral :=
  ⟨integral, fun _ member => nomatch member⟩

theorem Integral.content {database : Database} (integral : database.Integral) :
    database.content.Integral := by
  obtain ⟨committed, working?, isOpen⟩ := database
  cases working? with
  | none => exact integral.committed
  | some working => exact integral.working working rfl

theorem Integral.call {database : Database} (integral : database.Integral) (next : StoreCall) :
    (GraphStore.call next database).state.Integral := by
  obtain ⟨committed, working?, isOpen⟩ := database
  obtain ⟨kept, working⟩ := integral
  cases isOpen with
  | false => cases next <;> cases working? <;> exact ⟨kept, working⟩
  | true =>
      cases working? with
      | none =>
          cases next with
          | start =>
              refine ⟨kept, ?_⟩
              rintro _ ⟨⟩
              exact kept
          | merge op => exact ⟨kept.merge op, working⟩
          | commit => exact ⟨kept, working⟩
          | rollback => exact ⟨kept, working⟩
          | close => exact ⟨kept, working⟩
      | some current =>
          have here : current.Integral := working current rfl
          cases next with
          | start => exact ⟨kept, working⟩
          | merge op =>
              refine ⟨kept, ?_⟩
              rintro _ ⟨⟩
              exact here.merge op
          | commit => exact integral_ofContent here
          | rollback => exact integral_ofContent kept
          | close => exact ⟨kept, fun _ member => nomatch member⟩

theorem Integral.step {database : Database} (integral : database.Integral) (step : Step) :
    (database.step step).Integral := by
  cases step with
  | call next => exact integral.call next
  | reopen => exact integral_ofContent integral.committed

theorem Integral.run {database : Database} (integral : database.Integral) (steps : List Step) :
    (database.run steps).Integral := by
  induction steps generalizing database with
  | nil => exact integral
  | cons step rest ih => exact ih (integral.step step)

theorem keptBy_call_merge (database : Database) (op : MergeOp) :
    database.committed.KeptBy (GraphStore.call (.merge op) database).state.committed ∧
      database.content.KeptBy (GraphStore.call (.merge op) database).state.content := by
  obtain ⟨committed, working?, isOpen⟩ := database
  cases isOpen with
  | false => exact ⟨.refl _, .refl _⟩
  | true =>
      cases working? with
      | none => exact ⟨committed.keptBy_merge op, committed.keptBy_merge op⟩
      | some working => exact ⟨.refl _, working.keptBy_merge op⟩

end Database

/-- However a database has been used since it was empty, both what it has committed and what it
shows have integrity, its statistics add up, and merging leaves every row where and what it is. -/
theorem stored_graph_has_integrity (steps : List Database.Step) :
    let database := (Database.ofContent .empty).run steps
    database.committed.Integral ∧ database.content.Integral ∧
      (∃ stats : Stats,
        (database.ask fun content => .ok (Stats.ofContent content)) =
          (if database.isOpen then .ok stats else .error .storeClosed) ∧
        stats.nodes = database.content.nodes.length ∧
        stats.nodes = (stats.byLabel.map Prod.snd).sum ∧
        stats.relationships = database.content.relationships.length ∧
        stats.relationships = (stats.byKind.map Prod.snd).sum) ∧
      ∀ op : MergeOp,
        database.committed.KeptBy (call (.merge op) database).state.committed ∧
          database.content.KeptBy (call (.merge op) database).state.content := by
  intro database
  have integral : database.Integral :=
    (Database.integral_ofContent Content.integral_empty).run steps
  refine ⟨integral.committed, integral.content, ?_, database.keptBy_call_merge⟩
  exact ⟨Stats.ofContent database.content, rfl, rfl, Stats.nodes_eq_sum _, rfl,
    Stats.relationships_eq_sum _⟩

end ScopeGraph
