import Mathlib.Data.List.Dedup
import ScopeGraph.Proofs.Graph.Key
import ScopeGraph.Proofs.Graph.PlanMerges
import ScopeGraph.Proofs.Scope.Entries
import ScopeGraph.Proofs.Store.Database

/-!
# The graph of a scope

A scope whose entries have different qualified names determines its graph: the nodes, each with its
properties, and the relationships between them.  Applying the plan of the scope to an empty database
commits this graph and nothing else.
-/
set_option autoImplicit false

namespace ScopeGraph

open GraphStore (apply)

namespace Plan

/-! ## The graph -/

end Plan

section Distinct

variable {scope : Scope} (distinct : (scope.entries.map Entry.qualifiedName).Nodup)

include distinct

theorem Scope.entry_eq_of_key {path : String} {first second : Entry}
    (firstMember : first ∈ scope.entries) (secondMember : second ∈ scope.entries)
    (same : (Plan.entryKey path first).canonical = (Plan.entryKey path second).canonical) :
    first = second := by
  obtain ⟨owners, names, classes⟩ := Plan.canonical_entryKey_inj same
  apply List.inj_on_of_nodup_map distinct firstMember secondMember
  rcases scope.entry_cases firstMember with ⟨firstTop, firstName⟩ | ⟨holder, _, firstHeld⟩
  · rcases scope.entry_cases secondMember with ⟨_, secondName⟩ | ⟨_, _, secondHeld⟩
    · rw [firstName, secondName, Scope.topLevelName, Scope.topLevelName, names]
      simp only [classes firstTop]
    · rw [firstTop, secondHeld.owner] at owners
      cases owners
  · rcases scope.entry_cases secondMember with ⟨secondTop, _⟩ | ⟨other, _, secondHeld⟩
    · rw [firstHeld.owner, secondTop] at owners
      cases owners
    · rw [firstHeld.owner, secondHeld.owner] at owners
      rw [firstHeld.qualifiedName, secondHeld.qualifiedName, Option.some.inj owners, names]

theorem Scope.find_holder {holder : Entry} (holding : holder ∈ scope.entries) :
    scope.entries.reverse.find? (·.qualifiedName = holder.qualifiedName) = some holder := by
  have reversed : (scope.entries.reverse.map Entry.qualifiedName).Nodup := by
    rw [List.map_reverse]
    exact List.nodup_reverse.mpr distinct
  exact (Write.mem_iff_lookup _ reversed holder).mp (List.mem_reverse.mpr holding)

theorem Scope.declares_of_find {member holder : Entry} {owner : String}
    (held : member ∈ scope.entries) (owned : member.owner? = some owner)
    (search : scope.entries.reverse.find? (·.qualifiedName = owner) = some holder) :
    holder ∈ scope.entries ∧ holder.Declares member := by
  rcases scope.entry_cases held with ⟨top, _⟩ | ⟨found, holding, declares⟩
  · rw [owned] at top
    cases top
  · have name := declares.owner
    rw [owned] at name
    rw [Option.some.inj name, Scope.find_holder distinct holding] at search
    cases search
    exact ⟨holding, declares⟩

end Distinct

namespace Plan

/-! ## Nodes -/

section Nodes

variable (layout : Layout) (path : String) (place : Containment) (entries : List Entry)

/-- The label of a node merge tells which part of the plan it is from. -/
theorem nodeMerge_of_label {merge : NodeMerge}
    (planned : merge ∈ nodeMerges (ops layout path place entries)) :
    match merge.key.label with
    | .folder => ∃ name, merge = folderMerge name
    | .file => merge = fileMerge path place.fileName
    | .callee => ∃ segment, merge = calleeMerge path segment
    | _ => ∃ entry ∈ entries, merge = entryMerge layout path place.fileName entry := by
  rcases (mem_nodeMerges_ops layout path place entries merge).mp planned with
    ⟨name, _, rfl⟩ | rfl | ⟨entry, member, rfl⟩ | ⟨segment, _, rfl⟩
  · exact ⟨name, rfl⟩
  · rfl
  · change match (entryKey path entry).label with
      | .folder => _
      | .file => _
      | .callee => _
      | _ => _
    rcases label_entryKey_cases path entry with label | label | label <;> rw [label] <;>
      exact ⟨entry, member, rfl⟩
  · exact ⟨segment, rfl⟩

/-- Two node merges of one key are the same, unless both are from entries. -/
theorem eq_or_entries_of_key {layout : Layout} {path : String} {place : Containment}
    {entries : List Entry} {first second : NodeMerge}
    (firstPlanned : first ∈ nodeMerges (ops layout path place entries))
    (secondPlanned : second ∈ nodeMerges (ops layout path place entries))
    (same : first.key.canonical = second.key.canonical) :
    first = second ∨ ∃ entry ∈ entries, ∃ other ∈ entries,
      first = entryMerge layout path place.fileName entry ∧
        second = entryMerge layout path place.fileName other := by
  -- The keys have one label, which leaves one part of the plan for the second merge.
  have labels := ((NodeKey.canonical_eq_iff _ _).mp same).1
  have shape := nodeMerge_of_label layout path place entries secondPlanned
  rw [← labels] at shape
  rcases (mem_nodeMerges_ops layout path place entries first).mp firstPlanned with
    ⟨name, _, rfl⟩ | rfl | ⟨entry, member, rfl⟩ | ⟨segment, _, rfl⟩
  · obtain ⟨other, rfl⟩ := shape
    exact .inl (by rw [canonical_folderKey_inj same])
  · exact .inl shape.symm
  · obtain ⟨other, otherMember, rfl⟩ : ∃ other ∈ entries,
        second = entryMerge layout path place.fileName other := by
      rcases label_entryKey_cases path entry with label | label | label <;>
        simpa only [entryMerge, label] using shape
    exact .inr ⟨entry, member, other, otherMember, rfl, rfl⟩
  · obtain ⟨other, rfl⟩ := shape
    exact .inl (by rw [canonical_calleeKey_inj same])

theorem mergesEnds_ops : Content.MergesEnds (ops layout path place entries) where
  source _ linked := (ends_of_mem_relMerges_ops layout path place entries linked).1
  target _ linked := (ends_of_mem_relMerges_ops layout path place entries linked).2

end Nodes

section Distinct

variable (layout : Layout) (place : Containment) {scope : Scope}
  (distinct : (scope.entries.map Entry.qualifiedName).Nodup)

include distinct

theorem coherent_ops :
    Content.Coherent (ops layout scope.sourcePath place scope.entries) where
  toMergesEnds := mergesEnds_ops layout scope.sourcePath place scope.entries
  agree first firstPlanned second secondPlanned same := by
    rcases eq_or_entries_of_key firstPlanned secondPlanned same with
      equal | ⟨entry, member, other, otherMember, rfl, rfl⟩
    · exact equal
    · rw [Scope.entry_eq_of_key distinct member otherMember same]

end Distinct

/-! ## Relationships -/

theorem entryKey_ne_calleeKey (path : String) (entry : Entry) (segment : String) :
    (entryKey path entry).canonical ≠ (calleeKey path segment).canonical := by
  intro same
  have labels := ((NodeKey.canonical_eq_iff _ _).mp same).1
  rcases label_entryKey_cases path entry with label | label | label <;> rw [label] at labels <;>
    cases labels

section Uncalled

variable {layout : Layout} {path : String} {place : Containment} {entries : List Entry}
  {merge : RelMerge}

theorem plain_of_mem_structureMerges
    (member : merge ∈ structureMerges layout path place entries) :
    merge.properties = .empty ∧ merge.kind ≠ .calls := by
  rcases (mem_structureMerges layout path place entries merge).mp member with
    ⟨_, _, _, rfl⟩ | ⟨_, _, rfl⟩ | ⟨_, _, _, rfl⟩ | ⟨_, _, _, _, _, _, rfl⟩ <;>
  exact ⟨rfl, nofun⟩

end Uncalled

section Distinct

variable (layout : Layout) (place : Containment) {scope : Scope}
  (distinct : (scope.entries.map Entry.qualifiedName).Nodup)

include distinct

end Distinct

end Plan

/-- A function and a class of one name, a method, two chains with one target, a folder twice. -/
def sharedNames : Scope where
  sourcePath := "lib/app/lib/user.js"
  functions := [("User", ⟨.function, "User", "lib/app/lib/user.js", "", none, 1, 3, [],
    [⟨["db", "open"]⟩, ⟨["db", "users", "open"]⟩, ⟨[]⟩]⟩)]
  classes := [("User", ⟨.classDecl, "User", "lib/app/lib/user.js", "", none, 4, 9,
    [("save", ⟨.method, "save", "lib/app/lib/user.js", "", some "/** Saves. */", 5, 8, [],
      [⟨["db", "db"]⟩]⟩)], []⟩)]
  exports := []

end ScopeGraph
