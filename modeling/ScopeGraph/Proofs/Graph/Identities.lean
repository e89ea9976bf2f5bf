import ScopeGraph.Proofs.Artifact
import ScopeGraph.Proofs.Graph.PlanOrder
import ScopeGraph.Proofs.Scope.Preorder
import ScopeGraph.Proofs.Scope.QualifiedNames

/-!
# What tells declarations apart

Different qualified names give the declarations of a scope different keys and different artifacts,
and every member finds the declaration that holds it.  Only the locators that the graph records can
be the same for two of them, where the names differ in slashes and backslashes.
-/
set_option autoImplicit false

namespace ScopeGraph

/-! ## Locators -/

/-- The locators of the code and of the doc comment for each entry, whether or not it has one. -/
def Scope.locators (scope : Scope) (locate : String → ArtifactKind → String) : List String :=
  scope.entries.flatMap fun entry =>
    [locate entry.qualifiedName .code, locate entry.qualifiedName .doc]

/-- Locators are as different as what they show of a qualified name. -/
theorem Scope.nodup_locators_iff (scope : Scope) (locate : String → ArtifactKind → String)
    (shown : String → String)
    (faithful : ∀ first second kind other,
      locate first kind = locate second other ↔ shown first = shown second ∧ kind = other) :
    (scope.locators locate).Nodup ↔
      (scope.entries.map fun entry => shown entry.qualifiedName).Nodup := by
  have kinds (name : String) : [locate name .code, locate name .doc].Nodup := by
    simp [faithful]
  have disjoint (first second : String) :
      List.Disjoint [locate first .code, locate first .doc]
        [locate second .code, locate second .doc] ↔ shown first ≠ shown second := by
    simp [List.disjoint_left, faithful]
  rw [locators, List.nodup_flatMap, and_iff_right fun entry _ => kinds _, List.Nodup,
    List.pairwise_map]
  exact List.Pairwise.iff fun _ _ => disjoint _ _

/-! ## Links to parents -/

namespace Plan

section Distinct

variable (layout : Layout) (place : Containment) {scope : Scope}
  (distinct : (scope.entries.map Entry.qualifiedName).Nodup)

include distinct

theorem parent_mem_relMerges {member holder : Entry} (held : member ∈ scope.entries)
    (holding : holder ∈ scope.entries) (declares : holder.Declares member) :
    linkMerge (entryKey scope.sourcePath member) .parent (entryKey scope.sourcePath holder) ∈
      relMerges (ops layout scope.sourcePath place scope.entries) := by
  rw [mem_relMerges_ops, mem_structureMerges]
  have found := Scope.find_holder distinct holding
  exact .inl (.inr (.inr (.inr ⟨member, held, _, declares.owner, holder, found, rfl⟩)))

theorem exists_of_parent {link : RelMerge}
    (linked : link ∈ relMerges (ops layout scope.sourcePath place scope.entries))
    (kind : link.kind = .parent) :
    ∃ member ∈ scope.entries, ∃ holder ∈ scope.entries, holder.Declares member ∧
      link = linkMerge (entryKey scope.sourcePath member) .parent
        (entryKey scope.sourcePath holder) := by
  rcases (mem_relMerges_ops layout scope.sourcePath place scope.entries link).mp linked with
    structural | ⟨entry, _, chain, _, called⟩
  · rcases (mem_structureMerges layout scope.sourcePath place scope.entries link).mp structural with
      ⟨_, _, _, rfl⟩ | ⟨_, _, rfl⟩ | ⟨_, _, _, rfl⟩ |
      ⟨member, held, owner, owned, holder, search, rfl⟩
    · cases kind
    · cases kind
    · cases kind
    · obtain ⟨holding, declares⟩ := Scope.declares_of_find distinct held owned search
      exact ⟨member, held, holder, holding, declares, rfl⟩
  · rcases (mem_chainMerges scope.sourcePath _ chain link).mp called with
      ⟨_, _, rfl⟩ | ⟨_, _, _, rfl⟩
    · cases kind
    · cases kind

/-- What merges the key of an entry is the node of that entry. -/
theorem entryNode_mem {front back : List MergeOp} {entry : Entry} (member : entry ∈ scope.entries)
    (parts : ops layout scope.sourcePath place scope.entries = front ++ back)
    (merged : MergesNode front (entryKey scope.sourcePath entry)) :
    entryNode layout scope.sourcePath place.fileName entry ∈ front := by
  obtain ⟨merge, early, key⟩ := merged
  have planned : merge ∈ nodeMerges (ops layout scope.sourcePath place scope.entries) := by
    rw [parts, nodeMerges_append]
    exact List.mem_append_left _ early
  have own : entryMerge layout scope.sourcePath place.fileName entry ∈
      nodeMerges (ops layout scope.sourcePath place scope.entries) :=
    (mem_nodeMerges_ops ..).mpr (.inr (.inr (.inl ⟨entry, member, rfl⟩)))
  have same := (coherent_ops layout place distinct).agree merge planned _ own
    (congrArg NodeKey.canonical key)
  rw [same] at early
  exact mem_nodeMerges.mp early

/-- Holders come before their members, and those at file level before all members. -/
theorem followsOn_memberOps_of_nodup {kinds : RelKind → Prop} {front : List MergeOp}
    (top : ∀ entry ∈ scope.entries, entry.owner? = none →
      MergesNode front (entryKey scope.sourcePath entry)) :
    FollowsOn kinds front
      (scope.entries.flatMap (memberOps layout scope.sourcePath place scope.entries)) := by
  refine InOrder.flatMap ?_
  intro earlier entry later parts
  have member : entry ∈ scope.entries := by simp [parts]
  have earlierOf : ∀ holder ∈ scope.entries, holder.Declares entry → holder ∈ earlier := by
    intro holder holding declares
    rcases scope.inOrder_entries earlier entry later parts with none | ⟨found, inside, also⟩
    · cases none.symm.trans declares.owner
    · have names := Option.some.inj (also.owner.symm.trans declares.owner)
      have listed : found ∈ scope.entries := by
        rw [parts]
        exact List.mem_append_left _ inside
      rw [← List.inj_on_of_nodup_map distinct listed holding names]
      exact inside
  suffices follows : FollowsOn kinds
      (front ++ earlier.flatMap (memberOps layout scope.sourcePath place scope.entries))
      (memberOps layout scope.sourcePath place scope.entries entry) by
    simpa only [FollowsOn, List.append_assoc] using follows
  rw [memberOps]
  cases owned : entry.owner? with
  | none => exact .of_no_links rfl
  | some owner =>
      refine .node_cons (.of_ends ?_)
      intro link linked _
      cases search : scope.entries.reverse.find? (·.qualifiedName = owner) with
      | none =>
          simp only [search] at linked
          cases linked
      | some holder =>
          simp only [search] at linked
          obtain rfl := List.mem_singleton.mp linked
          refine ⟨(mergesNode_singleton _).append_left _, ?_⟩
          obtain ⟨holding, declares⟩ := Scope.declares_of_find distinct member owned search
          have inside := earlierOf holder holding declares
          by_cases atTop : holder.owner? = none
          · exact ((top holder holding atTop).append_right _).append_right _
          · have merged := mergesNode_memberOps layout scope.sourcePath place scope.entries
              inside atTop
            exact (merged.append_left front).append_right _

theorem followsOn_ops_of_nodup {kinds : RelKind → Prop} :
    FollowsOn kinds [] (ops layout scope.sourcePath place scope.entries) := by
  refine followsOn_ops layout place scope.entries
    (followsOn_memberOps_of_nodup layout place distinct ?_)
  intro entry member top
  exact (mergesNode_topLevelOps layout scope.sourcePath place member top).append_left _

end Distinct

end Plan

/-- Where keys are names, functions and classes are kept apart, no name has a dot and nothing at
file level is called `class`, the declarations of a scope have different qualified names, keys and
artifacts.  The locators that the graph records are different exactly if the names are, with slashes
for backslashes.  Every member has its link to the declaration that holds it, behind the node of
that declaration. -/
theorem qualified_names_identify_declarations (scope : Scope) (layout : Layout)
    (named : scope.PlainlyNamed) :
    (scope.entries.map Entry.qualifiedName).Nodup ∧
    (scope.entries.map fun entry => (Plan.entryKey scope.sourcePath entry).canonical).Nodup ∧
    (scope.locators (layout.locator scope.sourcePath)).Nodup ∧
    ((scope.locators (layout.recordedLocator scope.sourcePath)).Nodup ↔
      (scope.entries.map fun entry => Layout.slashed entry.qualifiedName).Nodup) ∧
    ∀ ops, scope.plan layout = .ok ops →
      (∀ member ∈ scope.entries, member.owner? ≠ none →
        ∃ holder ∈ scope.entries, holder.Declares member ∧
          Plan.linkMerge (Plan.entryKey scope.sourcePath member) .parent
            (Plan.entryKey scope.sourcePath holder) ∈ relMerges ops) ∧
      ∀ front link back, ops = front ++ .relationship link :: back → link.kind = .parent →
        ∃ member ∈ scope.entries, ∃ holder ∈ scope.entries, holder.Declares member ∧
          link = Plan.linkMerge (Plan.entryKey scope.sourcePath member) .parent
            (Plan.entryKey scope.sourcePath holder) ∧
          ∃ tag, Plan.entryNode layout scope.sourcePath tag holder ∈ front := by
  have distinct := named.nodup_qualifiedNames
  refine ⟨distinct, ?_, ?_, ?_, ?_⟩
  · refine List.Nodup.map_on ?_ (List.Nodup.of_map _ distinct)
    intro first isFirst second isSecond same
    exact Scope.entry_eq_of_key distinct isFirst isSecond same
  · refine (scope.nodup_locators_iff (layout.locator scope.sourcePath) id ?_).mpr distinct
    intro first second kind other
    exact layout.locator_eq_iff scope.sourcePath
  · refine scope.nodup_locators_iff (layout.recordedLocator scope.sourcePath) Layout.slashed ?_
    intro first second kind other
    exact layout.recordedLocator_eq_iff scope.sourcePath
  · intro ops planned
    obtain ⟨place, rfl⟩ := Scope.exists_of_plan planned
    constructor
    · intro member held nested
      rcases scope.entry_cases held with ⟨top, _⟩ | ⟨holder, holding, declares⟩
      · exact absurd top nested
      · have linked := Plan.parent_mem_relMerges layout place distinct held holding declares
        exact ⟨holder, holding, declares, linked⟩
    · intro front link back parts kind
      have linked : link ∈ relMerges (Plan.ops layout scope.sourcePath place scope.entries) := by
        rw [mem_relMerges, parts]
        exact List.mem_append_right _ List.mem_cons_self
      have follows : FollowsOn (fun _ => True) [] _ :=
        Plan.followsOn_ops_of_nodup layout place distinct
      have ends := follows front (.relationship link) back parts trivial
      obtain ⟨member, held, holder, holding, declares, rfl⟩ :=
        Plan.exists_of_parent layout place distinct linked kind
      have node := Plan.entryNode_mem layout place distinct holding parts ends.2
      exact ⟨member, held, holder, holding, declares, rfl, place.fileName, node⟩

theorem names_of_sharedNames_identify_declarations :
    sharedNames.PlainlyNamed ∧
      (sharedNames.entries.map Entry.qualifiedName).Nodup ∧
      (sharedNames.locators (Layout.recordedLocator ⟨"out"⟩ sharedNames.sourcePath)).Nodup ∧
      ∃ ops, sharedNames.plan ⟨"out"⟩ = .ok ops ∧
        ∃ front link back, ops = front ++ .relationship link :: back ∧ link.kind = .parent ∧
          ∃ member holder, holder.Declares member ∧
            ∃ tag, Plan.entryNode ⟨"out"⟩ sharedNames.sourcePath tag holder ∈ front := by
  have named : sharedNames.PlainlyNamed := by decide +kernel
  obtain ⟨distinct, _, _, recorded, parents⟩ :=
    qualified_names_identify_declarations sharedNames ⟨"out"⟩ named
  have contained : Containment.ofPath sharedNames.sourcePath =
      .ok ⟨["lib", "app", "lib"], "user"⟩ := by decide
  have planned := Scope.plan_of_place ⟨"out"⟩ contained
  obtain ⟨member, held, nested⟩ : ∃ member ∈ sharedNames.entries, member.owner? ≠ none := by
    decide +kernel
  obtain ⟨linked, behind⟩ := parents _ planned
  obtain ⟨holder, _, _, link⟩ := linked member held nested
  obtain ⟨front, back, parts⟩ := List.append_of_mem (mem_relMerges.mp link)
  obtain ⟨found, _, owner, _, declares, _, node⟩ := behind front _ back parts rfl
  exact ⟨named, distinct, recorded.mpr (by decide +kernel), _, planned, front, _, back, parts, rfl,
    found, owner, declares, node⟩

/-- A class with the methods `'a/b'` and `'a\b'`. -/
def twinKeys : Source where
  path := "app.js"
  text := "class A \x7b 'a/b'() \x7b\x7d 'a\\b'() \x7b\x7d \x7d"
  root :=
    ⟨.other "program", none, ⟨0, 33⟩, true, false, false,
      [⟨.classDeclaration, none, ⟨0, 33⟩, true, false, false,
        [⟨.identifier, some .name, ⟨6, 7⟩, true, false, false, []⟩,
          ⟨.other "class_body", some .body, ⟨8, 33⟩, true, false, false,
            [⟨.methodDefinition, none, ⟨10, 20⟩, true, false, false,
                [⟨.other "string", some .name, ⟨10, 15⟩, true, false, false,
                    [⟨.other "string_fragment", none, ⟨11, 14⟩, true, false, false, []⟩]⟩,
                  ⟨.other "formal_parameters", none, ⟨15, 17⟩, true, false, false, []⟩,
                  ⟨.other "statement_block", some .body, ⟨18, 20⟩, true, false, false, []⟩]⟩,
              ⟨.methodDefinition, none, ⟨21, 31⟩, true, false, false,
                [⟨.other "string", some .name, ⟨21, 26⟩, true, false, false,
                    [⟨.other "string_fragment", none, ⟨22, 23⟩, true, false, false, []⟩,
                      ⟨.other "escape_sequence", none, ⟨23, 25⟩, true, false, false, []⟩]⟩,
                  ⟨.other "formal_parameters", none, ⟨26, 28⟩, true, false, false, []⟩,
                  ⟨.other "statement_block", some .body, ⟨29, 31⟩, true, false, false,
                    []⟩]⟩]⟩]⟩]⟩
  comments := []

theorem recorded_locators_of_twinKeys_clash :
    let scope := (twinKeys.scope .zero).1
    scope.PlainlyNamed ∧
      scope.entries.map Entry.qualifiedName = ["A", "A.'a/b'", "A.'a\\b'"] ∧
      ¬ (scope.locators (Layout.recordedLocator ⟨"out"⟩ scope.sourcePath)).Nodup := by
  decide +kernel

end ScopeGraph
