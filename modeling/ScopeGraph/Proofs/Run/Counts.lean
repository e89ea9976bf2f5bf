import ScopeGraph.Proofs.Graph.FileOrder
import ScopeGraph.Proofs.Graph.PlanCounts
import ScopeGraph.Proofs.Run.Writes
import ScopeGraph.Proofs.Scope.Descriptors
import ScopeGraph.Proofs.Scope.WellFormed
import ScopeGraph.Run.Pipeline

/-!
# The counts of a run

The numbers of a report come from the scope, from the plan, from the store and from the files.  In
the report of a run that succeeds they fit together.
-/
set_option autoImplicit false

namespace ScopeGraph

open Files (Tree)

/-! ## Artifacts -/

namespace ArtifactReport

theorem total_write (state : ArtifactReport × Tree) (file : ArtifactFile) :
    (write state file).1.written + (write state file).1.failed =
      state.1.written + state.1.failed + 1 := by
  rw [write]
  split
  · exact Nat.add_right_comm ..
  · rfl

theorem total_writeFiles (files : List ArtifactFile) (state : ArtifactReport × Tree) :
    (writeFiles files state).1.written + (writeFiles files state).1.failed =
      state.1.written + state.1.failed + files.length := by
  induction files generalizing state with
  | nil => rfl
  | cons file rest ih =>
      have here := total_write state file
      rw [writeFiles_cons, ih, List.length_cons]
      omega

end ArtifactReport

namespace Layout

variable (layout : Layout) (scope : Scope)

theorem length_files :
    (layout.files scope).length =
      scope.entries.length + scope.entries.countP (·.descriptor.doc?.isSome) := by
  rw [files]
  induction scope.entries with
  | nil => rfl
  | cons entry rest ih =>
      have here : (layout.filesOf scope.sourcePath entry).length =
          1 + if entry.descriptor.doc?.isSome then 1 else 0 := by
        rw [filesOf]
        cases entry.descriptor.doc? <;> rfl
      rw [List.flatMap_cons, List.length_append, ih, here, List.length_cons, List.countP_cons]
      omega

theorem total_writeAll (tree : Tree) :
    (layout.writeAll scope tree).1.written + (layout.writeAll scope tree).1.failed =
      scope.entries.length + scope.entries.countP (·.descriptor.doc?.isSome) := by
  rw [writeAll_eq, ArtifactReport.total_writeFiles, length_files]
  exact Nat.zero_add _

end Layout

/-! ## Extracted scopes -/

/-- Functions and classes are kept apart, and no call chain is empty. -/
structure Scope.Regular (scope : Scope) : Prop extends scope.KeptApart where
  chains : ∀ entry ∈ scope.entries, ∀ chain ∈ entry.descriptor.chains, chain.segments ≠ []

theorem Source.regular_scope (source : Source) (tally : Tally) :
    (source.scope tally).1.Regular where
  functions descriptor member := by
    obtain ⟨⟨key, _⟩, held, rfl⟩ := List.mem_map.mp member
    simpa using (List.mem_filter.mp (Members.mem_addAll held).2).2
  classes descriptor member := by
    obtain ⟨⟨key, _⟩, held, rfl⟩ := List.mem_map.mp member
    simpa using (List.mem_filter.mp (Members.mem_addAll held).2).2
  chains entry member := by
    obtain ⟨pass, _, same⟩ := Source.exists_pass_of_has (Scope.has_of_mem_entries member)
    rw [same, Pass.descriptor_eq]
    exact pass.declaration.chains_ne_nil source

namespace Scope

variable {scope : Scope}

/-- What is counted by its label and is no method stands at file level. -/
theorem countP_label_entries (path : String) (counts : Label → Bool) (noMethod : ¬ counts .method) :
    (scope.entries.countP fun entry => counts (Plan.entryKey path entry).label) =
      scope.topLevel.countP fun descriptor =>
        counts (if descriptor.kind = .classDecl then .classDecl else .function) := by
  rw [← scope.topLevel_entries, List.countP_map, List.countP_filter]
  refine List.countP_congr fun entry _ => ?_
  simp only [Plan.label_entryKey]
  cases entry.owner? <;> simp [noMethod]

theorem countP_values (members : Members) (counts : Label → Bool) {label : Label}
    (alike : ∀ descriptor ∈ members.values,
      (if descriptor.kind = .classDecl then Label.classDecl else .function) = label) :
    (members.values.countP fun descriptor =>
        counts (if descriptor.kind = .classDecl then .classDecl else .function)) =
      if counts label then members.length else 0 := by
  by_cases counted : counts label
  · rw [if_pos counted, ← List.length_map Prod.snd]
    refine List.countP_eq_length.mpr ?_
    intro descriptor member
    rw [alike descriptor member]
    exact counted
  · rw [if_neg counted]
    refine List.countP_eq_zero.mpr ?_
    intro descriptor member
    rw [alike descriptor member]
    exact counted

theorem KeptApart.countP_label (apart : scope.KeptApart) (path : String) (counts : Label → Bool)
    (noMethod : ¬ counts .method) :
    (scope.entries.countP fun entry => counts (Plan.entryKey path entry).label) =
      (if counts .function then scope.functions.length else 0) +
        if counts .classDecl then scope.classes.length else 0 := by
  rw [countP_label_entries path counts noMethod, topLevel, List.countP_append]
  congr 1
  · apply countP_values
    intro descriptor member
    exact if_neg (apart.functions descriptor member)
  · apply countP_values
    intro descriptor member
    exact if_pos (apart.classes descriptor member)

theorem exists_holder {entry : Entry} (member : entry ∈ scope.entries) {owner : String}
    (owned : entry.owner? = some owner) :
    ∃ holder ∈ scope.entries, holder.qualifiedName = owner := by
  rcases scope.entry_cases member with ⟨none, _⟩ | ⟨holder, holding, declares⟩
  · rw [none] at owned
    cases owned
  · exact ⟨holder, holding, Option.some.inj (declares.owner.symm.trans owned)⟩

end Scope

theorem Plan.countP_declarations (path : String) (entries : List Entry) :
    (entries.countP fun entry => (entryKey path entry).label = .function) +
      (entries.countP fun entry => (entryKey path entry).label = .classDecl) +
      (entries.countP fun entry => (entryKey path entry).label = .method) = entries.length := by
  induction entries with
  | nil => rfl
  | cons entry rest ih =>
      simp only [List.countP_cons, List.length_cons]
      rcases label_entryKey_cases path entry with label | label | label <;> simp [label] <;> omega

/-! ## Runs -/

theorem GraphStore.eq_length_of_apply {σ : Type} [GraphStore σ] {ops : List MergeOp} {store : σ}
    {count : Nat} (done : (apply ops store).1 = .ok count) : count = ops.length := by
  unfold apply transact at done
  split at done
  · cases done
  · dsimp only at done
    split at done
    · cases done
    · split at done
      · cases done
      · cases done
        rfl

namespace Pipeline

theorem exists_source_of_extract {pipeline : Pipeline} {grammar : Grammar} {tree : Tree}
    {input : String} {tally : Tally} {extracted : Scope × Tally}
    (done : pipeline.extract grammar tree input tally = .ok extracted) :
    ∃ source : Source, source.scope tally = extracted := by
  simp only [extract, bind, Except.bind] at done
  split at done
  · cases done
  · split at done
    · cases done
    · split at done
      · cases done
      · exact ⟨_, Except.ok.inj done⟩

theorem of_prepare {pipeline : Pipeline} {grammar : Grammar} {tree written : Tree} {input : String}
    {prepared : Prepared} (done : pipeline.prepare grammar tree input = (.ok prepared, written)) :
    pipeline.extract grammar tree input .zero = .ok (prepared.scope, prepared.tally) ∧
      prepared.artifacts = (pipeline.layout.writeAll prepared.scope tree).1 ∧
      pipeline.plan prepared.scope = .ok prepared.ops := by
  unfold prepare at done
  split at done
  · cases done
  · rename_i scope tally extracted
    cases planned : pipeline.plan scope with
    | error cause =>
        simp only [planned] at done
        cases done
    | ok ops =>
        simp only [planned] at done
        cases done
        exact ⟨extracted, rfl, planned⟩

theorem exists_prepared_of_run {σ : Type} [GraphStore σ] {pipeline : Pipeline} {grammar : Grammar}
    {tree : Tree} {input : String} {reach : Tree → σ × Tree} {final : RunReport}
    (done : (pipeline.run grammar tree input reach).result = .ok final) :
    ∃ prepared written, pipeline.prepare grammar tree input = (.ok prepared, written) ∧
      final = report prepared.scope prepared.tally prepared.artifacts prepared.ops.length := by
  unfold run at done
  split at done
  · cases done
  · rename_i prepared written readied
    refine ⟨prepared, written, readied, ?_⟩
    dsimp only at done
    split at done
    · cases done
    · rename_i count last applied
      cases done
      rw [GraphStore.eq_length_of_apply (congrArg Prod.fst applied)]

/-- What a report of a run on a scope says, given where the file lies and the plan. -/
structure AddsUp (scope : Scope) (place : Containment) (ops : List MergeOp) (report : RunReport) :
    Prop where
  operations : report.operations = ops.length
  planned : ops.length = 2 * place.folders.length + 1 + 2 * scope.descriptorCount +
    (scope.entries.flatMap Entry.segments).dedup.length +
    (scope.entries.map fun entry =>
      (entry.descriptor.chains.map fun chain => chain.segments.length).sum).sum
  entries : scope.entries.length = scope.descriptorCount
  fits : scope.functions.length + scope.classes.length ≤ scope.descriptorCount
  functions : report.functions = (nodeMerges ops).countP (·.key.label = .function)
  classes : report.classes = (nodeMerges ops).countP (·.key.label = .classDecl)
  members : report.members = (nodeMerges ops).countP (·.key.label = .method)
  declared : report.functions + report.classes + report.members = scope.descriptorCount
  chains : report.chains = (relMerges ops).countP (Plan.NamesChain ·)
  artifacts : report.artifactsWritten + report.artifactsFailed =
    scope.descriptorCount + scope.entries.countP (·.descriptor.doc?.isSome)

theorem addsUp_report {layout : Layout} {scope : Scope} {tree : Tree} {artifacts : ArtifactReport}
    (regular : scope.Regular) (place : Containment) (tally : Tally)
    (wrote : artifacts = (layout.writeAll scope tree).1) :
    let ops := Plan.ops layout scope.sourcePath place scope.entries
    AddsUp scope place ops (report scope tally artifacts ops.length) := by
  intro ops
  have entries := scope.length_entries
  have functions : (scope.entries.countP fun entry =>
      (Plan.entryKey scope.sourcePath entry).label = .function) = scope.functions.length :=
    regular.countP_label scope.sourcePath (· = .function) nofun
  have classes : (scope.entries.countP fun entry =>
      (Plan.entryKey scope.sourcePath entry).label = .classDecl) = scope.classes.length := by
    rw [regular.countP_label scope.sourcePath (· = .classDecl) nofun]
    exact Nat.zero_add _
  have kinds := Plan.countP_declarations scope.sourcePath scope.entries
  have labels (label : Label)
      (declared : label = .function ∨ label = .classDecl ∨ label = .method) :
      (nodeMerges ops).countP (·.key.label = label) =
        scope.entries.countP fun entry => (Plan.entryKey scope.sourcePath entry).label = label := by
    apply Plan.countP_label_ops layout scope.sourcePath place scope.entries (· = label)
    all_goals
      rcases declared with rfl | rfl | rfl <;> decide
  constructor
  case operations => rfl
  case planned =>
    have nodes : (nodeMerges ops).length = _ :=
      Plan.length_nodeMerges_ops layout scope.sourcePath place scope.entries
    have links : (relMerges ops).length = _ :=
      Plan.length_relMerges_ops layout scope.sourcePath place scope.entries
        fun entry member owner owned => Scope.exists_holder member owned
    rw [length_eq_merges ops, nodes, links]
    omega
  case entries => exact entries
  case fits => omega
  case functions =>
    rw [labels .function (.inl rfl), functions]
    rfl
  case classes =>
    rw [labels .classDecl (.inr (.inl rfl)), classes]
    rfl
  case members =>
    rw [labels .method (.inr (.inr rfl))]
    change scope.descriptorCount - scope.functions.length - scope.classes.length = _
    omega
  case declared =>
    change scope.functions.length + scope.classes.length +
      (scope.descriptorCount - scope.functions.length - scope.classes.length) = _
    omega
  case chains =>
    rw [Plan.countP_namesChain_ops layout scope.sourcePath place scope.entries regular.chains,
      scope.sum_chains_entries]
    rfl
  case artifacts =>
    change artifacts.written + artifacts.failed = _
    rw [wrote, Layout.total_writeAll, entries]

/-- The counts in the report of a successful run fit the scope, the plan and the artifacts. -/
theorem run_counts_add_up {σ : Type} [GraphStore σ] (pipeline : Pipeline) (grammar : Grammar)
    (tree : Tree) (input : String) (reach : Tree → σ × Tree) (final : RunReport)
    (done : (pipeline.run grammar tree input reach).result = .ok final) :
    ∃ scope tally place ops,
      pipeline.extract grammar tree input .zero = .ok (scope, tally) ∧
      Containment.ofPath scope.sourcePath = .ok place ∧
      pipeline.plan scope = .ok ops ∧ AddsUp scope place ops final := by
  obtain ⟨⟨scope, tally, artifacts, ops⟩, written, readied, rfl⟩ := exists_prepared_of_run done
  obtain ⟨extracted, wrote, planned⟩ := of_prepare readied
  obtain ⟨source, same⟩ := exists_source_of_extract extracted
  have regular : scope.Regular := by
    rw [show scope = (source.scope .zero).1 by rw [same]]
    exact source.regular_scope .zero
  dsimp only at extracted wrote planned
  obtain ⟨place, placed, rfl⟩ := Scope.exists_place_of_plan planned
  exact ⟨scope, tally, place, _, extracted, placed, planned,
    addsUp_report regular place tally wrote⟩

/-- A documented function that calls, and a class with a method, in the folder `lib`. -/
def callsAndDeclares : Tree where
  here := [.text "lib"]
  items :=
    [([.text "lib"], .directory),
      ([.text "lib", .text "app.js"], .file (.text
        "/** d */\nfunction f() \x7b a.b() \x7d\nclass A \x7b m() \x7b\x7d \x7d"))]

def syntaxOfCallsAndDeclares : Syntax.Node :=
  ⟨.other "program", none, ⟨0, 50⟩, true, false, false,
    [⟨.comment, none, ⟨0, 8⟩, true, false, false, []⟩,
      ⟨.functionDeclaration, none, ⟨9, 31⟩, true, false, false,
        [⟨.identifier, some .name, ⟨18, 19⟩, true, false, false, []⟩,
          ⟨.other "formal_parameters", none, ⟨19, 21⟩, true, false, false, []⟩,
          ⟨.other "statement_block", some .body, ⟨22, 31⟩, true, false, false,
            [⟨.expressionStatement, none, ⟨24, 29⟩, true, false, false,
              [⟨.callExpression, none, ⟨24, 29⟩, true, false, false,
                [⟨.memberExpression, some .function, ⟨24, 27⟩, true, false, false,
                    [⟨.identifier, some .object, ⟨24, 25⟩, true, false, false, []⟩,
                      ⟨.propertyIdentifier, some .property, ⟨26, 27⟩, true, false, false, []⟩]⟩,
                  ⟨.other "arguments", none, ⟨27, 29⟩, true, false, false, []⟩]⟩]⟩]⟩]⟩,
      ⟨.classDeclaration, none, ⟨32, 50⟩, true, false, false,
        [⟨.identifier, some .name, ⟨38, 39⟩, true, false, false, []⟩,
          ⟨.other "class_body", some .body, ⟨40, 50⟩, true, false, false,
            [⟨.methodDefinition, none, ⟨42, 48⟩, true, false, false,
              [⟨.propertyIdentifier, some .name, ⟨42, 43⟩, true, false, false, []⟩,
                ⟨.other "formal_parameters", none, ⟨43, 45⟩, true, false, false, []⟩,
                ⟨.other "statement_block", some .body, ⟨46, 48⟩, true, false, false,
                  []⟩]⟩]⟩]⟩]⟩

theorem run_on_callsAndDeclares_adds_up :
    ∃ final,
      (run ⟨true, ⟨"out"⟩, none⟩ (fun _ => syntaxOfCallsAndDeclares) callsAndDeclares "app.js"
        fun tree => (Database.ofContent .empty, tree)).result = .ok final ∧
      final.operations = 13 ∧ final.artifactsWritten = 4 ∧
      ∃ scope place ops, AddsUp scope place ops final := by
  obtain ⟨final, done, operations, artifacts⟩ : ∃ final,
      (run ⟨true, ⟨"out"⟩, none⟩ (fun _ => syntaxOfCallsAndDeclares) callsAndDeclares "app.js"
        fun tree => (Database.ofContent .empty, tree)).result = .ok final ∧
      final.operations = 13 ∧ final.artifactsWritten = 4 :=
    ⟨⟨"/lib/app.js", 1, 1, 1, 1, 0, 0, 0, 13, 4, 0⟩, by decide +kernel, rfl, rfl⟩
  obtain ⟨scope, _, place, ops, _, _, _, addsUp⟩ := run_counts_add_up _ _ _ _ _ final done
  exact ⟨final, done, operations, artifacts, scope, place, ops, addsUp⟩

end Pipeline
end ScopeGraph
