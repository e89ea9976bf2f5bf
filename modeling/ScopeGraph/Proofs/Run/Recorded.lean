import ScopeGraph.Proofs.Graph.FileOrder
import ScopeGraph.Proofs.Graph.ScopeContent
import ScopeGraph.Proofs.Run.OutputRoot

/-!
# Recorded artifacts

The graph records the paths of the artifacts.  They lead to the code and the doc comments where
artifacts do not get into each other's way, that is where those at one location have one content,
and where no path has a backslash, which is recorded as a slash.
-/
set_option autoImplicit false

namespace ScopeGraph

open Files Files.Tree

/-! ## What artifacts hold in the end -/

namespace Layout

section Complete

variable {layout : Layout} {scope : Scope} {tree : Tree}
  (complete : (layout.writeAll scope tree).1.failed = 0)

include complete

/-- In the end an artifact can be read, and what is read was written by an artifact whose path
leads to the same location. -/
theorem exists_readText {file : ArtifactFile} (member : file ∈ layout.files scope) :
    ∃ location, Reached tree (layout.writeAll scope tree).2 file.path location ∧
      (layout.writeAll scope tree).2.canonical file.path = .ok location ∧
      ∃ other ∈ layout.files scope,
        (layout.writeAll scope tree).2.canonical other.path = .ok location ∧
        (layout.writeAll scope tree).2.item? location = some (.file (.text other.content)) ∧
        (layout.writeAll scope tree).2.readText file.path = .ok other.content := by
  rw [writeAll_eq] at complete ⊢
  obtain ⟨location, reached, other, inside, otherReached, holds⟩ :=
    ArtifactReport.reached_by_writeFiles (.none, tree) complete file member
  exact ⟨location, reached, reached.canonical holds, other, inside, otherReached.canonical holds,
    holds, reached.readText holds⟩

/-- Every artifact holds its own content exactly if artifacts at one location have one content. -/
theorem readText_iff :
    (∀ file ∈ layout.files scope,
        (layout.writeAll scope tree).2.readText file.path = .ok file.content) ↔
      ∀ first ∈ layout.files scope, ∀ second ∈ layout.files scope,
        (layout.writeAll scope tree).2.canonical first.path =
          (layout.writeAll scope tree).2.canonical second.path →
        first.content = second.content := by
  constructor
  · intro reads first member second also same
    obtain ⟨location, _, leads, other, _, _, holds, read⟩ := exists_readText complete member
    obtain ⟨location', _, leads', other', _, _, holds', read'⟩ := exists_readText complete also
    rw [leads, leads'] at same
    rw [← Except.ok.inj same, holds] at holds'
    rw [reads first member] at read
    rw [reads second also] at read'
    rw [Except.ok.inj read, Except.ok.inj read',
      Body.text.inj (Item.file.inj (Option.some.inj holds'))]
  · intro agree file member
    obtain ⟨_, _, leads, other, inside, otherLeads, _, read⟩ := exists_readText complete member
    rw [read, agree other inside file member (otherLeads.trans leads.symm)]

/-- Artifacts of different plain names are at different locations. -/
theorem content_eq_of_plain
    (direct : ∀ directory, (layout.writeAll scope tree).2.Leads layout.root directory →
      tree.DirectBelow directory)
    (plain : ∀ entry ∈ scope.entries, '/' ∉ entry.qualifiedName.toList)
    (distinct : (scope.entries.map Entry.qualifiedName).Nodup)
    {first second : ArtifactFile} (member : first ∈ layout.files scope)
    (also : second ∈ layout.files scope)
    (same : (layout.writeAll scope tree).2.canonical first.path =
      (layout.writeAll scope tree).2.canonical second.path) :
    first.content = second.content := by
  obtain ⟨location, reached, leads, _⟩ := exists_readText complete member
  obtain ⟨location', reached', leads', _⟩ := exists_readText complete also
  rw [leads, leads'] at same
  obtain ⟨entry, inside, kind, path, content⟩ := (mem_files layout scope).mp member
  obtain ⟨other, otherInside, otherKind, otherPath, otherContent⟩ :=
    (mem_files layout scope).mp also
  rw [path] at reached
  rw [otherPath] at reached'
  obtain ⟨directory, root, located⟩ := reached.below
    (below_locator layout (not_climbs_of_notMem (plain entry inside)) kind)
  obtain ⟨directory', root', located'⟩ := reached'.below
    (below_locator layout (not_climbs_of_notMem (plain other otherInside)) otherKind)
  have here := located (direct directory root)
  have there := located' (direct directory' root')
  rw [← Except.ok.inj same, root'.unique root, here] at there
  have names := (List.map_inj_right fun _ _ => Name.text.inj).mp (List.append_cancel_left there)
  rw [filter_below_of_notMem kind (plain entry inside),
    filter_below_of_notMem otherKind (plain other otherInside)] at names
  obtain ⟨qualified, kinds⟩ :=
    fileName_inj kind (List.cons.inj (List.append_cancel_left names)).1
  have entries : entry = other :=
    List.inj_on_of_nodup_map distinct inside otherInside qualified
  subst entries
  subst kinds
  cases kind with
  | code => exact content.trans otherContent.symm
  | doc => exact Option.some.inj (content.symm.trans otherContent)

end Complete

/-! ## What the graph records -/

theorem recordedLocator_eq {layout : Layout} {sourcePath qualifiedName : String}
    {kind : ArtifactKind}
    (plain : '\\' ∉ (layout.locator sourcePath qualifiedName kind).toList) :
    layout.recordedLocator sourcePath qualifiedName kind =
      layout.locator sourcePath qualifiedName kind := by
  have same : (layout.locator sourcePath qualifiedName kind).toList.map
      (fun c => if c = '\\' then '/' else c) =
      (layout.locator sourcePath qualifiedName kind).toList := by
    conv => rhs; rw [← List.map_id (layout.locator sourcePath qualifiedName kind).toList]
    refine List.map_congr_left fun c member => if_neg fun backslash => ?_
    exact plain (backslash ▸ member)
  rw [recordedLocator, same, String.ofList_toList]

end Layout

namespace Plan

variable (layout : Layout) (path tag : String) (entry : Entry)

theorem nodup_names_entryProperties :
    ((entryProperties layout path entry).map Prod.fst).Nodup := by
  rw [entryProperties]
  cases entry.owner? <;> cases entry.descriptor.doc? <;> simp

theorem js_of_entryMerge :
    (entryMerge layout path tag entry).properties.get? "js" =
      some (layout.recordedLocator path entry.qualifiedName .code) := by
  dsimp only [entryMerge]
  refine Dictionary.get?_ofList_of_mem (nodup_names_entryProperties layout path entry) ?_
  simp [entryProperties]

theorem jsdoc_of_entryMerge {doc : String} (has : entry.descriptor.doc? = some doc) :
    (entryMerge layout path tag entry).properties.get? "jsdoc" =
      some (layout.recordedLocator path entry.qualifiedName .doc) := by
  dsimp only [entryMerge]
  refine Dictionary.get?_ofList_of_mem (nodup_names_entryProperties layout path entry) ?_
  simp [entryProperties, has]

end Plan

/-- Let all artifacts of a scope be written.  Then each holds its own content exactly if those at
one location have one content.  That is the case if the qualified names are different, hold no
slash, and no link lies below the directory of the root.  Where artifacts hold their own content and
no path has a backslash, the paths that the nodes of the declarations record are those of files with
their code and their doc comments. -/
theorem recorded_artifacts_read_back (layout : Layout) (scope : Scope) (tree : Tree)
    (complete : (layout.writeAll scope tree).1.failed = 0) :
    let final := (layout.writeAll scope tree).2
    let agree := ∀ first ∈ layout.files scope, ∀ second ∈ layout.files scope,
      final.canonical first.path = final.canonical second.path → first.content = second.content
    ((∀ file ∈ layout.files scope, final.readText file.path = .ok file.content) ↔ agree) ∧
      ((∀ directory, final.Leads layout.root directory → tree.DirectBelow directory) →
        (∀ entry ∈ scope.entries, '/' ∉ entry.qualifiedName.toList) →
        (scope.entries.map Entry.qualifiedName).Nodup → agree) ∧
      (agree → (∀ file ∈ layout.files scope, '\\' ∉ file.path.toList) →
        ∀ ops, scope.plan layout = .ok ops → ∀ merge, .node merge ∈ ops →
          merge.key.label = .function ∨ merge.key.label = .classDecl ∨ merge.key.label = .method →
          ∃ entry ∈ scope.entries,
            (∃ tag, .node merge = Plan.entryNode layout scope.sourcePath tag entry) ∧
            (∃ js, merge.properties.get? "js" = some js ∧
              final.readText js = .ok entry.descriptor.code) ∧
            ∀ doc, entry.descriptor.doc? = some doc →
              ∃ jsdoc, merge.properties.get? "jsdoc" = some jsdoc ∧
                final.readText jsdoc = .ok doc) := by
  intro final agree
  have reads := Layout.readText_iff complete
  refine ⟨reads, ?_, ?_⟩
  · intro direct plain distinct first member second also same
    exact Layout.content_eq_of_plain complete direct plain distinct member also same
  intro agrees plain ops planned merge inside label
  obtain ⟨place, rfl⟩ := Scope.exists_of_plan planned
  have node : merge ∈ nodeMerges (Plan.ops layout scope.sourcePath place scope.entries) :=
    List.mem_filterMap.mpr ⟨.node merge, inside, rfl⟩
  have shape := Plan.nodeMerge_of_label layout scope.sourcePath place scope.entries node
  obtain ⟨entry, member, rfl⟩ : ∃ entry ∈ scope.entries,
      merge = Plan.entryMerge layout scope.sourcePath place.fileName entry := by
    rcases label with isLabel | isLabel | isLabel <;> simpa only [isLabel] using shape
  have recorded (file : ArtifactFile) (written : file ∈ layout.files scope) (kind : ArtifactKind)
      (path : file.path = layout.locator scope.sourcePath entry.qualifiedName kind) :
      final.readText (layout.recordedLocator scope.sourcePath entry.qualifiedName kind) =
        .ok file.content := by
    have backslash := plain file written
    rw [path] at backslash
    rw [Layout.recordedLocator_eq backslash, ← path]
    exact reads.mpr agrees file written
  have js := Plan.js_of_entryMerge layout scope.sourcePath place.fileName entry
  refine ⟨entry, member, ⟨place.fileName, rfl⟩, ⟨_, js, ?_⟩, ?_⟩
  · obtain ⟨file, written, path, content⟩ := Layout.exists_file member .code rfl
    rw [← content]
    exact recorded file written .code path
  · intro doc has
    have jsdoc := Plan.jsdoc_of_entryMerge layout scope.sourcePath place.fileName entry has
    obtain ⟨file, written, path, content⟩ := Layout.exists_file member .doc has
    refine ⟨_, jsdoc, ?_⟩
    rw [← content]
    exact recorded file written .doc path

theorem recorded_artifacts_of_slashedKey_read_back :
    let final := (Layout.writeAll ⟨"out"⟩ slashedKey ⟨[], []⟩).2
    (Layout.writeAll ⟨"out"⟩ slashedKey ⟨[], []⟩).1.failed = 0 ∧
      (∀ file ∈ Layout.files ⟨"out"⟩ slashedKey, final.readText file.path = .ok file.content) ∧
      ∃ ops merge, slashedKey.plan ⟨"out"⟩ = .ok ops ∧ .node merge ∈ ops ∧
        merge.key.label = .method ∧ ∃ entry ∈ slashedKey.entries, ∃ js,
          merge.properties.get? "js" = some js ∧
            final.readText js = .ok entry.descriptor.code := by
  intro final
  have complete : (Layout.writeAll ⟨"out"⟩ slashedKey ⟨[], []⟩).1.failed = 0 := by decide +kernel
  obtain ⟨reads, _, recorded⟩ := recorded_artifacts_read_back ⟨"out"⟩ slashedKey ⟨[], []⟩ complete
  have own : ∀ file ∈ Layout.files ⟨"out"⟩ slashedKey,
      final.readText file.path = .ok file.content := by decide +kernel
  have planned : slashedKey.plan ⟨"out"⟩ =
      .ok (Plan.ops ⟨"out"⟩ "app.js" ⟨[], "app"⟩ slashedKey.entries) := by
    rw [Scope.plan, show Containment.ofPath slashedKey.sourcePath = .ok ⟨[], "app"⟩ by decide]
    rfl
  obtain ⟨merge, member, label⟩ : ∃ merge ∈ nodeMerges
      (Plan.ops ⟨"out"⟩ "app.js" ⟨[], "app"⟩ slashedKey.entries),
      merge.key.label = .method := by decide +kernel
  obtain ⟨op, inside, same⟩ := List.mem_filterMap.mp member
  cases op with
  | relationship link => cases same
  | node found =>
      cases same
      obtain ⟨entry, declared, _, js, _⟩ := recorded (reads.mp own) (by decide +kernel) _ planned
        merge inside (.inr (.inr label))
      exact ⟨complete, own, _, merge, planned, inside, label, entry, declared, js⟩

/-- A class with the method `'a\'b'`. -/
def escapedKey : Source where
  path := "app.js"
  text := "class A \x7b 'a\\'b'() \x7b\x7d \x7d"
  root :=
    ⟨.other "program", none, ⟨0, 23⟩, true, false, false,
      [⟨.classDeclaration, none, ⟨0, 23⟩, true, false, false,
        [⟨.identifier, some .name, ⟨6, 7⟩, true, false, false, []⟩,
          ⟨.other "class_body", some .body, ⟨8, 23⟩, true, false, false,
            [⟨.methodDefinition, none, ⟨10, 21⟩, true, false, false,
              [⟨.other "string", some .name, ⟨10, 16⟩, true, false, false,
                  [⟨.other "string_fragment", none, ⟨11, 12⟩, true, false, false, []⟩,
                    ⟨.other "escape_sequence", none, ⟨12, 14⟩, true, false, false, []⟩,
                    ⟨.other "string_fragment", none, ⟨14, 15⟩, true, false, false, []⟩]⟩,
                ⟨.other "formal_parameters", none, ⟨16, 18⟩, true, false, false, []⟩,
                ⟨.other "statement_block", some .body, ⟨19, 21⟩, true, false, false,
                  []⟩]⟩]⟩]⟩]⟩
  comments := []

theorem recorded_artifact_of_escapedKey_is_missing :
    let scope := (escapedKey.scope .zero).1
    let written := Layout.writeAll ⟨"out"⟩ scope ⟨[], []⟩
    written.1.failed = 0 ∧
      (∃ entry ∈ scope.entries, ("js", "out/app.js.A.'a/'b'.js") ∈
        Plan.entryProperties ⟨"out"⟩ scope.sourcePath entry) ∧
      written.2.readText "out/app.js.A.'a/'b'.js" = .error .notFound ∧
      written.2.readText "out/app.js.A.'a\\'b'.js" = .ok "'a\\'b'() \x7b\x7d" := by
  decide +kernel

end ScopeGraph
