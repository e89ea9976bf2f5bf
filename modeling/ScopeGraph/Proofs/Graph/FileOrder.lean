import Mathlib.Data.List.Nodup
import ScopeGraph.Proofs.Graph.Key
import ScopeGraph.Proofs.Graph.PlanMerges

/-!
# Files in any order

Two lists of writes may change places if every write of the one commutes with every write of the
other to the same key; the rows are then the same and only their order differs.  The plans of two
files share their folders and nothing else: all other keys of a plan have the path of its file.  Of
a folder the plans say the same, so that the writes to it commute.
-/
set_option autoImplicit false

namespace ScopeGraph

namespace Write

variable {ρ κ : Type} {keyOf : ρ → κ}

/-- What a write makes of the row that was found for its key. -/
def put (found : Option ρ) (write : Write keyOf) : Option ρ :=
  some (found.elim write.fresh write.update)

def Commute (first second : Write keyOf) : Prop :=
  ∀ found, put (put found first) second = put (put found second) first

theorem foldl_put_some (writes : List (Write keyOf)) (row : ρ) :
    writes.foldl put (some row) = some (updateAll writes row) := by
  induction writes generalizing row with
  | nil => rfl
  | cons write rest ih => exact ih (write.update row)

theorem put_foldl (write : Write keyOf) (writes : List (Write keyOf)) (found : Option ρ)
    (commute : ∀ other ∈ writes, Commute write other) :
    put (writes.foldl put found) write = writes.foldl put (put found write) := by
  induction writes generalizing found with
  | nil => rfl
  | cons other rest ih =>
      have here := commute other List.mem_cons_self found
      have later := fun next member => commute next (List.mem_cons_of_mem other member)
      rw [List.foldl_cons, List.foldl_cons, ih _ later, here]

theorem foldl_put_append_comm (first second : List (Write keyOf)) (found : Option ρ)
    (commute : ∀ write ∈ first, ∀ other ∈ second, Commute write other) :
    (first ++ second).foldl put found = (second ++ first).foldl put found := by
  induction first generalizing found with
  | nil => rw [List.nil_append, List.append_nil]
  | cons write rest ih =>
      have here := put_foldl write second found (commute write List.mem_cons_self)
      have later := ih (put found write) fun next member =>
        commute next (List.mem_cons_of_mem write member)
      rw [List.foldl_append] at later
      rw [List.cons_append, List.foldl_cons, List.foldl_append, List.foldl_append,
        List.foldl_cons, here, later, List.foldl_append]

variable [DecidableEq κ]

theorem on_append (key : κ) (first second : List (Write keyOf)) :
    on key (first ++ second) = on key first ++ on key second :=
  List.filter_append ..

theorem off_append (key : κ) (first second : List (Write keyOf)) :
    off key (first ++ second) = off key first ++ off key second :=
  List.filter_append ..

/-- Writes of the one list commute with those of the other that have the same key. -/
def Interchange (first second : List (Write keyOf)) : Prop :=
  ∀ write ∈ first, ∀ other ∈ second, write.key = other.key → Commute write other

theorem Interchange.foldl_put {first second : List (Write keyOf)}
    (interchange : Interchange first second) (key : κ) (found : Option ρ) :
    (on key (first ++ second)).foldl put found = (on key (second ++ first)).foldl put found := by
  rw [on_append, on_append]
  apply foldl_put_append_comm
  intro write member other otherMember
  obtain ⟨inside, here⟩ := List.mem_filter.mp member
  obtain ⟨otherInside, there⟩ := List.mem_filter.mp otherMember
  have same : write.key = other.key :=
    (of_decide_eq_true here).trans (of_decide_eq_true there).symm
  exact interchange write inside other otherInside same

theorem Interchange.off {first second : List (Write keyOf)}
    (interchange : Interchange first second) (key : κ) :
    Interchange (off key first) (off key second) := by
  intro write member other otherMember
  exact interchange write (List.mem_filter.mp member).1 other (List.mem_filter.mp otherMember).1

theorem Interchange.perm_from_nothing {first second : List (Write keyOf)}
    (interchange : Interchange first second) :
    (allInto (first ++ second) []).Perm (allInto (second ++ first) []) := by
  have left := nodup_keys_allInto (first ++ second) [] List.nodup_nil
  have right := nodup_keys_allInto (second ++ first) [] List.nodup_nil
  rw [List.perm_ext_iff_of_nodup (List.Nodup.of_map _ left) (List.Nodup.of_map _ right)]
  intro row
  rw [mem_iff_lookup _ left, mem_iff_lookup _ right, lookup_allInto, lookup_allInto]
  exact Eq.congr (interchange.foldl_put (keyOf row) none) rfl

/-- Both orders leave the same rows. -/
theorem Interchange.perm {first second : List (Write keyOf)}
    (interchange : Interchange first second) (rows : List ρ) :
    (allInto (first ++ second) rows).Perm (allInto (second ++ first) rows) := by
  induction rows generalizing first second with
  | nil => exact interchange.perm_from_nothing
  | cons row rest ih =>
      -- The row takes the writes to its key in either order; the others go on to the rest.
      have head : updateAll (on (keyOf row) (first ++ second)) row =
          updateAll (on (keyOf row) (second ++ first)) row := by
        have both := interchange.foldl_put (keyOf row) (some row)
        rw [foldl_put_some, foldl_put_some] at both
        exact Option.some.inj both
      rw [allInto_row, allInto_row, head, off_append, off_append]
      exact (ih (interchange.off (keyOf row))).cons _

end Write

namespace Plan

/-! ## Keys of a plan -/

/-- A folder, or a node of the file with this path. -/
def KeyOf (path : String) (key : NodeKey) : Prop :=
  (∃ name, key = folderKey name) ∨ key.dictionary.get? "path" = some path

theorem keyOf_fileKey (path fileName : String) : KeyOf path (fileKey path fileName) :=
  .inr (by simp [fileKey, NodeKey.dictionary, Dictionary.ofList])

theorem keyOf_calleeKey (path segment : String) : KeyOf path (calleeKey path segment) :=
  .inr (by simp [calleeKey, NodeKey.dictionary, Dictionary.ofList])

theorem keyOf_entryKey (path : String) (entry : Entry) : KeyOf path (entryKey path entry) := by
  right
  unfold entryKey
  cases entry.owner? <;> simp [NodeKey.dictionary, Dictionary.ofList]

theorem entryKey_ne_folderKey (path : String) (entry : Entry) (name : String) :
    entryKey path entry ≠ folderKey name := by
  unfold entryKey
  cases entry.owner? <;> simp [folderKey]

theorem path_folderKey (name : String) : (folderKey name).dictionary.get? "path" = none := by
  simp [folderKey, NodeKey.dictionary, Dictionary.ofList]

/-- Plans of files with different paths have only folders in common. -/
theorem shared_key_is_folder {firstPath secondPath : String} {first second : NodeKey}
    (differ : firstPath ≠ secondPath) (firstKey : KeyOf firstPath first)
    (secondKey : KeyOf secondPath second) (same : first.canonical = second.canonical) :
    ∃ name, first = folderKey name ∧ second = folderKey name := by
  have fields := ((NodeKey.canonical_eq_iff _ _).mp same).2
  rcases firstKey with ⟨name, rfl⟩ | firstHas
  · rcases secondKey with ⟨other, rfl⟩ | secondHas
    · rw [canonical_folderKey_inj same]
      exact ⟨other, rfl, rfl⟩
    · rw [← fields, path_folderKey] at secondHas
      cases secondHas
  · rcases secondKey with ⟨other, rfl⟩ | secondHas
    · rw [fields, path_folderKey] at firstHas
      cases firstHas
    · rw [fields, secondHas] at firstHas
      exact absurd (Option.some.inj firstHas).symm differ

section Merges

variable (layout : Layout) (path : String) (place : Containment) (entries : List Entry)

theorem keyOf_nodeMerge {merge : NodeMerge}
    (planned : merge ∈ nodeMerges (ops layout path place entries)) : KeyOf path merge.key := by
  rcases (mem_nodeMerges_ops layout path place entries merge).mp planned with
    ⟨name, _, rfl⟩ | rfl | ⟨entry, _, rfl⟩ | ⟨segment, _, rfl⟩
  · exact .inl ⟨name, rfl⟩
  · exact keyOf_fileKey path place.fileName
  · exact keyOf_entryKey path entry
  · exact keyOf_calleeKey path segment

theorem folderMerge_of_key {merge : NodeMerge} {name : String}
    (planned : merge ∈ nodeMerges (ops layout path place entries))
    (key : merge.key = folderKey name) : merge = folderMerge name := by
  rcases (mem_nodeMerges_ops layout path place entries merge).mp planned with
    ⟨other, _, rfl⟩ | rfl | ⟨entry, _, rfl⟩ | ⟨segment, _, rfl⟩
  · rw [canonical_folderKey_inj (congrArg NodeKey.canonical key)]
  · cases key
  · exact absurd key (entryKey_ne_folderKey path entry name)
  · cases key

theorem nodeWrite_cases {write : Write NodeRow.key}
    (member : write ∈ (ops layout path place entries).flatMap MergeOp.nodeWrites) :
    ∃ merge ∈ nodeMerges (ops layout path place entries),
      write = NodeRow.write merge ∨ write = NodeRow.touch merge.key := by
  rcases Content.mem_flatMap_nodeWrites member with ⟨merge, planned, same⟩ | ⟨link, linked, ends⟩
  · exact ⟨merge, planned, .inl same⟩
  · obtain ⟨⟨source, sourcePlanned, sourceKey⟩, target, targetPlanned, targetKey⟩ :=
      ends_of_mem_relMerges_ops layout path place entries linked
    rcases ends with same | same
    · exact ⟨source, sourcePlanned, .inr (sourceKey ▸ same)⟩
    · exact ⟨target, targetPlanned, .inr (targetKey ▸ same)⟩

/-- Between folders there is nothing but plain links. -/
theorem properties_between_folders {link : RelMerge} {outer inner : String}
    (linked : link ∈ relMerges (ops layout path place entries))
    (source : link.source = folderKey outer) (target : link.target = folderKey inner) :
    link.properties = .empty := by
  rcases (mem_relMerges_ops layout path place entries link).mp linked with
    structural | ⟨entry, _, chain, _, called⟩
  · rcases (mem_structureMerges layout path place entries link).mp structural with
      ⟨_, _, _, rfl⟩ | ⟨_, _, rfl⟩ | ⟨_, _, _, rfl⟩ | ⟨_, _, _, _, _, _, rfl⟩ <;> rfl
  · rcases (mem_chainMerges path _ chain link).mp called with ⟨_, _, rfl⟩ | ⟨_, _, _, rfl⟩
    · exact absurd source (entryKey_ne_folderKey path entry outer)
    · rfl

theorem keyOf_relMerge {link : RelMerge}
    (linked : link ∈ relMerges (ops layout path place entries)) :
    KeyOf path link.source ∧ KeyOf path link.target := by
  obtain ⟨⟨source, sourcePlanned, sourceKey⟩, target, targetPlanned, targetKey⟩ :=
    ends_of_mem_relMerges_ops layout path place entries linked
  have left := keyOf_nodeMerge layout path place entries sourcePlanned
  have right := keyOf_nodeMerge layout path place entries targetPlanned
  rw [sourceKey] at left
  rw [targetKey] at right
  exact ⟨left, right⟩

end Merges

/-! ## Writes to what two plans share -/

/-- What a plan does to a folder, as a merge of it or as an end of a link. -/
def WritesFolder (name : String) (write : Write NodeRow.key) : Prop :=
  write = NodeRow.write (folderMerge name) ∨ write = NodeRow.touch (folderKey name)

theorem put_touch (row : NodeRow) (key : NodeKey) :
    Write.put (some row) (NodeRow.touch key) = some row := rfl

theorem put_put_touch (found : Option NodeRow) (write : Write NodeRow.key) (key : NodeKey) :
    Write.put (Write.put found write) (NodeRow.touch key) = Write.put found write := rfl

theorem put_none_of_writesFolder {name : String} {write : Write NodeRow.key}
    (folder : WritesFolder name write) :
    Write.put none write = some (NodeRow.ofMerge (folderMerge name)) := by
  rcases folder with rfl | rfl
  · rfl
  · have known : NodeRow.ofKey (folderKey name) = NodeRow.ofMerge (folderMerge name) := by
      rw [NodeRow.ofKey, folderMerge]
      rfl
    exact congrArg some known

theorem put_ofMerge_of_writesFolder {name : String} {write : Write NodeRow.key}
    (folder : WritesFolder name write) :
    Write.put (some (NodeRow.ofMerge (folderMerge name))) write =
      some (NodeRow.ofMerge (folderMerge name)) := by
  rcases folder with rfl | rfl
  · have again : NodeRow.update (folderMerge name) (NodeRow.ofMerge (folderMerge name)) =
        NodeRow.ofMerge (folderMerge name) := by
      simp [NodeRow.update, NodeRow.ofMerge]
    exact congrArg some again
  · exact put_touch _ _

theorem commute_of_writesFolder {name : String} {first second : Write NodeRow.key}
    (left : WritesFolder name first) (right : WritesFolder name second) :
    Write.Commute first second := by
  intro found
  cases found with
  | none =>
      rw [put_none_of_writesFolder left, put_none_of_writesFolder right,
        put_ofMerge_of_writesFolder left, put_ofMerge_of_writesFolder right]
  | some row =>
      rcases left with rfl | rfl
      · rcases right with rfl | rfl
        · rfl
        · rw [put_touch, put_put_touch]
      · rw [put_touch, put_put_touch]

section Pair

variable {firstPath secondPath : String} (differ : firstPath ≠ secondPath)
  (firstLayout secondLayout : Layout) (firstPlace secondPlace : Containment)
  (firstEntries secondEntries : List Entry)

include differ

theorem interchange_nodeWrites :
    Write.Interchange
      ((ops firstLayout firstPath firstPlace firstEntries).flatMap MergeOp.nodeWrites)
      ((ops secondLayout secondPath secondPlace secondEntries).flatMap MergeOp.nodeWrites) := by
  intro write member other otherMember same
  obtain ⟨merge, planned, shape⟩ := nodeWrite_cases _ _ _ _ member
  obtain ⟨otherMerge, otherPlanned, otherShape⟩ := nodeWrite_cases _ _ _ _ otherMember
  have keys : merge.key.canonical = otherMerge.key.canonical := by
    have left : write.key = merge.key.canonical := by rcases shape with rfl | rfl <;> rfl
    have right : other.key = otherMerge.key.canonical := by
      rcases otherShape with rfl | rfl <;> rfl
    rw [← left, ← right, same]
  obtain ⟨name, key, otherKey⟩ := shared_key_is_folder differ
    (keyOf_nodeMerge _ _ _ _ planned) (keyOf_nodeMerge _ _ _ _ otherPlanned) keys
  have folder := folderMerge_of_key _ _ _ _ planned key
  have otherFolder := folderMerge_of_key _ _ _ _ otherPlanned otherKey
  subst folder
  subst otherFolder
  exact commute_of_writesFolder shape otherShape

theorem interchange_relWrites :
    Write.Interchange
      ((ops firstLayout firstPath firstPlace firstEntries).flatMap MergeOp.relWrites)
      ((ops secondLayout secondPath secondPlace secondEntries).flatMap MergeOp.relWrites) := by
  intro write member other otherMember same
  rw [Content.flatMap_relWrites] at member otherMember
  obtain ⟨link, linked, rfl⟩ := List.mem_map.mp member
  obtain ⟨otherLink, otherLinked, rfl⟩ := List.mem_map.mp otherMember
  obtain ⟨sources, kinds, targets⟩ := (RelRow.matches_iff otherLink (RelRow.ofMerge link)).mpr same
  obtain ⟨sourceKey, targetKey⟩ := keyOf_relMerge _ _ _ _ linked
  obtain ⟨otherSourceKey, otherTargetKey⟩ := keyOf_relMerge _ _ _ _ otherLinked
  obtain ⟨outer, source, otherSource⟩ :=
    shared_key_is_folder differ sourceKey otherSourceKey sources
  obtain ⟨inner, target, otherTarget⟩ :=
    shared_key_is_folder differ targetKey otherTargetKey targets
  have plain := properties_between_folders _ _ _ _ linked source target
  have otherPlain := properties_between_folders _ _ _ _ otherLinked otherSource otherTarget
  have equal : link = otherLink := by
    cases link
    cases otherLink
    simp_all [RelRow.ofMerge]
  rw [equal]
  exact fun _ => rfl

end Pair

end Plan

namespace Content

/-- The same nodes and the same relationships, with all that is known of them, in some order. -/
structure SameGraph (first second : Content) : Prop where
  nodes : first.nodes.Perm second.nodes
  relationships : first.relationships.Perm second.relationships

theorem mergeAll_mergeAll (content : Content) (first second : List MergeOp) :
    (content.mergeAll first).mergeAll second = content.mergeAll (first ++ second) := by
  simp only [mergeAll, List.foldl_append]

theorem sameGraph_of_interchange {first second : List MergeOp} (content : Content)
    (nodes : Write.Interchange (first.flatMap MergeOp.nodeWrites)
      (second.flatMap MergeOp.nodeWrites))
    (relationships : Write.Interchange (first.flatMap MergeOp.relWrites)
      (second.flatMap MergeOp.relWrites)) :
    SameGraph (content.mergeAll (first ++ second)) (content.mergeAll (second ++ first)) where
  nodes := by
    rw [nodes_mergeAll, nodes_mergeAll, List.flatMap_append, List.flatMap_append]
    exact nodes.perm content.nodes
  relationships := by
    rw [relationships_mergeAll, relationships_mergeAll, List.flatMap_append, List.flatMap_append]
    exact relationships.perm content.relationships

end Content

theorem Scope.plan_of_place {scope : Scope} {place : Containment} (layout : Layout)
    (contained : Containment.ofPath scope.sourcePath = .ok place) :
    scope.plan layout = .ok (Plan.ops layout scope.sourcePath place scope.entries) := by
  rw [Scope.plan, contained]
  rfl

theorem Scope.exists_place_of_plan {scope : Scope} {layout : Layout} {ops : List MergeOp}
    (planned : scope.plan layout = .ok ops) :
    ∃ place, Containment.ofPath scope.sourcePath = .ok place ∧
      ops = Plan.ops layout scope.sourcePath place scope.entries := by
  unfold Scope.plan at planned
  cases contained : Containment.ofPath scope.sourcePath with
  | error cause =>
      rw [contained] at planned
      cases planned
  | ok place =>
      rw [contained] at planned
      cases planned
      exact ⟨place, rfl, rfl⟩

theorem Scope.exists_of_plan {scope : Scope} {layout : Layout} {ops : List MergeOp}
    (planned : scope.plan layout = .ok ops) :
    ∃ place, ops = Plan.ops layout scope.sourcePath place scope.entries := by
  obtain ⟨place, _, same⟩ := exists_place_of_plan planned
  exact ⟨place, same⟩

/-- The plans of two files with different paths, merged into any content one after the other, give
one graph in both orders. -/
theorem files_merge_in_any_order (content : Content) (first second : Scope)
    (firstLayout secondLayout : Layout) (firstOps secondOps : List MergeOp)
    (differ : first.sourcePath ≠ second.sourcePath)
    (firstPlanned : first.plan firstLayout = .ok firstOps)
    (secondPlanned : second.plan secondLayout = .ok secondOps) :
    ((content.mergeAll firstOps).mergeAll secondOps).SameGraph
      ((content.mergeAll secondOps).mergeAll firstOps) := by
  obtain ⟨firstPlace, rfl⟩ := Scope.exists_of_plan firstPlanned
  obtain ⟨secondPlace, rfl⟩ := Scope.exists_of_plan secondPlanned
  rw [Content.mergeAll_mergeAll, Content.mergeAll_mergeAll]
  apply Content.sameGraph_of_interchange
  · exact Plan.interchange_nodeWrites differ _ _ _ _ _ _
  · exact Plan.interchange_relWrites differ _ _ _ _ _ _

/-- A function that calls, in the folders `lib` and `app`. -/
def openingFile : Scope where
  sourcePath := "lib/app/open.js"
  functions := [("open", ⟨.function, "open", "lib/app/open.js", "", none, 1, 3, [],
    [⟨["db", "open"]⟩]⟩)]
  classes := []
  exports := []

/-- A class and a call of the same names, in the same folders. -/
def closingFile : Scope where
  sourcePath := "lib/app/close.js"
  functions := [("open", ⟨.function, "open", "lib/app/close.js", "", none, 1, 1, [],
    [⟨["db", "open"]⟩]⟩)]
  classes := [("Open", ⟨.classDecl, "Open", "lib/app/close.js", "", none, 2, 4,
    [("open", ⟨.method, "open", "lib/app/close.js", "", none, 3, 3, [], [⟨["db", "open"]⟩]⟩)], []⟩)]
  exports := []

/-- A graph that has one of the folders, with a tag and a property of its own. -/
def taggedFolder : Content :=
  Content.empty.merge (.node ⟨Plan.folderKey "app", some "old", .ofList [("owner", "us")]⟩)

theorem opening_and_closing_in_any_order :
    ∃ openingOps closingOps,
      openingFile.sourcePath ≠ closingFile.sourcePath ∧
      openingFile.plan ⟨"out"⟩ = .ok openingOps ∧ closingFile.plan ⟨"docs"⟩ = .ok closingOps ∧
      ((taggedFolder.mergeAll openingOps).mergeAll closingOps).SameGraph
        ((taggedFolder.mergeAll closingOps).mergeAll openingOps) := by
  have differ : openingFile.sourcePath ≠ closingFile.sourcePath := by decide
  have opening : Containment.ofPath openingFile.sourcePath = .ok ⟨["lib", "app"], "open"⟩ := by
    decide
  have closing : Containment.ofPath closingFile.sourcePath = .ok ⟨["lib", "app"], "close"⟩ := by
    decide
  have openingPlan := congrArg (Except.map fun place =>
    Plan.ops ⟨"out"⟩ openingFile.sourcePath place openingFile.entries) opening
  have closingPlan := congrArg (Except.map fun place =>
    Plan.ops ⟨"docs"⟩ closingFile.sourcePath place closingFile.entries) closing
  exact ⟨_, _, differ, openingPlan, closingPlan,
    files_merge_in_any_order taggedFolder _ _ _ _ _ _ differ openingPlan closingPlan⟩

end ScopeGraph
