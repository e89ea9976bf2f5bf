import ScopeGraph.Proofs.Graph.FileOrder
import ScopeGraph.Proofs.Graph.PlanCounts
import ScopeGraph.Proofs.InOrder

/-!
# A plan merges what it links

Both ends of every relationship of a plan are nodes of the plan, and but for the link to a parent
they are merged before the relationship.  So an empty store that takes a plan has no node that is
known as an end only.
-/
set_option autoImplicit false

namespace ScopeGraph

open GraphStore (apply)

/-- One of the operations merges the node of the key. -/
def MergesNode (ops : List MergeOp) (key : NodeKey) : Prop :=
  ∃ merge ∈ nodeMerges ops, merge.key = key

theorem MergesNode.append_right {ops : List MergeOp} {key : NodeKey} (merged : MergesNode ops key)
    (more : List MergeOp) : MergesNode (ops ++ more) key := by
  obtain ⟨merge, member, same⟩ := merged
  refine ⟨merge, ?_, same⟩
  rw [nodeMerges_append]
  exact List.mem_append_left _ member

theorem MergesNode.append_left {ops : List MergeOp} {key : NodeKey} (merged : MergesNode ops key)
    (more : List MergeOp) : MergesNode (more ++ ops) key := by
  obtain ⟨merge, member, same⟩ := merged
  refine ⟨merge, ?_, same⟩
  rw [nodeMerges_append]
  exact List.mem_append_right _ member

theorem mergesNode_singleton (merge : NodeMerge) : MergesNode [.node merge] merge.key :=
  ⟨merge, List.mem_singleton_self merge, rfl⟩

/-! ## Operations in order -/

/-- An operation that links nodes by a relationship of these kinds has both of them in front. -/
def EndsMerged (kinds : RelKind → Prop) (front : List MergeOp) : MergeOp → Prop
  | .node _ => True
  | .relationship link =>
    kinds link.kind → MergesNode front link.source ∧ MergesNode front link.target

/-- The operations are in order behind those in front. -/
def FollowsOn (kinds : RelKind → Prop) (front ops : List MergeOp) : Prop :=
  InOrder (fun seen => EndsMerged kinds (front ++ seen)) ops

namespace FollowsOn

variable {kinds : RelKind → Prop} {front : List MergeOp}

theorem append {first second : List MergeOp} (now : FollowsOn kinds front first)
    (later : FollowsOn kinds (front ++ first) second) :
    FollowsOn kinds front (first ++ second) := by
  refine InOrder.append now ?_
  simpa only [FollowsOn, List.append_assoc] using later

/-- Links need only nodes that are merged in front of all of them. -/
theorem of_ends {ops : List MergeOp}
    (ends : ∀ link ∈ relMerges ops, kinds link.kind →
      MergesNode front link.source ∧ MergesNode front link.target) :
    FollowsOn kinds front ops := by
  refine InOrder.of_forall ?_
  intro op member seen
  cases op with
  | node merge => trivial
  | relationship link =>
      intro kind
      obtain ⟨source, target⟩ := ends link (mem_relMerges.mpr member) kind
      exact ⟨source.append_right seen, target.append_right seen⟩

theorem of_no_links {ops : List MergeOp} (none : relMerges ops = []) :
    FollowsOn kinds front ops := by
  refine of_ends ?_
  intro link linked
  rw [none] at linked
  cases linked

theorem node_cons {merge : NodeMerge} {ops : List MergeOp}
    (later : FollowsOn kinds (front ++ [.node merge]) ops) :
    FollowsOn kinds front (.node merge :: ops) :=
  append (of_no_links rfl) later

theorem flatMap {α : Type} {items : List α} {part : α → List MergeOp}
    (parts : ∀ item ∈ items, ∀ more, FollowsOn kinds (front ++ more) (part item)) :
    FollowsOn kinds front (items.flatMap part) := by
  refine InOrder.flatMap (.of_forall ?_)
  intro item member earlier
  simpa only [FollowsOn, List.append_assoc] using parts item member (earlier.flatMap part)

end FollowsOn

namespace Plan

variable {kinds : RelKind → Prop} {path : String}

/-! ## Folders, file and entries -/

theorem mergesNode_fileKey (path : String) (place : Containment) :
    MergesNode (containmentOps path place) (fileKey path place.fileName) := by
  refine ⟨fileMerge path place.fileName, ?_, rfl⟩
  rw [nodeMerges_containmentOps]
  exact List.mem_append_right _ (List.mem_singleton_self _)

theorem followsOn_containmentOps (path : String) (place : Containment) :
    FollowsOn kinds [] (containmentOps path place) := by
  have merged : ∀ name ∈ place.folders, MergesNode
      (place.folders.map fun name => .plainNode (folderKey name) [("name", name)])
      (folderKey name) := by
    intro name member
    refine ⟨folderMerge name, ?_, rfl⟩
    rw [nodeMerges_folderNodes]
    exact List.mem_map_of_mem member
  refine ((FollowsOn.of_no_links (relMerges_folderNodes _)).append (.of_ends ?_)).append
    (.node_cons (.of_ends ?_))
  · intro link linked _
    obtain ⟨outer, inner, next, rfl⟩ := (mem_relMerges_linkNext _ _ _ link).mp linked
    exact ⟨merged outer (mem_of_neighbours next).1, merged inner (mem_of_neighbours next).2⟩
  · intro link linked _
    rw [List.getLast?_map] at linked
    cases last : place.folders.getLast? with
    | none =>
        rw [last] at linked
        cases linked
    | some folder =>
        rw [last] at linked
        obtain rfl := List.mem_singleton.mp linked
        have outer := merged folder (List.mem_of_getLast? last)
        exact ⟨((outer.append_left []).append_right _).append_right _,
          (mergesNode_singleton _).append_left _⟩

/-- The file is merged in front of the entries, and an entry in front of its link. -/
theorem followsOn_topLevelOps {front : List MergeOp} (layout : Layout) (place : Containment)
    (entries : List Entry) (file : MergesNode front (fileKey path place.fileName)) :
    FollowsOn kinds front (entries.flatMap (topLevelOps layout path place)) := by
  refine .flatMap ?_
  intro entry _ more
  rw [topLevelOps]
  cases entry.owner? with
  | some owner => exact .of_no_links rfl
  | none =>
      refine .node_cons (.of_ends ?_)
      intro link linked _
      obtain rfl := List.mem_singleton.mp linked
      exact ⟨(file.append_right more).append_right _, (mergesNode_singleton _).append_left _⟩

theorem mergesNode_topLevelOps (layout : Layout) (path : String) (place : Containment)
    {listed : List Entry} {entry : Entry} (member : entry ∈ listed) (top : entry.owner? = none) :
    MergesNode (listed.flatMap (topLevelOps layout path place)) (entryKey path entry) := by
  refine ⟨entryMerge layout path place.fileName entry, ?_, rfl⟩
  rw [nodeMerges_flatMap, List.mem_flatMap]
  refine ⟨entry, member, ?_⟩
  rw [nodeMerges_topLevelOps, if_pos top]
  exact List.mem_singleton_self _

theorem mergesNode_memberOps (layout : Layout) (path : String) (place : Containment)
    (entries : List Entry) {listed : List Entry} {entry : Entry} (member : entry ∈ listed)
    (nested : entry.owner? ≠ none) :
    MergesNode (listed.flatMap (memberOps layout path place entries)) (entryKey path entry) := by
  refine ⟨entryMerge layout path place.fileName entry, ?_, rfl⟩
  rw [nodeMerges_flatMap, List.mem_flatMap]
  refine ⟨entry, member, ?_⟩
  rw [nodeMerges_memberOps, if_neg nested]
  exact List.mem_singleton_self _

/-! ## Calls -/

/-- The callees whose keys have been seen are merged as nodes. -/
def Merges (path : String) (front : List MergeOp) (seen : List String) : Prop :=
  ∀ segment, (calleeKey path segment).canonical ∈ seen → MergesNode front (calleeKey path segment)

/-- What was known is merged in front, and what becomes known here. -/
theorem Introduces.mergesNode {seen segments : List String} {result : List MergeOp × List String}
    {front : List MergeOp} (introduces : Introduces path seen segments result)
    (known : Merges path front seen) : Merges path (front ++ result.1) result.2 := by
  intro segment member
  by_cases old : (calleeKey path segment).canonical ∈ seen
  · exact (known segment old).append_right _
  · have new : segment ∈ segments := ((introduces.known segment).mp member).resolve_left old
    exact MergesNode.append_left
      ⟨_, (introduces.nodes _).mpr ⟨segment, new, old, rfl⟩, rfl⟩ _

theorem followsOn_chainOps {front : List MergeOp} {caller : NodeKey} {seen : List String}
    (chain : CallChain) (calling : MergesNode front caller)
    (known : Merges path front seen) :
    FollowsOn kinds front (chainOps path caller seen chain).1 := by
  have nodes := introduces_calleeNodes path chain.segments seen
  have merged : ∀ segment ∈ chain.segments,
      MergesNode (front ++ (calleeNodes path seen chain.segments).1) (calleeKey path segment) :=
    fun segment member => nodes.mergesNode known segment ((nodes.known segment).mpr (.inr member))
  rw [chainOps]
  cases last : chain.target? with
  | none => exact .of_no_links rfl
  | some target =>
      refine .append (.of_no_links (relMerges_calleeNodes path chain.segments seen)) (.of_ends ?_)
      intro link linked _
      rcases List.mem_cons.mp linked with rfl | along
      · exact ⟨calling.append_right _, merged target (List.mem_of_getLast? last)⟩
      · obtain ⟨first, second, next, rfl⟩ := (mem_relMerges_linkNext _ _ _ link).mp along
        exact ⟨merged first (mem_of_neighbours next).1, merged second (mem_of_neighbours next).2⟩

theorem followsOn_chainsOps {caller : NodeKey} (chains : List CallChain) :
    ∀ (front : List MergeOp) (seen : List String), MergesNode front caller →
      Merges path front seen →
      FollowsOn kinds front (chainsOps path caller seen chains).1 := by
  induction chains with
  | nil => exact fun _ _ _ _ => .of_no_links rfl
  | cons chain rest ih =>
      intro front seen calling known
      refine (followsOn_chainOps chain calling known).append (ih _ _ (calling.append_right _) ?_)
      exact (introduces_chainOps path caller seen chain).mergesNode known

theorem followsOn_callOps (entries : List Entry) :
    ∀ (front : List MergeOp) (seen : List String),
      (∀ entry ∈ entries, MergesNode front (entryKey path entry)) →
      Merges path front seen →
      FollowsOn kinds front (callOps path seen entries) := by
  induction entries with
  | nil => exact fun _ _ _ _ => .of_no_links rfl
  | cons entry rest ih =>
      intro front seen declared known
      have calling := declared entry List.mem_cons_self
      refine (followsOn_chainsOps entry.descriptor.chains front seen calling known).append
        (ih _ _ ?_ ?_)
      · intro other member
        exact (declared other (List.mem_cons_of_mem entry member)).append_right _
      · exact (introduces_chainsOps path _ entry.descriptor.chains seen).mergesNode known

/-! ## The whole plan -/

/-- A plan is in order if the links to parents are. -/
theorem followsOn_ops (layout : Layout) (place : Containment) (entries : List Entry)
    (members : FollowsOn kinds
      (containmentOps path place ++ entries.flatMap (topLevelOps layout path place))
      (entries.flatMap (memberOps layout path place entries))) :
    FollowsOn kinds [] (ops layout path place entries) := by
  have file := mergesNode_fileKey path place
  refine (((followsOn_containmentOps path place).append
    (followsOn_topLevelOps layout place entries file)).append members).append
      (followsOn_callOps entries _ [] ?_ nofun)
  intro entry member
  by_cases top : entry.owner? = none
  · have merged := mergesNode_topLevelOps layout path place member top
    exact ((merged.append_left _).append_right _).append_left _
  · have merged := mergesNode_memberOps layout path place entries member top
    exact (merged.append_left _).append_left _

section Whole

variable (layout : Layout) (path : String) (place : Containment) (entries : List Entry)

theorem followsOn_memberOps (front : List MergeOp) :
    FollowsOn (· ≠ .parent) front (entries.flatMap (memberOps layout path place entries)) := by
  refine .of_ends ?_
  intro link linked other
  obtain ⟨_, _, _, _, _, _, rfl⟩ :=
    (mem_relMerges_memberOps layout path place entries link).mp linked
  exact absurd rfl other

theorem count_calleeMerge {segment : String} (named : segment ∈ entries.flatMap Entry.segments) :
    (nodeMerges (ops layout path place entries)).count (calleeMerge path segment) = 1 := by
  have folders : calleeMerge path segment ∉ place.folders.map folderMerge := by
    intro member
    obtain ⟨name, _, same⟩ := List.mem_map.mp member
    exact Label.noConfusion (congrArg (fun merge => merge.key.label) same)
  have declared : calleeMerge path segment ∉
      entries.map (entryMerge layout path place.fileName) := by
    intro member
    obtain ⟨entry, _, same⟩ := List.mem_map.mp member
    exact entryKey_ne_calleeKey path entry segment
      (congrArg (fun merge => merge.key.canonical) same)
  have file : fileMerge path place.fileName ≠ calleeMerge path segment := fun same =>
    Label.noConfusion (congrArg (fun merge => merge.key.label) same)
  have once : ((entries.flatMap Entry.segments).dedup.map (calleeMerge path)).Nodup :=
    (nodeMerges_callOps_perm path entries).nodup_iff.mp (nodup_nodeMerges_callOps path entries [])
  have here : calleeMerge path segment ∈
      (entries.flatMap Entry.segments).dedup.map (calleeMerge path) :=
    List.mem_map_of_mem (List.mem_dedup.mpr named)
  rw [(nodeMerges_ops_perm layout path place entries).count_eq, List.count_append,
    List.count_eq_zero_of_not_mem folders, List.count_cons_of_ne file, List.count_append,
    List.count_eq_zero_of_not_mem declared, List.count_eq_one_of_mem once here]

/-- A callee has one node merge, however often it is named. -/
theorem filter_callee {merge : NodeMerge}
    (planned : merge ∈ nodeMerges (ops layout path place entries))
    (callee : merge.key.label = .callee) :
    ((nodeMerges (ops layout path place entries)).filter
      (·.key.canonical = merge.key.canonical)) = [merge] := by
  have noEntry : ∀ entry, merge ≠ entryMerge layout path place.fileName entry := by
    rintro entry rfl
    rcases label_entryKey_cases path entry with label | label | label <;>
      exact absurd (label.symm.trans callee) (by decide)
  have only : ∀ other ∈ nodeMerges (ops layout path place entries),
      (other.key.canonical = merge.key.canonical ↔ other = merge) := by
    intro other otherPlanned
    refine ⟨fun same => ?_, fun same => by rw [same]⟩
    rcases eq_or_entries_of_key otherPlanned planned same with equal | ⟨_, _, entry, _, _, isEntry⟩
    · exact equal
    · exact absurd isEntry (noEntry entry)
  have once : (nodeMerges (ops layout path place entries)).count merge = 1 := by
    rcases (mem_nodeMerges_ops layout path place entries merge).mp planned with
      ⟨name, _, rfl⟩ | rfl | ⟨entry, _, isEntry⟩ | ⟨segment, named, rfl⟩
    · cases callee
    · cases callee
    · exact absurd isEntry (noEntry entry)
    · exact count_calleeMerge layout path place entries named
  calc (nodeMerges (ops layout path place entries)).filter (·.key.canonical = merge.key.canonical)
      = (nodeMerges (ops layout path place entries)).filter (· = merge) :=
        List.filter_congr fun other otherPlanned => by simp only [only other otherPlanned]
    _ = List.replicate ((nodeMerges (ops layout path place entries)).count merge) merge :=
        List.filter_eq ..
    _ = [merge] := by rw [once, List.replicate_one]

theorem replaces_entryMerge (tag : String) {first second : Entry}
    (same : (entryKey path first).canonical = (entryKey path second).canonical) :
    Content.Replaces (entryMerge layout path tag second) (entryMerge layout path tag first) := by
  have labels := ((NodeKey.canonical_eq_iff _ _).mp same).1
  have names : (entryKey path first).name? = (entryKey path second).name? := by
    obtain ⟨_, named, _⟩ := canonical_entryKey_inj same
    have name (entry : Entry) : (entryKey path entry).name? = some entry.descriptor.name := by
      unfold entryKey
      cases entry.owner? <;> rfl
    rw [name, name, named]
  constructor <;>
    simp [NodeRow.update, NodeRow.ofMerge, NodeRow.ofKey, entryMerge, labels, names, same]

theorem closed_ops : Content.Closed (ops layout path place entries) where
  toMergesEnds := mergesEnds_ops layout path place entries
  replaces first firstPlanned second secondPlanned same := by
    rcases eq_or_entries_of_key firstPlanned secondPlanned same with
      rfl | ⟨entry, _, other, _, rfl, rfl⟩
    · exact .refl first
    · exact replaces_entryMerge layout path place.fileName same

end Whole

end Plan

/-- A plan merges both ends of its relationships as nodes, each callee once, and but for the links
to parents it merges the ends first.  Applied to an empty database, it leaves only nodes that stand
as a node merge has them. -/
theorem plans_leave_no_bare_ends (scope : Scope) (layout : Layout) (ops : List MergeOp)
    (planned : scope.plan layout = .ok ops) :
    (∀ link ∈ relMerges ops, MergesNode ops link.source ∧ MergesNode ops link.target) ∧
    (∀ front link back, ops = front ++ .relationship link :: back → link.kind ≠ .parent →
      MergesNode front link.source ∧ MergesNode front link.target) ∧
    (∀ link ∈ relMerges ops, ∀ key ∈ [link.source, link.target], key.label = .callee →
      ∃ merge, merge.key = key ∧
        (nodeMerges ops).filter (·.key.canonical = key.canonical) = [merge]) ∧
    ∀ row ∈ (apply ops (Database.ofContent .empty)).2.committed.nodes,
      ∃ merge ∈ nodeMerges ops, row = NodeRow.ofMerge merge := by
  obtain ⟨place, rfl⟩ := Scope.exists_of_plan planned
  have ends (link : RelMerge) (linked : link ∈ relMerges _) :=
    Plan.ends_of_mem_relMerges_ops layout scope.sourcePath place scope.entries linked
  refine ⟨ends, ?_, ?_, ?_⟩
  · intro front link back parts kind
    have members := Plan.followsOn_memberOps layout scope.sourcePath place scope.entries
      (Plan.containmentOps scope.sourcePath place ++
        scope.entries.flatMap (Plan.topLevelOps layout scope.sourcePath place))
    exact Plan.followsOn_ops layout place scope.entries members front (.relationship link) back
      parts kind
  · intro link linked key isEnd callee
    obtain ⟨merge, merged, rfl⟩ : MergesNode _ key := by
      rcases List.mem_pair.mp isEnd with rfl | rfl
      · exact (ends link linked).1
      · exact (ends link linked).2
    exact ⟨merge, rfl, Plan.filter_callee layout scope.sourcePath place scope.entries merged callee⟩
  · intro row stored
    rw [Database.apply_ofContent] at stored
    exact (Plan.closed_ops ..).exists_nodeMerge_of_mem stored

/-- The callee `db` stands on three chains of two declarations. -/
theorem plan_of_sharedNames_merges_db_once :
    let db := Plan.calleeKey sharedNames.sourcePath "db"
    ∃ ops, sharedNames.plan ⟨"out"⟩ = .ok ops ∧
      (∃ link ∈ relMerges ops, link.source = db ∧ link.target = db) ∧
      (∃ merge, merge.key = db ∧
        (nodeMerges ops).filter (·.key.canonical = db.canonical) = [merge]) ∧
      ∀ row ∈ (apply ops (Database.ofContent .empty)).2.committed.nodes,
        ∃ merge ∈ nodeMerges ops, row = NodeRow.ofMerge merge := by
  intro db
  have contained : Containment.ofPath sharedNames.sourcePath =
      .ok ⟨["lib", "app", "lib"], "user"⟩ := by decide
  have planned := Scope.plan_of_place ⟨"out"⟩ contained
  obtain ⟨link, linked, source, target⟩ : ∃ link ∈ relMerges (Plan.ops ⟨"out"⟩
      sharedNames.sourcePath ⟨["lib", "app", "lib"], "user"⟩ sharedNames.entries),
      link.source = db ∧ link.target = db := by
    decide +kernel
  obtain ⟨_, _, callees, rows⟩ := plans_leave_no_bare_ends sharedNames ⟨"out"⟩ _ planned
  refine ⟨_, planned, ⟨link, linked, source, target⟩, ?_, rows⟩
  exact callees link linked db (by rw [source]; exact List.mem_cons_self) rfl

end ScopeGraph
