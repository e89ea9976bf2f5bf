import ScopeGraph.Proofs.Graph.FromNothing
import ScopeGraph.Proofs.Graph.Key

/-!
# The merges of a plan

A plan merges a node for each folder, for the file, for each entry and for each segment of a call
chain.  Which segments had their node before decides the position of a node merge, not whether there
is one.  Every end of a relationship that a plan merges is one of these nodes.
-/
set_option autoImplicit false

namespace ScopeGraph

theorem nodeMerges_append (first second : List MergeOp) :
    nodeMerges (first ++ second) = nodeMerges first ++ nodeMerges second :=
  List.filterMap_append

theorem relMerges_append (first second : List MergeOp) :
    relMerges (first ++ second) = relMerges first ++ relMerges second :=
  List.filterMap_append

theorem nodeMerges_flatMap {α : Type} (items : List α) (planned : α → List MergeOp) :
    nodeMerges (items.flatMap planned) = items.flatMap fun item => nodeMerges (planned item) :=
  List.filterMap_flatMap

theorem relMerges_flatMap {α : Type} (items : List α) (planned : α → List MergeOp) :
    relMerges (items.flatMap planned) = items.flatMap fun item => relMerges (planned item) :=
  List.filterMap_flatMap

/-- All segments of the call chains of an entry, with repetitions. -/
def Entry.segments (entry : Entry) : List String :=
  entry.descriptor.chains.flatMap CallChain.segments

namespace Plan

def folderMerge (name : String) : NodeMerge :=
  ⟨folderKey name, none, Dictionary.ofList [("name", name)]⟩

def fileMerge (path fileName : String) : NodeMerge :=
  ⟨fileKey path fileName, none, Dictionary.ofList [("name", fileName), ("path", path)]⟩

def entryMerge (layout : Layout) (path tag : String) (entry : Entry) : NodeMerge :=
  ⟨entryKey path entry, some tag, Dictionary.ofList (entryProperties layout path entry)⟩

def calleeMerge (path segment : String) : NodeMerge :=
  ⟨calleeKey path segment, none, Dictionary.ofList [("name", segment), ("path", path)]⟩

def linkMerge (source : NodeKey) (kind : RelKind) (target : NodeKey) : RelMerge :=
  ⟨source, kind, target, .empty⟩

def callMerge (path : String) (caller : NodeKey) (target : String) (chain : CallChain) : RelMerge :=
  ⟨caller, .calls, calleeKey path target, Dictionary.ofList [("chain", chain.display)]⟩

/-- The relationships of one chain. -/
def chainMerges (path : String) (caller : NodeKey) (chain : CallChain) : List RelMerge :=
  match chain.target? with
  | none => []
  | some target =>
    callMerge path caller target chain ::
      relMerges (linkNext .calls (chain.segments.map (calleeKey path)))

/-! ## Links between neighbours -/

theorem nodeMerges_linkNext (kind : RelKind) (keys : List NodeKey) :
    nodeMerges (linkNext kind keys) = [] := by
  fun_induction linkNext kind keys with
  | case1 first second rest ih => exact ih
  | case2 => rfl

theorem mem_relMerges_linkNext (kind : RelKind) (key : String → NodeKey) (names : List String)
    (merge : RelMerge) :
    merge ∈ relMerges (linkNext kind (names.map key)) ↔
      ∃ first second, [first, second] <:+: names ∧
        merge = linkMerge (key first) kind (key second) := by
  induction names with
  | nil => simp [linkNext, relMerges]
  | cons first rest ih =>
      cases rest with
      | nil => simp [linkNext, relMerges, List.infix_cons_iff]
      | cons second rest =>
          change merge ∈ linkMerge (key first) kind (key second) ::
            relMerges (linkNext kind ((second :: rest).map key)) ↔ _
          rw [List.mem_cons, ih]
          constructor
          · rintro (here | ⟨left, right, next, same⟩)
            · exact ⟨first, second, ⟨[], rest, rfl⟩, here⟩
            · exact ⟨left, right, List.infix_cons next, same⟩
          · rintro ⟨left, right, next, same⟩
            rcases List.infix_cons_iff.mp next with start | later
            · left
              simp only [List.cons_prefix_cons] at start
              rw [same, start.1, start.2.1]
            · exact .inr ⟨left, right, later, same⟩

theorem mem_of_neighbours {names : List String} {first second : String}
    (next : [first, second] <:+: names) : first ∈ names ∧ second ∈ names :=
  ⟨next.subset List.mem_cons_self, next.subset (List.mem_cons_of_mem _ List.mem_cons_self)⟩

/-! ## Folders and file -/

theorem nodeMerges_folderNodes (names : List String) :
    nodeMerges (names.map fun name => .plainNode (folderKey name) [("name", name)]) =
      names.map folderMerge := by
  rw [nodeMerges, List.filterMap_map]
  exact congrFun List.filterMap_eq_map _

theorem relMerges_folderNodes (names : List String) :
    relMerges (names.map fun name => .plainNode (folderKey name) [("name", name)]) = [] := by
  rw [relMerges, List.filterMap_map]
  exact List.filterMap_eq_nil_iff.mpr fun _ _ => rfl

theorem nodeMerges_containmentOps (path : String) (place : Containment) :
    nodeMerges (containmentOps path place) =
      place.folders.map folderMerge ++ [fileMerge path place.fileName] := by
  have link : nodeMerges ((place.folders.map folderKey).getLast?.map fun folder =>
      MergeOp.link folder .contains (fileKey path place.fileName)).toList = [] := by
    cases (place.folders.map folderKey).getLast? <;> rfl
  rw [containmentOps, nodeMerges_append, nodeMerges_append, nodeMerges_folderNodes,
    nodeMerges_linkNext, List.append_nil]
  exact congrArg (place.folders.map folderMerge ++ fileMerge path place.fileName :: ·) link

theorem mem_relMerges_containmentOps (path : String) (place : Containment) (merge : RelMerge) :
    merge ∈ relMerges (containmentOps path place) ↔
      (∃ outer inner, [outer, inner] <:+: place.folders ∧
        merge = linkMerge (folderKey outer) .folder (folderKey inner)) ∨
      ∃ folder, place.folders.getLast? = some folder ∧
        merge = linkMerge (folderKey folder) .contains (fileKey path place.fileName) := by
  rw [containmentOps, relMerges_append, relMerges_append, relMerges_folderNodes, List.nil_append,
    List.mem_append, mem_relMerges_linkNext]
  refine or_congr Iff.rfl ?_
  rw [List.getLast?_map]
  cases place.folders.getLast? with
  | none => simp [relMerges, MergeOp.plainNode, MergeOp.relMerge?]
  | some folder =>
      change merge ∈ [linkMerge (folderKey folder) .contains (fileKey path place.fileName)] ↔ _
      simp

/-! ## Entries -/

section Entries

variable (layout : Layout) (path : String) (place : Containment) (entries : List Entry)

theorem nodeMerges_topLevelOps (entry : Entry) :
    nodeMerges (topLevelOps layout path place entry) =
      if entry.owner? = none then [entryMerge layout path place.fileName entry] else [] := by
  rw [topLevelOps]
  cases entry.owner? <;> rfl

theorem nodeMerges_memberOps (entry : Entry) :
    nodeMerges (memberOps layout path place entries entry) =
      if entry.owner? = none then [] else [entryMerge layout path place.fileName entry] := by
  rw [memberOps]
  cases entry.owner? with
  | none => rfl
  | some owner =>
      cases found : entries.reverse.find? (·.qualifiedName = owner) <;> simp only [found] <;> rfl

theorem mem_nodeMerges_entryOps (merge : NodeMerge) :
    merge ∈ nodeMerges (entries.flatMap (topLevelOps layout path place)) ∨
        merge ∈ nodeMerges (entries.flatMap (memberOps layout path place entries)) ↔
      ∃ entry ∈ entries, merge = entryMerge layout path place.fileName entry := by
  rw [nodeMerges_flatMap, nodeMerges_flatMap, List.mem_flatMap, List.mem_flatMap]
  constructor
  · rintro (⟨entry, member, here⟩ | ⟨entry, member, here⟩)
    · refine ⟨entry, member, ?_⟩
      rw [nodeMerges_topLevelOps] at here
      split at here
      · exact List.mem_singleton.mp here
      · cases here
    · refine ⟨entry, member, ?_⟩
      rw [nodeMerges_memberOps] at here
      split at here
      · cases here
      · exact List.mem_singleton.mp here
  · rintro ⟨entry, member, same⟩
    by_cases top : entry.owner? = none
    · refine .inl ⟨entry, member, ?_⟩
      rw [nodeMerges_topLevelOps, if_pos top, same]
      exact List.mem_singleton_self _
    · refine .inr ⟨entry, member, ?_⟩
      rw [nodeMerges_memberOps, if_neg top, same]
      exact List.mem_singleton_self _

theorem mem_relMerges_topLevelOps (merge : RelMerge) :
    merge ∈ relMerges (entries.flatMap (topLevelOps layout path place)) ↔
      ∃ entry ∈ entries, entry.owner? = none ∧
        merge = linkMerge (fileKey path place.fileName) .contains (entryKey path entry) := by
  rw [relMerges_flatMap, List.mem_flatMap]
  refine exists_congr fun entry => and_congr_right fun _ => ?_
  rw [topLevelOps]
  cases entry.owner? with
  | none =>
      change merge ∈ [linkMerge (fileKey path place.fileName) .contains (entryKey path entry)] ↔ _
      simp
  | some owner => simp [relMerges]

theorem mem_relMerges_memberOps (merge : RelMerge) :
    merge ∈ relMerges (entries.flatMap (memberOps layout path place entries)) ↔
      ∃ entry ∈ entries, ∃ owner, entry.owner? = some owner ∧
        ∃ holder, entries.reverse.find? (·.qualifiedName = owner) = some holder ∧
          merge = linkMerge (entryKey path entry) .parent (entryKey path holder) := by
  rw [relMerges_flatMap, List.mem_flatMap]
  refine exists_congr fun entry => and_congr_right fun _ => ?_
  rw [memberOps]
  cases entry.owner? with
  | none => simp [relMerges]
  | some owner =>
      simp only [Option.some.injEq, exists_eq_left']
      cases entries.reverse.find? (·.qualifiedName = owner) with
      | none => simp [relMerges, entryNode, MergeOp.relMerge?]
      | some holder =>
          change merge ∈ [linkMerge (entryKey path entry) .parent (entryKey path holder)] ↔ _
          simp

end Entries

/-! ## Callees -/

/-- Operations that merge a node for each segment whose key was not seen before, with the texts of
all keys seen then. -/
structure Introduces (path : String) (seen segments : List String)
    (result : List MergeOp × List String) : Prop where
  nodes : ∀ merge, merge ∈ nodeMerges result.1 ↔
    ∃ segment ∈ segments, (calleeKey path segment).canonical ∉ seen ∧
      merge = calleeMerge path segment
  known : ∀ segment, (calleeKey path segment).canonical ∈ result.2 ↔
    (calleeKey path segment).canonical ∈ seen ∨ segment ∈ segments

theorem Introduces.nothing (path : String) (seen : List String) :
    Introduces path seen [] ([], seen) where
  nodes merge := by simp [nodeMerges]
  known segment := by simp

theorem Introduces.append {path : String} {seen segments others : List String}
    {first rest : List MergeOp × List String} (now : Introduces path seen segments first)
    (later : Introduces path first.2 others rest) :
    Introduces path seen (segments ++ others) (first.1 ++ rest.1, rest.2) where
  nodes merge := by
    rw [nodeMerges_append, List.mem_append, now.nodes, later.nodes]
    constructor
    · rintro (⟨segment, member, fresh, same⟩ | ⟨segment, member, fresh, same⟩)
      · exact ⟨segment, List.mem_append_left _ member, fresh, same⟩
      · rw [now.known, not_or] at fresh
        exact ⟨segment, List.mem_append_right _ member, fresh.1, same⟩
    · rintro ⟨segment, member, fresh, same⟩
      -- A segment of both parts has its node from the first one.
      by_cases early : segment ∈ segments
      · exact .inl ⟨segment, early, fresh, same⟩
      · have late : segment ∈ others := (List.mem_append.mp member).resolve_left early
        have unknown : (calleeKey path segment).canonical ∉ first.2 := by
          rw [now.known, not_or]
          exact ⟨fresh, early⟩
        exact .inr ⟨segment, late, unknown, same⟩
  known segment := by
    rw [later.known, now.known, List.mem_append, or_assoc]

theorem Introduces.of_nodeMerges {path : String} {seen segments known : List String}
    {first second : List MergeOp} (now : Introduces path seen segments (first, known))
    (same : nodeMerges second = nodeMerges first) :
    Introduces path seen segments (second, known) where
  nodes merge := by
    rw [show nodeMerges (second, known).1 = nodeMerges first from same]
    exact now.nodes merge
  known := now.known

theorem introduces_calleeNodes (path : String) (segments : List String) :
    ∀ seen, Introduces path seen segments (calleeNodes path seen segments) := by
  induction segments with
  | nil => exact Introduces.nothing path
  | cons segment rest ih =>
      intro seen
      rw [calleeNodes]
      by_cases old : (calleeKey path segment).canonical ∈ seen
      · rw [if_pos old]
        have nothing : Introduces path seen [segment] ([], seen) :=
          { nodes := fun merge => by simp [nodeMerges, old]
            known := fun other => by
              have again : other = segment → (calleeKey path other).canonical ∈ seen :=
                fun same => same ▸ old
              simp [or_iff_left_of_imp again] }
        exact nothing.append (ih seen)
      · rw [if_neg old]
        have one : Introduces path seen [segment]
            ([.plainNode (calleeKey path segment) [("name", segment), ("path", path)]],
              (calleeKey path segment).canonical :: seen) :=
          { nodes := fun merge => by
              change merge ∈ [calleeMerge path segment] ↔ _
              simp [old]
            known := fun other => by simp [canonical_calleeKey_iff, or_comm] }
        exact one.append (ih _)

theorem introduces_chainOps (path : String) (caller : NodeKey) (seen : List String)
    (chain : CallChain) :
    Introduces path seen chain.segments (chainOps path caller seen chain) := by
  rw [chainOps]
  cases last : chain.target? with
  | none =>
      rw [List.getLast?_eq_none_iff.mp last]
      exact Introduces.nothing path seen
  | some target =>
      refine (introduces_calleeNodes path chain.segments seen).of_nodeMerges ?_
      rw [nodeMerges_append]
      have links := nodeMerges_linkNext .calls (chain.segments.map (calleeKey path))
      exact (congrArg (_ ++ ·) links).trans (List.append_nil _)

theorem introduces_chainsOps (path : String) (caller : NodeKey) (chains : List CallChain) :
    ∀ seen, Introduces path seen (chains.flatMap CallChain.segments)
      (chainsOps path caller seen chains) := by
  induction chains with
  | nil => exact Introduces.nothing path
  | cons chain rest ih =>
      intro seen
      exact (introduces_chainOps path caller seen chain).append (ih _)

theorem introduces_callOps (path : String) (entries : List Entry) :
    ∀ seen, ∃ known,
      Introduces path seen (entries.flatMap Entry.segments) (callOps path seen entries, known) := by
  induction entries with
  | nil => exact fun seen => ⟨seen, Introduces.nothing path seen⟩
  | cons entry rest ih =>
      intro seen
      have first := introduces_chainsOps path (entryKey path entry) entry.descriptor.chains seen
      obtain ⟨known, others⟩ := ih (chainsOps path (entryKey path entry) seen
        entry.descriptor.chains).2
      exact ⟨known, first.append others⟩

theorem mem_nodeMerges_callOps (path : String) (entries : List Entry) (merge : NodeMerge) :
    merge ∈ nodeMerges (callOps path [] entries) ↔
      ∃ segment ∈ entries.flatMap Entry.segments, merge = calleeMerge path segment := by
  obtain ⟨known, introduces⟩ := introduces_callOps path entries []
  rw [introduces.nodes merge]
  simp

/-! ## Calls -/

theorem relMerges_calleeNodes (path : String) (segments : List String) :
    ∀ seen, relMerges (calleeNodes path seen segments).1 = [] := by
  induction segments with
  | nil => exact fun _ => rfl
  | cons segment rest ih =>
      intro seen
      rw [calleeNodes]
      by_cases old : (calleeKey path segment).canonical ∈ seen
      · rw [if_pos old]
        exact ih seen
      · rw [if_neg old]
        exact ih _

theorem relMerges_chainOps (path : String) (caller : NodeKey) (seen : List String)
    (chain : CallChain) :
    relMerges (chainOps path caller seen chain).1 = chainMerges path caller chain := by
  rw [chainOps, chainMerges]
  cases chain.target? with
  | none => rfl
  | some target =>
      rw [relMerges_append, relMerges_calleeNodes]
      rfl

theorem relMerges_chainsOps (path : String) (caller : NodeKey) (chains : List CallChain) :
    ∀ seen, relMerges (chainsOps path caller seen chains).1 =
      chains.flatMap (chainMerges path caller) := by
  induction chains with
  | nil => exact fun _ => rfl
  | cons chain rest ih =>
      intro seen
      rw [chainsOps, relMerges_append, relMerges_chainOps, ih, List.flatMap_cons]

/-- The relationships of all chains of an entry. -/
def callMerges (path : String) (entry : Entry) : List RelMerge :=
  entry.descriptor.chains.flatMap (chainMerges path (entryKey path entry))

theorem relMerges_callOps (path : String) (entries : List Entry) :
    ∀ seen, relMerges (callOps path seen entries) = entries.flatMap (callMerges path) := by
  induction entries with
  | nil => exact fun _ => rfl
  | cons entry rest ih =>
      intro seen
      rw [callOps, relMerges_append, relMerges_chainsOps, ih, List.flatMap_cons]
      rfl

theorem mem_chainMerges (path : String) (caller : NodeKey) (chain : CallChain)
    (merge : RelMerge) :
    merge ∈ chainMerges path caller chain ↔
      (∃ target, chain.target? = some target ∧ merge = callMerge path caller target chain) ∨
      ∃ first second, [first, second] <:+: chain.segments ∧
        merge = linkMerge (calleeKey path first) .calls (calleeKey path second) := by
  rw [chainMerges]
  cases last : chain.target? with
  | none => simp [List.getLast?_eq_none_iff.mp last]
  | some target =>
      rw [List.mem_cons, mem_relMerges_linkNext]
      refine or_congr ?_ Iff.rfl
      simp

theorem mem_segments {entry : Entry} {chain : CallChain} {segment : String}
    (chained : chain ∈ entry.descriptor.chains) (member : segment ∈ chain.segments) :
    segment ∈ entry.segments :=
  List.mem_flatMap.mpr ⟨chain, chained, member⟩

/-! ## The whole plan -/

section Whole

variable (layout : Layout) (path : String) (place : Containment) (entries : List Entry)

theorem mem_nodeMerges_ops (merge : NodeMerge) :
    merge ∈ nodeMerges (ops layout path place entries) ↔
      (∃ name ∈ place.folders, merge = folderMerge name) ∨
      merge = fileMerge path place.fileName ∨
      (∃ entry ∈ entries, merge = entryMerge layout path place.fileName entry) ∨
      ∃ segment ∈ entries.flatMap Entry.segments, merge = calleeMerge path segment := by
  rw [← mem_nodeMerges_entryOps]
  simp only [ops, nodeMerges_append, List.mem_append, nodeMerges_containmentOps,
    mem_nodeMerges_callOps, List.mem_map, List.mem_singleton, or_assoc,
    eq_comm (a := folderMerge _)]

/-- The relationships of a plan other than its calls. -/
def structureMerges : List RelMerge :=
  relMerges (containmentOps path place) ++
    relMerges (entries.flatMap (topLevelOps layout path place)) ++
    relMerges (entries.flatMap (memberOps layout path place entries))

theorem mem_structureMerges (merge : RelMerge) :
    merge ∈ structureMerges layout path place entries ↔
      (∃ outer inner, [outer, inner] <:+: place.folders ∧
        merge = linkMerge (folderKey outer) .folder (folderKey inner)) ∨
      (∃ folder, place.folders.getLast? = some folder ∧
        merge = linkMerge (folderKey folder) .contains (fileKey path place.fileName)) ∨
      (∃ entry ∈ entries, entry.owner? = none ∧
        merge = linkMerge (fileKey path place.fileName) .contains (entryKey path entry)) ∨
      ∃ entry ∈ entries, ∃ owner, entry.owner? = some owner ∧
        ∃ holder, entries.reverse.find? (·.qualifiedName = owner) = some holder ∧
          merge = linkMerge (entryKey path entry) .parent (entryKey path holder) := by
  rw [structureMerges, List.mem_append, List.mem_append, mem_relMerges_containmentOps,
    mem_relMerges_topLevelOps, mem_relMerges_memberOps, or_assoc, or_assoc]

theorem relMerges_ops :
    relMerges (ops layout path place entries) =
      structureMerges layout path place entries ++ entries.flatMap (callMerges path) := by
  rw [ops, relMerges_append, relMerges_append, relMerges_append, relMerges_callOps]
  rfl

theorem mem_relMerges_ops (merge : RelMerge) :
    merge ∈ relMerges (ops layout path place entries) ↔
      merge ∈ structureMerges layout path place entries ∨
      ∃ entry ∈ entries, ∃ chain ∈ entry.descriptor.chains,
        merge ∈ chainMerges path (entryKey path entry) chain := by
  rw [relMerges_ops, List.mem_append, List.mem_flatMap]
  simp only [callMerges, List.mem_flatMap]

theorem ends_of_mem_relMerges_ops {link : RelMerge}
    (linked : link ∈ relMerges (ops layout path place entries)) :
    (∃ merge ∈ nodeMerges (ops layout path place entries), merge.key = link.source) ∧
      ∃ merge ∈ nodeMerges (ops layout path place entries), merge.key = link.target := by
  have folder : ∀ name ∈ place.folders,
      ∃ merge ∈ nodeMerges (ops layout path place entries), merge.key = folderKey name :=
    fun name member => ⟨folderMerge name,
      (mem_nodeMerges_ops layout path place entries _).mpr (.inl ⟨name, member, rfl⟩), rfl⟩
  have file : ∃ merge ∈ nodeMerges (ops layout path place entries),
      merge.key = fileKey path place.fileName :=
    ⟨fileMerge path place.fileName,
      (mem_nodeMerges_ops layout path place entries _).mpr (.inr (.inl rfl)), rfl⟩
  have declared : ∀ entry ∈ entries,
      ∃ merge ∈ nodeMerges (ops layout path place entries), merge.key = entryKey path entry :=
    fun entry member => ⟨entryMerge layout path place.fileName entry,
      (mem_nodeMerges_ops layout path place entries _).mpr
        (.inr (.inr (.inl ⟨entry, member, rfl⟩))), rfl⟩
  have callee : ∀ entry ∈ entries, ∀ chain ∈ entry.descriptor.chains, ∀ segment ∈ chain.segments,
      ∃ merge ∈ nodeMerges (ops layout path place entries), merge.key = calleeKey path segment :=
    fun entry member chain chained segment inside => ⟨calleeMerge path segment,
      (mem_nodeMerges_ops layout path place entries _).mpr
        (.inr (.inr (.inr ⟨segment,
          List.mem_flatMap.mpr ⟨entry, member, mem_segments chained inside⟩, rfl⟩))), rfl⟩
  rcases (mem_relMerges_ops layout path place entries link).mp linked with
    structural | ⟨entry, member, chain, chained, called⟩
  · rcases (mem_structureMerges layout path place entries link).mp structural with
      ⟨outer, inner, next, rfl⟩ | ⟨last, found, rfl⟩ | ⟨entry, member, _, rfl⟩ |
      ⟨entry, member, _, _, holder, found, rfl⟩
    · exact ⟨folder outer (mem_of_neighbours next).1, folder inner (mem_of_neighbours next).2⟩
    · exact ⟨folder last (List.mem_of_getLast? found), file⟩
    · exact ⟨file, declared entry member⟩
    · exact ⟨declared entry member,
        declared holder (List.mem_reverse.mp (List.mem_of_find?_eq_some found))⟩
  · rcases (mem_chainMerges path _ chain link).mp called with
      ⟨target, last, rfl⟩ | ⟨first, second, next, rfl⟩
    · exact ⟨declared entry member,
        callee entry member chain chained target (List.mem_of_getLast? last)⟩
    · exact ⟨callee entry member chain chained first (mem_of_neighbours next).1,
        callee entry member chain chained second (mem_of_neighbours next).2⟩

end Whole

end Plan
end ScopeGraph
