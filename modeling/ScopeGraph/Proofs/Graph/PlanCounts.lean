import Mathlib.Algebra.GroupWithZero.Nat
import ScopeGraph.Proofs.Graph.ScopeContent

/-!
# How many merges a plan has

A plan merges one node for each folder, the file, one for each entry, and one for each segment that
differs from the others.  It merges one relationship for each folder and each entry, and as many for
a call chain as the chain has segments.
-/
set_option autoImplicit false

namespace ScopeGraph

theorem length_eq_merges (ops : List MergeOp) :
    ops.length = (nodeMerges ops).length + (relMerges ops).length := by
  induction ops with
  | nil => rfl
  | cons op rest ih =>
      cases op with
      | node merge =>
          change rest.length + 1 = ((nodeMerges rest).length + 1) + (relMerges rest).length
          omega
      | relationship merge =>
          change rest.length + 1 = (nodeMerges rest).length + ((relMerges rest).length + 1)
          omega

namespace Plan

/-! ## Nodes -/

/-- What is introduced later is not introduced again. -/
theorem Introduces.nodup_append {path : String} {seen segments others : List String}
    {first rest : List MergeOp × List String} (now : Introduces path seen segments first)
    (later : Introduces path first.2 others rest) (once : (nodeMerges first.1).Nodup)
    (onceLater : (nodeMerges rest.1).Nodup) : (nodeMerges (first.1 ++ rest.1)).Nodup := by
  rw [nodeMerges_append]
  refine List.nodup_append.mpr ⟨once, onceLater, ?_⟩
  rintro merge early other late rfl
  obtain ⟨segment, member, _, rfl⟩ := (now.nodes merge).mp early
  obtain ⟨again, _, unknown, same⟩ := (later.nodes _).mp late
  have names : segment = again :=
    canonical_calleeKey_inj (congrArg (fun merge => merge.key.canonical) same)
  exact unknown ((now.known again).mpr (.inr (names ▸ member)))

theorem nodup_nodeMerges_calleeNodes (path : String) (segments : List String) :
    ∀ seen, (nodeMerges (calleeNodes path seen segments).1).Nodup := by
  induction segments with
  | nil => exact fun _ => List.nodup_nil
  | cons segment rest ih =>
      intro seen
      rw [calleeNodes]
      by_cases old : (calleeKey path segment).canonical ∈ seen
      · rw [if_pos old]
        exact ih seen
      · rw [if_neg old]
        refine List.nodup_cons.mpr ⟨?_, ih _⟩
        intro again
        obtain ⟨other, _, unknown, same⟩ := ((introduces_calleeNodes path rest _).nodes _).mp again
        have texts : (calleeKey path other).canonical = (calleeKey path segment).canonical :=
          (congrArg (fun merge => merge.key.canonical) same).symm
        apply unknown
        rw [texts]
        exact List.mem_cons_self

theorem nodup_nodeMerges_chainOps (path : String) (caller : NodeKey) (seen : List String)
    (chain : CallChain) : (nodeMerges (chainOps path caller seen chain).1).Nodup := by
  rw [chainOps]
  cases chain.target? with
  | none => exact List.nodup_nil
  | some target =>
      have links := nodeMerges_linkNext .calls (chain.segments.map (calleeKey path))
      have once := nodup_nodeMerges_calleeNodes path chain.segments seen
      rw [nodeMerges_append]
      change (_ ++ nodeMerges (linkNext .calls (chain.segments.map (calleeKey path)))).Nodup
      rw [links, List.append_nil]
      exact once

theorem nodup_nodeMerges_chainsOps (path : String) (caller : NodeKey) (chains : List CallChain) :
    ∀ seen, (nodeMerges (chainsOps path caller seen chains).1).Nodup := by
  induction chains with
  | nil => exact fun _ => List.nodup_nil
  | cons chain rest ih =>
      intro seen
      exact (introduces_chainOps path caller seen chain).nodup_append
        (introduces_chainsOps path caller rest _) (nodup_nodeMerges_chainOps path caller seen chain)
        (ih _)

theorem nodup_nodeMerges_callOps (path : String) (entries : List Entry) :
    ∀ seen, (nodeMerges (callOps path seen entries)).Nodup := by
  induction entries with
  | nil => exact fun _ => List.nodup_nil
  | cons entry rest ih =>
      intro seen
      have first := introduces_chainsOps path (entryKey path entry) entry.descriptor.chains seen
      obtain ⟨known, others⟩ := introduces_callOps path rest
        (chainsOps path (entryKey path entry) seen entry.descriptor.chains).2
      exact first.nodup_append others
        (nodup_nodeMerges_chainsOps path (entryKey path entry) entry.descriptor.chains seen) (ih _)

theorem nodeMerges_callOps_perm (path : String) (entries : List Entry) :
    (nodeMerges (callOps path [] entries)).Perm
      ((entries.flatMap Entry.segments).dedup.map (calleeMerge path)) := by
  have different : ((entries.flatMap Entry.segments).dedup.map (calleeMerge path)).Nodup :=
    (List.nodup_dedup _).map fun _ _ same =>
      canonical_calleeKey_inj (congrArg (fun merge => merge.key.canonical) same)
  rw [List.perm_ext_iff_of_nodup (nodup_nodeMerges_callOps path entries []) different]
  intro merge
  rw [mem_nodeMerges_callOps, List.mem_map]
  simp only [List.mem_dedup, eq_comm (a := merge)]

section Whole

variable (layout : Layout) (path : String) (place : Containment) (entries : List Entry)

theorem nodeMerges_entryOps_perm (listed : List Entry) :
    (nodeMerges (listed.flatMap (topLevelOps layout path place)) ++
        nodeMerges (listed.flatMap (memberOps layout path place entries))).Perm
      (listed.map (entryMerge layout path place.fileName)) := by
  rw [nodeMerges_flatMap, nodeMerges_flatMap]
  induction listed with
  | nil => exact .nil
  | cons entry rest ih =>
      rw [List.flatMap_cons, List.flatMap_cons, nodeMerges_topLevelOps, nodeMerges_memberOps,
        List.map_cons]
      by_cases top : entry.owner? = none
      · rw [if_pos top, if_pos top]
        exact ih.cons _
      · rw [if_neg top, if_neg top]
        exact List.perm_middle.trans (ih.cons _)

/-- The node merges of a plan, up to their order. -/
theorem nodeMerges_ops_perm :
    (nodeMerges (ops layout path place entries)).Perm
      (place.folders.map folderMerge ++ fileMerge path place.fileName ::
        (entries.map (entryMerge layout path place.fileName) ++
          (entries.flatMap Entry.segments).dedup.map (calleeMerge path))) := by
  have behind := (nodeMerges_entryOps_perm layout path place entries entries).append
    (nodeMerges_callOps_perm path entries)
  rw [List.append_assoc] at behind
  rw [ops, nodeMerges_append, nodeMerges_append, nodeMerges_append, nodeMerges_containmentOps]
  simp only [List.append_assoc, List.singleton_append]
  exact (behind.cons _).append_left _

theorem length_nodeMerges_ops :
    (nodeMerges (ops layout path place entries)).length =
      place.folders.length + 1 + entries.length +
        (entries.flatMap Entry.segments).dedup.length := by
  rw [(nodeMerges_ops_perm layout path place entries).length_eq]
  simp only [List.length_append, List.length_cons, List.length_map]
  omega

/-- Only entries have the labels of declarations. -/
theorem countP_label_ops (counts : Label → Bool) (noFolder : ¬ counts .folder)
    (noFile : ¬ counts .file) (noCallee : ¬ counts .callee) :
    (nodeMerges (ops layout path place entries)).countP (counts ·.key.label) =
      entries.countP fun entry => counts (entryKey path entry).label := by
  have folders : (place.folders.map folderMerge).countP (counts ·.key.label) = 0 := by
    rw [List.countP_map]
    exact List.countP_eq_zero.mpr fun _ _ => noFolder
  have callees : ((entries.flatMap Entry.segments).dedup.map (calleeMerge path)).countP
      (counts ·.key.label) = 0 := by
    rw [List.countP_map]
    exact List.countP_eq_zero.mpr fun _ _ => noCallee
  rw [(nodeMerges_ops_perm layout path place entries).countP_eq, List.countP_append, folders,
    List.countP_cons, List.countP_append, callees, List.countP_map]
  have file : ¬ counts (fileMerge path place.fileName).key.label := noFile
  rw [if_neg file, Nat.zero_add, Nat.add_zero]
  rfl

end Whole

/-! ## Relationships -/

theorem length_relMerges_linkNext (kind : RelKind) (keys : List NodeKey) :
    (relMerges (linkNext kind keys)).length = keys.length - 1 := by
  fun_induction linkNext kind keys with
  | case1 first second rest ih =>
      change (relMerges (linkNext kind (second :: rest))).length + 1 = rest.length + 1
      rw [ih]
      rfl
  | case2 keys short =>
      cases keys with
      | nil => rfl
      | cons first rest =>
          cases rest with
          | nil => rfl
          | cons second rest => exact absurd rfl (short first second rest)

/-- A folder has a link from the one before, or else the first folder makes up for the link that the
last one has to the file. -/
theorem length_relMerges_containmentOps (path : String) (place : Containment) :
    (relMerges (containmentOps path place)).length = place.folders.length := by
  rw [containmentOps, relMerges_append, relMerges_append, relMerges_folderNodes, List.nil_append,
    List.length_append, length_relMerges_linkNext, List.length_map, List.getLast?_map]
  cases last : place.folders.getLast? with
  | none =>
      rw [List.getLast?_eq_none_iff.mp last]
      rfl
  | some folder =>
      have filled := List.length_pos_of_mem (List.mem_of_getLast? last)
      change place.folders.length - 1 + 1 = place.folders.length
      omega

theorem length_chainMerges (path : String) (caller : NodeKey) (chain : CallChain) :
    (chainMerges path caller chain).length = chain.segments.length := by
  rw [chainMerges]
  cases last : chain.target? with
  | none =>
      rw [List.getLast?_eq_none_iff.mp last]
      rfl
  | some target =>
      have filled := List.length_pos_of_mem (List.mem_of_getLast? last)
      rw [List.length_cons, length_relMerges_linkNext, List.length_map]
      omega

theorem length_callMerges (path : String) (entry : Entry) :
    (callMerges path entry).length =
      (entry.descriptor.chains.map fun chain => chain.segments.length).sum := by
  rw [callMerges, List.length_flatMap]
  simp only [length_chainMerges]

section Entries

variable (layout : Layout) (path : String) (place : Containment) (entries : List Entry)

/-- Every entry has one link: from the file, or to the entry that its owner names. -/
theorem length_relMerges_entryOps (listed : List Entry)
    (held : ∀ entry ∈ listed, ∀ owner, entry.owner? = some owner →
      ∃ holder ∈ entries, holder.qualifiedName = owner) :
    (relMerges (listed.flatMap (topLevelOps layout path place))).length +
      (relMerges (listed.flatMap (memberOps layout path place entries))).length =
        listed.length := by
  rw [relMerges_flatMap, relMerges_flatMap]
  induction listed with
  | nil => rfl
  | cons entry rest ih =>
      have later := ih fun other member => held other (List.mem_cons_of_mem entry member)
      have here : (relMerges (topLevelOps layout path place entry)).length +
          (relMerges (memberOps layout path place entries entry)).length = 1 := by
        rw [topLevelOps, memberOps]
        cases owned : entry.owner? with
        | none => rfl
        | some owner =>
            obtain ⟨holder, holding, named⟩ := held entry List.mem_cons_self owner owned
            cases search : entries.reverse.find? (·.qualifiedName = owner) with
            | none =>
                have missing := List.find?_eq_none.mp search holder (List.mem_reverse.mpr holding)
                exact absurd (decide_eq_true named) missing
            | some found =>
                simp only [search]
                rfl
      rw [List.flatMap_cons, List.flatMap_cons, List.length_append, List.length_append,
        List.length_cons]
      omega

theorem length_relMerges_ops
    (held : ∀ entry ∈ entries, ∀ owner, entry.owner? = some owner →
      ∃ holder ∈ entries, holder.qualifiedName = owner) :
    (relMerges (ops layout path place entries)).length =
      place.folders.length + entries.length +
        (entries.map fun entry =>
          (entry.descriptor.chains.map fun chain => chain.segments.length).sum).sum := by
  have declared := length_relMerges_entryOps layout path place entries entries held
  rw [relMerges_ops, structureMerges, List.length_append, List.length_append, List.length_append,
    length_relMerges_containmentOps, List.length_flatMap]
  simp only [length_callMerges]
  omega

end Entries

/-! ## Calls that name their chain -/

/-- The relationship is a call with a chain among its properties. -/
def NamesChain (merge : RelMerge) : Prop :=
  merge.kind = .calls ∧ (merge.properties.get? "chain").isSome

instance (merge : RelMerge) : Decidable (NamesChain merge) := inferInstanceAs (Decidable (_ ∧ _))

theorem not_namesChain_link (source : NodeKey) (kind : RelKind) (target : NodeKey) :
    ¬ NamesChain (linkMerge source kind target) := by
  rintro ⟨_, has⟩
  cases has

theorem countP_namesChain_chainMerges (path : String) (caller : NodeKey) (chain : CallChain) :
    (chainMerges path caller chain).countP (NamesChain ·) =
      if chain.segments = [] then 0 else 1 := by
  rw [chainMerges]
  cases last : chain.target? with
  | none =>
      rw [if_pos (List.getLast?_eq_none_iff.mp last)]
      rfl
  | some target =>
      have filled := List.ne_nil_of_mem (List.mem_of_getLast? last)
      have links : (relMerges (linkNext .calls (chain.segments.map (calleeKey path)))).countP
          (NamesChain ·) = 0 := by
        refine List.countP_eq_zero.mpr fun merge member named => ?_
        obtain ⟨first, second, _, rfl⟩ := (mem_relMerges_linkNext _ _ _ merge).mp member
        exact not_namesChain_link _ _ _ (of_decide_eq_true named)
      have call : NamesChain (callMerge path caller target chain) := by
        refine ⟨rfl, ?_⟩
        simp [callMerge, Dictionary.ofList]
      dsimp only
      rw [if_neg filled, List.countP_cons, links, if_pos (decide_eq_true call)]

theorem countP_namesChain_ops (layout : Layout) (path : String) (place : Containment)
    (entries : List Entry)
    (filled : ∀ entry ∈ entries, ∀ chain ∈ entry.descriptor.chains, chain.segments ≠ []) :
    (relMerges (ops layout path place entries)).countP (NamesChain ·) =
      (entries.map fun entry => entry.descriptor.chains.length).sum := by
  have structural : (structureMerges layout path place entries).countP (NamesChain ·) = 0 := by
    refine List.countP_eq_zero.mpr fun merge member named => ?_
    exact (plain_of_mem_structureMerges member).2 (of_decide_eq_true named).1
  rw [relMerges_ops, List.countP_append, structural, Nat.zero_add, List.countP_flatMap]
  congr 1
  refine List.map_congr_left fun entry member => ?_
  have ones : entry.descriptor.chains.map
      (List.countP (NamesChain ·) ∘ chainMerges path (entryKey path entry)) =
        entry.descriptor.chains.map fun _ => 1 := by
    refine List.map_congr_left fun chain chained => ?_
    rw [Function.comp, countP_namesChain_chainMerges, if_neg (filled entry member chain chained)]
  rw [Function.comp, callMerges, List.countP_flatMap, ones]
  simp

end Plan
end ScopeGraph
