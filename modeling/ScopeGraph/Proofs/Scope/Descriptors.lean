import ScopeGraph.Proofs.Scope.Entries
import ScopeGraph.Proofs.Scope.Passes

/-!
# The descriptors of a scope

The entries of a scope list its descriptors, one entry for each.  So the counts of a scope are
counts of its entries.
-/
set_option autoImplicit false

namespace ScopeGraph

namespace Descriptor

theorem memberEntries_eq (owner : String) (depth : Nat) (members : List (String × Descriptor)) :
    memberEntries owner depth members = members.flatMap fun member =>
      member.2.entries (owner ++ "." ++ member.2.name) (some owner) depth := by
  induction members with
  | nil => rw [memberEntries, List.flatMap_nil]
  | cons member rest ih => rw [memberEntries, ih, List.flatMap_cons]

theorem entries_eq (qualifiedName : String) (owner? : Option String) (depth : Nat)
    (descriptor : Descriptor) :
    descriptor.entries qualifiedName owner? depth =
      ⟨qualifiedName, owner?, depth, descriptor⟩ :: descriptor.members.flatMap fun member =>
        member.2.entries (qualifiedName ++ "." ++ member.2.name) (some qualifiedName)
          (depth + 1) := by
  obtain ⟨kind, name, sourcePath, code, doc?, lineStart, lineEnd, members, chains⟩ := descriptor
  rw [entries, memberEntries_eq]

theorem self_mem_entries (qualifiedName : String) (owner? : Option String) (depth : Nat)
    (descriptor : Descriptor) :
    ⟨qualifiedName, owner?, depth, descriptor⟩ ∈
      descriptor.entries qualifiedName owner? depth := by
  rw [entries_eq]
  exact List.mem_cons_self

/-- What holds of a descriptor once it holds of its members holds of all descriptors. -/
theorem induction {motive : Descriptor → Prop}
    (step : ∀ descriptor, (∀ member ∈ descriptor.members, motive member.2) → motive descriptor)
    (descriptor : Descriptor) : motive descriptor :=
  step descriptor fun member _inside => induction step member.2
termination_by sizeOf descriptor
decreasing_by
  obtain ⟨kind, name, sourcePath, code, doc?, lineStart, lineEnd, members, chains⟩ := descriptor
  have smaller := List.sizeOf_lt_of_mem _inside
  obtain ⟨key, inner⟩ := member
  simp only [Prod.mk.sizeOf_spec, mk.sizeOf_spec] at smaller ⊢
  omega

end Descriptor

/-! ## All descriptors -/

/-- The functions hold no class, and the classes nothing else. -/
structure Scope.KeptApart (scope : Scope) : Prop where
  functions : ∀ descriptor ∈ scope.functions.values, descriptor.kind ≠ .classDecl
  classes : ∀ descriptor ∈ scope.classes.values, descriptor.kind = .classDecl

theorem Scope.mem_topLevel {scope : Scope} {descriptor : Descriptor} :
    descriptor ∈ scope.topLevel ↔
      (∃ key, (key, descriptor) ∈ scope.functions) ∨ ∃ key, (key, descriptor) ∈ scope.classes := by
  simp [topLevel, Listing.values]

theorem Scope.has_of_mem_topLevel {scope : Scope} {descriptor : Descriptor}
    (member : descriptor ∈ scope.topLevel) : scope.Has descriptor := by
  rcases mem_topLevel.mp member with ⟨key, held⟩ | ⟨key, held⟩
  · exact .function held
  · exact .classDecl held

theorem Descriptor.has_of_mem_entries {scope : Scope} (descriptor : Descriptor) :
    ∀ (qualifiedName : String) (owner? : Option String) (depth : Nat), scope.Has descriptor →
      ∀ entry ∈ descriptor.entries qualifiedName owner? depth, scope.Has entry.descriptor := by
  induction descriptor using Descriptor.induction with
  | step descriptor ih =>
      intro qualifiedName owner? depth has entry member
      rw [entries_eq] at member
      rcases List.mem_cons.mp member with same | below
      · rw [same]
        exact has
      · obtain ⟨inner, inside, within⟩ := List.mem_flatMap.mp below
        exact ih inner inside _ _ _ (.member has inside) entry within

theorem Scope.has_of_mem_entries {scope : Scope} {entry : Entry} (member : entry ∈ scope.entries) :
    scope.Has entry.descriptor := by
  obtain ⟨descriptor, topLevel, below⟩ := List.mem_flatMap.mp member
  exact descriptor.has_of_mem_entries _ none 0 (has_of_mem_topLevel topLevel) entry below

theorem Descriptor.exists_entry_of_mem_members (descriptor : Descriptor) :
    ∀ (qualifiedName : String) (owner? : Option String) (depth : Nat),
      ∀ holder ∈ descriptor.entries qualifiedName owner? depth,
      ∀ member ∈ holder.descriptor.members,
      ∃ entry ∈ descriptor.entries qualifiedName owner? depth, entry.descriptor = member.2 := by
  induction descriptor using Descriptor.induction with
  | step descriptor ih =>
      intro qualifiedName owner? depth holder holding member held
      rw [entries_eq] at holding ⊢
      rcases List.mem_cons.mp holding with same | below
      · rw [same] at held
        have listed := member.2.self_mem_entries (qualifiedName ++ "." ++ member.2.name)
          (some qualifiedName) (depth + 1)
        exact ⟨_, List.mem_cons_of_mem _ (List.mem_flatMap.mpr ⟨member, held, listed⟩), rfl⟩
      · obtain ⟨inner, inside, within⟩ := List.mem_flatMap.mp below
        obtain ⟨entry, found, same⟩ := ih inner inside _ _ _ holder within member held
        exact ⟨entry, List.mem_cons_of_mem _ (List.mem_flatMap.mpr ⟨inner, inside, found⟩), same⟩

theorem Scope.exists_entry_of_has {scope : Scope} {descriptor : Descriptor}
    (has : scope.Has descriptor) : ∃ entry ∈ scope.entries, entry.descriptor = descriptor := by
  have top : ∀ found ∈ scope.topLevel, ∃ entry ∈ scope.entries, entry.descriptor = found := by
    intro found member
    have listed := found.self_mem_entries (scope.topLevelName found) none 0
    exact ⟨_, List.mem_flatMap.mpr ⟨found, member, listed⟩, rfl⟩
  induction has with
  | function held => exact top _ (mem_topLevel.mpr (.inl ⟨_, held⟩))
  | classDecl held => exact top _ (mem_topLevel.mpr (.inr ⟨_, held⟩))
  | member outer held ih =>
      obtain ⟨holder, holding, rfl⟩ := ih
      obtain ⟨descriptor, topLevel, below⟩ := List.mem_flatMap.mp holding
      obtain ⟨entry, found, same⟩ :=
        descriptor.exists_entry_of_mem_members _ none 0 holder below _ held
      exact ⟨entry, List.mem_flatMap.mpr ⟨descriptor, topLevel, found⟩, same⟩

/-! ## Counts -/

namespace Descriptor

theorem descendantCount_eq (descriptor : Descriptor) :
    descriptor.descendantCount = descriptorCount descriptor.members := by
  obtain ⟨kind, name, sourcePath, code, doc?, lineStart, lineEnd, members, chains⟩ := descriptor
  rw [descendantCount]

theorem descriptorCount_eq (members : List (String × Descriptor)) :
    descriptorCount members = (members.map fun member => 1 + member.2.descendantCount).sum := by
  induction members with
  | nil => rw [descriptorCount, List.map_nil, List.sum_nil]
  | cons member rest ih => rw [descriptorCount, ih, List.map_cons, List.sum_cons]

theorem chainCount_eq (descriptor : Descriptor) :
    descriptor.chainCount = descriptor.chains.length + chainCountAll descriptor.members := by
  obtain ⟨kind, name, sourcePath, code, doc?, lineStart, lineEnd, members, chains⟩ := descriptor
  rw [chainCount]

theorem chainCountAll_eq (members : List (String × Descriptor)) :
    chainCountAll members = (members.map fun member => member.2.chainCount).sum := by
  induction members with
  | nil => rw [chainCountAll, List.map_nil, List.sum_nil]
  | cons member rest ih => rw [chainCountAll, ih, List.map_cons, List.sum_cons]

theorem length_entries (descriptor : Descriptor) :
    ∀ (qualifiedName : String) (owner? : Option String) (depth : Nat),
      (descriptor.entries qualifiedName owner? depth).length = 1 + descriptor.descendantCount := by
  induction descriptor using Descriptor.induction with
  | step descriptor ih =>
      intro qualifiedName owner? depth
      rw [entries_eq, List.length_cons, List.length_flatMap, descendantCount_eq,
        descriptorCount_eq, Nat.add_comm]
      congr 2
      exact List.map_congr_left fun member inside => ih member inside _ _ _

theorem sum_chains_entries (descriptor : Descriptor) :
    ∀ (qualifiedName : String) (owner? : Option String) (depth : Nat),
      ((descriptor.entries qualifiedName owner? depth).map
        fun entry => entry.descriptor.chains.length).sum = descriptor.chainCount := by
  induction descriptor using Descriptor.induction with
  | step descriptor ih =>
      intro qualifiedName owner? depth
      rw [entries_eq, List.map_cons, List.sum_cons, List.map_flatMap, List.flatMap_def,
        List.sum_flatten, List.map_map, chainCount_eq, chainCountAll_eq]
      congr 2
      exact List.map_congr_left fun member inside => ih member inside _ _ _

/-- Of the entries of a descriptor only its own can be one at file level. -/
theorem filter_owner_entries (qualifiedName : String) (depth : Nat) (descriptor : Descriptor) :
    (descriptor.entries qualifiedName none depth).filter (·.owner? = none) =
      [⟨qualifiedName, none, depth, descriptor⟩] := by
  rw [entries_eq, List.filter_cons_of_pos rfl, List.filter_eq_nil_iff.mpr]
  intro entry member
  obtain ⟨inner, _, within⟩ := List.mem_flatMap.mp member
  rcases entry_cases _ _ _ inner.2 entry within with same | ⟨holder, _, declares⟩
  · simp [same]
  · simp [declares.owner]

end Descriptor

namespace Scope

variable (scope : Scope)

theorem length_entries : scope.entries.length = scope.descriptorCount := by
  rw [entries, List.length_flatMap, descriptorCount, Descriptor.descriptorCount_eq,
    Descriptor.descriptorCount_eq]
  simp [topLevel, Listing.values, Descriptor.length_entries, Function.comp_def]

theorem sum_chains_entries :
    (scope.entries.map fun entry => entry.descriptor.chains.length).sum = scope.chainCount := by
  rw [entries, List.map_flatMap, List.flatMap_def, List.sum_flatten, List.map_map, chainCount,
    Descriptor.chainCountAll_eq, Descriptor.chainCountAll_eq]
  simp [topLevel, Listing.values, Descriptor.sum_chains_entries, Function.comp_def]

/-- The entries at file level: the functions, then the classes. -/
def topEntries : List Entry :=
  (scope.functions.values ++ scope.classes.values).map fun descriptor =>
    ⟨scope.topLevelName descriptor, none, 0, descriptor⟩

theorem filter_owner_entries : scope.entries.filter (·.owner? = none) = scope.topEntries := by
  rw [entries, List.filter_flatMap]
  simp only [Descriptor.filter_owner_entries]
  exact List.map_eq_flatMap.symm

theorem topLevel_entries :
    (scope.entries.filter (·.owner? = none)).map Entry.descriptor = scope.topLevel := by
  rw [filter_owner_entries, topEntries, List.map_map]
  exact List.map_id _

end Scope
end ScopeGraph
