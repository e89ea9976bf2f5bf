import ScopeGraph.Scope.Entries

/-!
# Where entries come from

An entry of a scope stands at file level, or another entry of the scope directly declares it.
-/
set_option autoImplicit false

namespace ScopeGraph

/-- The member is one of the holder's own declarations, and its qualified name says so. -/
structure Entry.Declares (holder member : Entry) : Prop where
  owner : member.owner? = some holder.qualifiedName
  qualifiedName : member.qualifiedName =
    holder.qualifiedName ++ "." ++ member.descriptor.name
  inside : ∃ name, (name, member.descriptor) ∈ holder.descriptor.members

namespace Descriptor

mutual

theorem entry_cases (qualifiedName : String) (owner? : Option String) (depth : Nat) :
    ∀ (descriptor : Descriptor) (entry : Entry),
      entry ∈ descriptor.entries qualifiedName owner? depth →
      entry = ⟨qualifiedName, owner?, depth, descriptor⟩ ∨
        ∃ holder ∈ descriptor.entries qualifiedName owner? depth, holder.Declares entry
  | ⟨kind, name, sourcePath, code, doc?, lineStart, lineEnd, members, chains⟩, entry, member => by
    rw [entries] at member ⊢
    rcases List.mem_cons.mp member with same | below
    · exact .inl same
    · rcases memberEntry_cases qualifiedName (depth + 1) members entry below with
        ⟨key, found, inside, same⟩ | ⟨holder, inside, declares⟩
      · subst same
        exact .inr ⟨_, List.mem_cons_self, ⟨rfl, rfl, key, inside⟩⟩
      · exact .inr ⟨holder, List.mem_cons_of_mem _ inside, declares⟩

theorem memberEntry_cases (owner : String) (depth : Nat) :
    ∀ (members : List (String × Descriptor)) (entry : Entry),
      entry ∈ memberEntries owner depth members →
      (∃ key found, (key, found) ∈ members ∧
        entry = ⟨owner ++ "." ++ found.name, some owner, depth, found⟩) ∨
        ∃ holder ∈ memberEntries owner depth members, holder.Declares entry
  | [], entry, member => by
    rw [memberEntries] at member
    cases member
  | (key, first) :: rest, entry, member => by
    rw [memberEntries] at member ⊢
    rcases List.mem_append.mp member with here | later
    · rcases entry_cases (owner ++ "." ++ first.name) (some owner) depth first entry here with
        same | ⟨holder, inside, declares⟩
      · exact .inl ⟨key, first, List.mem_cons_self, same⟩
      · exact .inr ⟨holder, List.mem_append_left _ inside, declares⟩
    · rcases memberEntry_cases owner depth rest entry later with
        ⟨name, found, inside, same⟩ | ⟨holder, inside, declares⟩
      · exact .inl ⟨name, found, List.mem_cons_of_mem _ inside, same⟩
      · exact .inr ⟨holder, List.mem_append_right _ inside, declares⟩

end

end Descriptor

theorem Scope.entry_cases (scope : Scope) {entry : Entry} (member : entry ∈ scope.entries) :
    (entry.owner? = none ∧ entry.qualifiedName = scope.topLevelName entry.descriptor) ∨
      ∃ holder ∈ scope.entries, holder.Declares entry := by
  obtain ⟨descriptor, topLevel, below⟩ := List.mem_flatMap.mp member
  rcases Descriptor.entry_cases _ none 0 descriptor entry below with
    same | ⟨holder, inside, declares⟩
  · subst same
    exact .inl ⟨rfl, rfl⟩
  · exact .inr ⟨holder, List.mem_flatMap.mpr ⟨descriptor, topLevel, inside⟩, declares⟩

end ScopeGraph
