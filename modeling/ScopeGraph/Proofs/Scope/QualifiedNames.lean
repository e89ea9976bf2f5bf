import Mathlib.Data.List.Nodup
import ScopeGraph.Proofs.Files.Path
import ScopeGraph.Proofs.Scope.Descriptors

/-!
# Qualified names

Where no name holds a dot, the parts of a qualified name are the names on the way down to a
declaration, and all that a declaration holds has its parts in front.  Of two declarations side by
side neither has its parts at the start of the other's, so no two declarations share a qualified
name.
-/
set_option autoImplicit false

namespace ScopeGraph

/-- What stands between the dots of a qualified name. -/
def nameParts (qualifiedName : String) : List (List Char) :=
  Text.splitAt '.' qualifiedName.toList

theorem nameParts_of_notMem {name : String} (plain : '.' ∉ name.toList) :
    nameParts name = [name.toList] :=
  Text.splitAt_of_notMem plain

theorem nameParts_append (owner name : String) (plain : '.' ∉ name.toList) :
    nameParts (owner ++ "." ++ name) = nameParts owner ++ [name.toList] := by
  have chars : (owner ++ "." ++ name).toList = owner.toList ++ '.' :: name.toList := by
    simp [String.toList_append]
  rw [nameParts, chars, Text.splitAt_append_cons, Text.splitAt_of_notMem plain, nameParts]

/-- Neither name has the parts of the other at its start. -/
structure Unrelated (first second : String) : Prop where
  forward : ¬ nameParts first <+: nameParts second
  backward : ¬ nameParts second <+: nameParts first

theorem unrelated_of_parts (front : List (List Char)) {first second left right : String}
    {rest others : List (List Char)} (firstParts : nameParts first = front ++ left.toList :: rest)
    (secondParts : nameParts second = front ++ right.toList :: others) (differ : left ≠ right) :
    Unrelated first second := by
  have apart : left.toList ≠ right.toList := fun same => differ (String.toList_injective same)
  constructor
  · rw [firstParts, secondParts, List.prefix_append_right_inj, List.cons_prefix_cons]
    exact fun both => apart both.1
  · rw [firstParts, secondParts, List.prefix_append_right_inj, List.cons_prefix_cons]
    exact fun both => apart both.1.symm

/-- Names below unrelated stems are different. -/
theorem nodup_names_flatMap {α : Type} {items : List α} {stem : α → String}
    {part : α → List Entry}
    (below : ∀ item ∈ items, ∀ entry ∈ part item,
      nameParts (stem item) <+: nameParts entry.qualifiedName)
    (each : ∀ item ∈ items, ((part item).map Entry.qualifiedName).Nodup)
    (apart : items.Pairwise fun first second => Unrelated (stem first) (stem second)) :
    ((items.flatMap part).map Entry.qualifiedName).Nodup := by
  rw [List.map_flatMap, List.nodup_flatMap]
  refine ⟨each, apart.imp_of_mem ?_⟩
  intro first second firstMember secondMember unrelated
  refine List.disjoint_left.mpr ?_
  intro name inFirst inSecond
  obtain ⟨left, leftMember, rfl⟩ := List.mem_map.mp inFirst
  obtain ⟨right, rightMember, same⟩ := List.mem_map.mp inSecond
  have leftBelow := below first firstMember left leftMember
  have rightBelow := below second secondMember right rightMember
  rw [same] at rightBelow
  rcases List.prefix_or_prefix_of_prefix leftBelow rightBelow with start | start
  · exact unrelated.forward start
  · exact unrelated.backward start

/-! ## Scopes -/

/-- Every key is the name of its descriptor, and no key comes twice. -/
structure Members.Keyed (members : Members) : Prop where
  own : ∀ member ∈ members, member.1 = member.2.name
  once : members.names.Nodup

instance (members : Members) : Decidable members.Keyed :=
  decidable_of_iff ((∀ member ∈ members, member.1 = member.2.name) ∧ members.names.Nodup)
    ⟨fun both => ⟨both.1, both.2⟩, fun keyed => ⟨keyed.own, keyed.once⟩⟩

theorem Members.Keyed.pairwise_name {members : Members} (keyed : members.Keyed) :
    members.Pairwise fun first second => first.2.name ≠ second.2.name := by
  have once := List.pairwise_map.mp keyed.once
  refine once.imp_of_mem ?_
  intro first second firstMember secondMember differ
  rw [← keyed.own first firstMember, ← keyed.own second secondMember]
  exact differ

theorem Members.Keyed.pairwise_values {members : Members} (keyed : members.Keyed) :
    members.values.Pairwise fun first second => first.name ≠ second.name :=
  List.pairwise_map.mpr keyed.pairwise_name

/-- What makes the qualified names of a scope unambiguous. -/
structure Scope.PlainlyNamed (scope : Scope) : Prop extends scope.KeptApart where
  keyedFunctions : Members.Keyed scope.functions
  keyedClasses : Members.Keyed scope.classes
  keyedMembers : ∀ descriptor, scope.Has descriptor → Members.Keyed descriptor.members
  noDot : ∀ descriptor, scope.Has descriptor → '.' ∉ descriptor.name.toList
  notClass : ∀ descriptor ∈ scope.topLevel, descriptor.name ≠ "class"

theorem Scope.plainlyNamed_iff (scope : Scope) :
    scope.PlainlyNamed ↔
      ((∀ descriptor ∈ scope.functions.values, descriptor.kind ≠ .classDecl) ∧
        ∀ descriptor ∈ scope.classes.values, descriptor.kind = .classDecl) ∧
      (Members.Keyed scope.functions ∧ Members.Keyed scope.classes) ∧
      (∀ entry ∈ scope.entries,
        Members.Keyed entry.descriptor.members ∧ '.' ∉ entry.descriptor.name.toList) ∧
      ∀ descriptor ∈ scope.topLevel, descriptor.name ≠ "class" := by
  constructor
  · intro named
    refine ⟨⟨named.functions, named.classes⟩, ⟨named.keyedFunctions, named.keyedClasses⟩, ?_,
      named.notClass⟩
    intro entry member
    have has := has_of_mem_entries member
    exact ⟨named.keyedMembers _ has, named.noDot _ has⟩
  · rintro ⟨⟨functions, classes⟩, ⟨keyedFunctions, keyedClasses⟩, each, notClass⟩
    have all : ∀ descriptor, scope.Has descriptor →
        Members.Keyed descriptor.members ∧ '.' ∉ descriptor.name.toList := by
      intro descriptor has
      obtain ⟨entry, member, rfl⟩ := exists_entry_of_has has
      exact each entry member
    exact
      { functions, classes, keyedFunctions, keyedClasses, notClass
        keyedMembers := fun descriptor has => (all descriptor has).1
        noDot := fun descriptor has => (all descriptor has).2 }

instance (scope : Scope) : Decidable scope.PlainlyNamed :=
  decidable_of_iff _ scope.plainlyNamed_iff.symm

namespace Descriptor

variable {scope : Scope} (named : scope.PlainlyNamed)

include named

theorem nameParts_start (descriptor : Descriptor) :
    ∀ (qualifiedName : String) (owner? : Option String) (depth : Nat), scope.Has descriptor →
      ∀ entry ∈ descriptor.entries qualifiedName owner? depth,
        nameParts qualifiedName <+: nameParts entry.qualifiedName := by
  induction descriptor using Descriptor.induction with
  | step descriptor ih =>
      intro qualifiedName owner? depth has entry member
      rw [entries_eq] at member
      rcases List.mem_cons.mp member with same | below
      · subst same
        exact List.prefix_rfl
      · obtain ⟨inner, inside, within⟩ := List.mem_flatMap.mp below
        have hasInner : scope.Has inner.2 := .member has inside
        have longer := ih inner inside _ _ _ hasInner entry within
        rw [nameParts_append _ _ (named.noDot inner.2 hasInner)] at longer
        exact (List.prefix_append _ _).trans longer

theorem nodup_names (descriptor : Descriptor) :
    ∀ (qualifiedName : String) (owner? : Option String) (depth : Nat), scope.Has descriptor →
      ((descriptor.entries qualifiedName owner? depth).map Entry.qualifiedName).Nodup := by
  induction descriptor using Descriptor.induction with
  | step descriptor ih =>
      intro qualifiedName owner? depth has
      have parts : ∀ inner ∈ descriptor.members,
          nameParts (qualifiedName ++ "." ++ inner.2.name) =
            nameParts qualifiedName ++ [inner.2.name.toList] := fun inner inside =>
        nameParts_append _ _ (named.noDot inner.2 (.member has inside))
      have below : ∀ inner ∈ descriptor.members, ∀ entry ∈ inner.2.entries
          (qualifiedName ++ "." ++ inner.2.name) (some qualifiedName) (depth + 1),
          nameParts (qualifiedName ++ "." ++ inner.2.name) <+: nameParts entry.qualifiedName :=
        fun inner inside => inner.2.nameParts_start named _ _ _ (.member has inside)
      rw [entries_eq, List.map_cons, List.nodup_cons]
      constructor
      · -- What is nested has more parts.
        intro member
        obtain ⟨entry, nested, same⟩ := List.mem_map.mp member
        change entry.qualifiedName = qualifiedName at same
        obtain ⟨inner, inside, within⟩ := List.mem_flatMap.mp nested
        have longer := (below inner inside entry within).length_le
        rw [same, parts inner inside, List.length_append, List.length_singleton] at longer
        omega
      · refine nodup_names_flatMap below ?_ ?_
        · intro inner inside
          exact ih inner inside _ _ _ (.member has inside)
        · refine (named.keyedMembers descriptor has).pairwise_name.imp_of_mem ?_
          intro first second firstInside secondInside differ
          exact unrelated_of_parts _ (parts first firstInside) (parts second secondInside) differ

end Descriptor

namespace Scope.PlainlyNamed

variable {scope : Scope} (named : scope.PlainlyNamed)

include named

theorem nameParts_function {descriptor : Descriptor}
    (member : descriptor ∈ scope.functions.values) :
    nameParts (scope.topLevelName descriptor) = [descriptor.name.toList] := by
  have has : scope.Has descriptor := has_of_mem_topLevel (List.mem_append_left _ member)
  have other := named.functions descriptor member
  rw [topLevelName, if_neg fun both => other both.1]
  exact nameParts_of_notMem (named.noDot descriptor has)

theorem nameParts_class {descriptor : Descriptor} (member : descriptor ∈ scope.classes.values) :
    nameParts (scope.topLevelName descriptor) =
      if descriptor.name ∈ scope.functions.names then ["class".toList, descriptor.name.toList]
      else [descriptor.name.toList] := by
  have has : scope.Has descriptor := has_of_mem_topLevel (List.mem_append_right _ member)
  have plain := named.noDot descriptor has
  have isClass := named.classes descriptor member
  by_cases shared : descriptor.name ∈ scope.functions.names
  · rw [topLevelName, if_pos ⟨isClass, shared⟩, if_pos shared]
    exact nameParts_append "class" descriptor.name plain
  · rw [topLevelName, if_neg fun both => shared both.2, if_neg shared]
    exact nameParts_of_notMem plain

theorem unrelated_function_class {function classDecl : Descriptor}
    (isFunction : function ∈ scope.functions.values) (isClass : classDecl ∈ scope.classes.values) :
    Unrelated (scope.topLevelName function) (scope.topLevelName classDecl) := by
  have functionParts := named.nameParts_function isFunction
  have classParts := named.nameParts_class isClass
  by_cases shared : classDecl.name ∈ scope.functions.names
  · rw [if_pos shared] at classParts
    have notClass := named.notClass function (List.mem_append_left _ isFunction)
    exact unrelated_of_parts [] functionParts classParts notClass
  · rw [if_neg shared] at classParts
    refine unrelated_of_parts [] functionParts classParts ?_
    intro same
    obtain ⟨⟨key, _⟩, held, rfl⟩ := List.mem_map.mp isFunction
    rw [← same, ← named.keyedFunctions.own _ held] at shared
    exact shared (List.mem_map_of_mem held)

theorem unrelated_classes {first second : Descriptor} (isFirst : first ∈ scope.classes.values)
    (isSecond : second ∈ scope.classes.values) (differ : first.name ≠ second.name) :
    Unrelated (scope.topLevelName first) (scope.topLevelName second) := by
  have firstParts := named.nameParts_class isFirst
  have secondParts := named.nameParts_class isSecond
  have firstNot := named.notClass first (List.mem_append_right _ isFirst)
  have secondNot := named.notClass second (List.mem_append_right _ isSecond)
  by_cases firstShared : first.name ∈ scope.functions.names
  · rw [if_pos firstShared] at firstParts
    by_cases secondShared : second.name ∈ scope.functions.names
    · rw [if_pos secondShared] at secondParts
      exact unrelated_of_parts ["class".toList] firstParts secondParts differ
    · rw [if_neg secondShared] at secondParts
      exact unrelated_of_parts [] firstParts secondParts secondNot.symm
  · rw [if_neg firstShared] at firstParts
    by_cases secondShared : second.name ∈ scope.functions.names
    · rw [if_pos secondShared] at secondParts
      exact unrelated_of_parts [] firstParts secondParts firstNot
    · rw [if_neg secondShared] at secondParts
      exact unrelated_of_parts [] firstParts secondParts differ

theorem pairwise_topLevel :
    scope.topLevel.Pairwise fun first second =>
      Unrelated (scope.topLevelName first) (scope.topLevelName second) := by
  rw [topLevel, List.pairwise_append]
  refine ⟨?_, ?_, ?_⟩
  · refine named.keyedFunctions.pairwise_values.imp_of_mem ?_
    intro first second isFirst isSecond differ
    exact unrelated_of_parts [] (named.nameParts_function isFirst)
      (named.nameParts_function isSecond) differ
  · refine named.keyedClasses.pairwise_values.imp_of_mem ?_
    intro first second isFirst isSecond differ
    exact named.unrelated_classes isFirst isSecond differ
  · intro function isFunction classDecl isClass
    exact named.unrelated_function_class isFunction isClass

theorem nodup_qualifiedNames : (scope.entries.map Entry.qualifiedName).Nodup := by
  refine nodup_names_flatMap ?_ ?_ named.pairwise_topLevel
  · intro descriptor member
    exact descriptor.nameParts_start named _ none 0 (has_of_mem_topLevel member)
  · intro descriptor member
    exact descriptor.nodup_names named _ none 0 (has_of_mem_topLevel member)

end Scope.PlainlyNamed
end ScopeGraph
