import ScopeGraph.Proofs.InOrder
import ScopeGraph.Proofs.Scope.Descriptors

/-!
# The order of entries

The entries of a scope are what a stack lists that starts with the file level and puts the members
of each entry in its place.  Depths never grow down the stack, and what holds an entry on it was the
last one listed at its level.  So the depths in the list alone tell what an entry holds and what
holds it.
-/
set_option autoImplicit false

namespace ScopeGraph

namespace Entry

/-- The entries of the own declarations. -/
def children (entry : Entry) : List Entry :=
  entry.descriptor.members.map fun member =>
    ⟨entry.qualifiedName ++ "." ++ member.2.name, some entry.qualifiedName, entry.depth + 1,
      member.2⟩

/-- The entry and all below it. -/
def tree (entry : Entry) : List Entry :=
  entry.descriptor.entries entry.qualifiedName entry.owner? entry.depth

theorem tree_eq (entry : Entry) : entry.tree = entry :: entry.children.flatMap tree := by
  rw [tree, Descriptor.entries_eq, children, List.flatMap_map]
  rfl

theorem declares_of_mem_children {entry child : Entry} (member : child ∈ entry.children) :
    entry.Declares child := by
  obtain ⟨inner, inside, rfl⟩ := List.mem_map.mp member
  exact ⟨rfl, rfl, inner.1, inside⟩

theorem depth_of_mem_children {entry child : Entry} (member : child ∈ entry.children) :
    child.depth = entry.depth + 1 := by
  obtain ⟨inner, _, rfl⟩ := List.mem_map.mp member
  rfl

theorem length_below (entry : Entry) :
    (entry.children.flatMap tree).length = entry.descriptor.descendantCount := by
  have whole := entry.descriptor.length_entries entry.qualifiedName entry.owner? entry.depth
  rw [show entry.descriptor.entries _ _ _ = entry.tree from rfl, tree_eq, List.length_cons] at whole
  omega

/-! ## Depths -/

theorem depth_le_of_mem_tree {root entry : Entry} (member : entry ∈ root.tree) :
    root.depth ≤ entry.depth := by
  obtain ⟨qualifiedName, owner?, depth, descriptor⟩ := root
  induction descriptor using Descriptor.induction generalizing qualifiedName owner? depth with
  | step descriptor ih =>
      rw [tree_eq] at member
      rcases List.mem_cons.mp member with same | below
      · rw [same]
      · obtain ⟨child, isChild, within⟩ := List.mem_flatMap.mp below
        obtain ⟨inner, inside, rfl⟩ := List.mem_map.mp isChild
        exact Nat.le_of_succ_le (ih inner inside _ _ _ within)

theorem depth_lt_of_mem_below {root entry : Entry} (member : entry ∈ root.children.flatMap tree) :
    root.depth < entry.depth := by
  obtain ⟨child, isChild, within⟩ := List.mem_flatMap.mp member
  have deeper := depth_le_of_mem_tree within
  rwa [depth_of_mem_children isChild] at deeper

theorem filter_depth_below (root : Entry) :
    (root.children.flatMap tree).filter (·.depth = root.depth + 1) = root.children := by
  have alone : ∀ child ∈ root.children,
      child.tree.filter (·.depth = root.depth + 1) = [child] := by
    intro child isChild
    have level := depth_of_mem_children isChild
    rw [tree_eq, List.filter_cons_of_pos (by simpa using level), List.filter_eq_nil_iff.mpr]
    intro entry below
    have deeper := depth_lt_of_mem_below below
    simp only [decide_eq_true_eq]
    omega
  rw [List.filter_flatMap, List.flatMap_congr alone]
  exact List.flatMap_singleton' _

/-! ## The stack -/

theorem length_flatMap_reverse (entries : List Entry) :
    (entries.reverse.flatMap tree).length = (entries.flatMap tree).length :=
  ((List.reverse_perm entries).flatMap_right tree).length_eq

/-- Takes the last entry, lists it and puts its children on the stack, the first of them last. -/
def unstack (stack : List Entry) : List Entry :=
  match _top : stack.getLast? with
  | none => []
  | some entry => entry :: unstack (stack.dropLast ++ entry.children.reverse)
-- What is yet to be listed gets less by the entry that is taken.
termination_by (stack.flatMap tree).length
decreasing_by
  have whole := congrArg (fun stack => (stack.flatMap tree).length)
    (List.dropLast_append_getLast? entry _top)
  simp only [List.flatMap_append, List.length_append, List.flatMap_singleton, tree_eq entry,
    List.length_cons] at whole
  rw [← whole, List.flatMap_append, List.length_append, length_flatMap_reverse]
  omega

theorem unstack_eq (stack : List Entry) : unstack stack = stack.reverse.flatMap tree := by
  fun_induction unstack stack with
  | case1 stack empty => rw [List.getLast?_eq_none_iff.mp empty, List.reverse_nil, List.flatMap_nil]
  | case2 stack entry top ih =>
      have whole := List.dropLast_append_getLast? entry top
      rw [ih, List.reverse_append, List.reverse_reverse, List.flatMap_append, ← List.cons_append,
        ← tree_eq]
      conv => rhs; rw [← whole]
      simp

/-- The entry stands at file level, or the last of these entries one level above declares it. -/
def HeldByLast (listed : List Entry) (entry : Entry) : Prop :=
  entry.owner? = none ∨ ∃ holder, listed.reverse.find? (·.depth + 1 = entry.depth) = some holder ∧
    holder.Declares entry

/-- What is listed at the same depth or below does not come between. -/
theorem HeldByLast.append {listed : List Entry} {entry next : Entry}
    (held : HeldByLast listed entry) (deeper : entry.depth ≤ next.depth) :
    HeldByLast (listed ++ [next]) entry := by
  refine held.imp_right fun ⟨holder, found, declares⟩ => ⟨holder, ?_, declares⟩
  have passes : ¬ next.depth + 1 = entry.depth := by omega
  rw [List.reverse_concat, List.find?_cons_of_neg (by simpa using passes)]
  exact found

theorem heldByLast_child (listed : List Entry) {entry child : Entry}
    (member : child ∈ entry.children) : HeldByLast (listed ++ [entry]) child := by
  refine .inr ⟨entry, ?_, declares_of_mem_children member⟩
  rw [List.reverse_concat, List.find?_cons_of_pos]
  simpa using (depth_of_mem_children member).symm

/-- The entry stands at file level, or one of these entries declares it. -/
def HeldAmong (front : List Entry) (entry : Entry) : Prop :=
  entry.owner? = none ∨ ∃ holder ∈ front, holder.Declares entry

theorem HeldByLast.heldAmong {listed : List Entry} {entry : Entry}
    (held : HeldByLast listed entry) : HeldAmong listed entry := by
  refine held.imp_right fun ⟨holder, found, declares⟩ => ⟨holder, ?_, declares⟩
  exact List.mem_reverse.mp (List.mem_of_find?_eq_some found)

/-- The stack, its top first, after these entries were listed. -/
structure Pending (listed stack : List Entry) : Prop where
  descending : stack.Pairwise fun upper lower => lower.depth ≤ upper.depth
  held : ∀ entry ∈ stack, HeldByLast listed entry

theorem Pending.step {listed rest : List Entry} {entry : Entry}
    (pending : Pending listed (entry :: rest)) :
    Pending (listed ++ [entry]) (entry.children ++ rest) := by
  obtain ⟨lower, descending⟩ := List.pairwise_cons.mp pending.descending
  constructor
  · refine List.pairwise_append.mpr ⟨?_, descending, ?_⟩
    · exact List.pairwise_map.mpr (List.pairwise_of_forall fun _ _ => Nat.le_refl _)
    · intro child isChild other waiting
      rw [depth_of_mem_children isChild]
      exact Nat.le_succ_of_le (lower other waiting)
  · intro other member
    rcases List.mem_append.mp member with isChild | waiting
    · exact heldByLast_child listed isChild
    · exact (pending.held other (List.mem_cons_of_mem _ waiting)).append (lower other waiting)

/-- Every entry of the list is once on top of the stack. -/
theorem Pending.run {listed stack before after : List Entry} {entry : Entry}
    (pending : Pending listed stack) (parts : stack.flatMap tree = before ++ entry :: after) :
    ∃ rest, after = entry.children.flatMap tree ++ rest.flatMap tree ∧
      Pending (listed ++ before) (entry :: rest) := by
  induction before generalizing listed stack with
  | nil =>
      cases stack with
      | nil => cases parts
      | cons top rest =>
          rw [List.flatMap_cons, tree_eq] at parts
          obtain ⟨rfl, rfl⟩ := List.cons.inj parts
          exact ⟨rest, rfl, by rwa [List.append_nil]⟩
  | cons first before ih =>
      cases stack with
      | nil => cases parts
      | cons top rest =>
          rw [List.flatMap_cons, tree_eq, List.cons_append, ← List.flatMap_append,
            List.cons_append] at parts
          obtain ⟨rfl, later⟩ := List.cons.inj parts
          obtain ⟨waiting, same, reached⟩ := ih pending.step later
          exact ⟨waiting, same, by rwa [List.append_assoc] at reached⟩

theorem Pending.takeWhile_deeper {listed rest : List Entry} {entry : Entry}
    (pending : Pending listed (entry :: rest)) :
    (entry.children.flatMap tree ++ rest.flatMap tree).takeWhile (entry.depth < ·.depth) =
      entry.children.flatMap tree := by
  have below : ∀ inner ∈ entry.children.flatMap tree, decide (entry.depth < inner.depth) = true :=
    fun inner member => decide_eq_true (depth_lt_of_mem_below member)
  rw [List.takeWhile_append_of_pos below]
  cases rest with
  | nil => simp
  | cons next rest =>
      have above := (List.pairwise_cons.mp pending.descending).1 next List.mem_cons_self
      rw [List.flatMap_cons, tree_eq next, List.cons_append, List.takeWhile_cons_of_neg,
        List.append_nil]
      simpa using above

end Entry

/-! ## The list -/

namespace Scope

theorem entries_eq (scope : Scope) : scope.entries = scope.topEntries.flatMap Entry.tree := by
  rw [topEntries, List.flatMap_map]
  rfl

theorem pending_topEntries (scope : Scope) : Entry.Pending [] scope.topEntries where
  descending := List.pairwise_map.mpr (List.pairwise_of_forall fun _ _ => Nat.le_refl _)
  held := by
    intro entry member
    obtain ⟨descriptor, _, rfl⟩ := List.mem_map.mp member
    exact .inl rfl

theorem inOrder_entries (scope : Scope) : InOrder Entry.HeldAmong scope.entries := by
  intro before entry after parts
  rw [entries_eq] at parts
  obtain ⟨rest, _, pending⟩ := scope.pending_topEntries.run parts
  exact (pending.held entry List.mem_cons_self).heldAmong

/-- The entries are in the order in which a stack lists them, and those without an owner are the
functions and then the classes of the file.  Behind an entry come the entries of its members, up to
the first one that is no deeper; those one level down are its children in their order, and all of
them are as many as its descendants.  An entry with an owner is declared by the last entry before it
that is one level up.  There is one entry for each descriptor, and their chains are those of the
scope. -/
theorem entries_are_in_preorder (scope : Scope) :
    scope.entries = Entry.unstack scope.topEntries.reverse ∧
      scope.entries.filter (·.owner? = none) = scope.topEntries ∧
      (∀ before entry after, scope.entries = before ++ entry :: after →
        let below := after.takeWhile (entry.depth < ·.depth)
        below = entry.children.flatMap Entry.tree ∧
          below.filter (·.depth = entry.depth + 1) = entry.children ∧
          below.length = entry.descriptor.descendantCount ∧
          ∀ owner, entry.owner? = some owner → ∃ holder,
            before.reverse.find? (·.depth + 1 = entry.depth) = some holder ∧
            holder.qualifiedName = owner ∧
            entry.qualifiedName = owner ++ "." ++ entry.descriptor.name) ∧
      scope.entries.length = scope.descriptorCount ∧
      (scope.entries.map fun entry => entry.descriptor.chains.length).sum = scope.chainCount := by
  refine ⟨?_, scope.filter_owner_entries, ?_, scope.length_entries, scope.sum_chains_entries⟩
  · rw [Entry.unstack_eq, List.reverse_reverse, entries_eq]
  · intro before entry after parts
    rw [entries_eq] at parts
    obtain ⟨rest, rfl, pending⟩ := scope.pending_topEntries.run parts
    dsimp only
    rw [pending.takeWhile_deeper]
    refine ⟨rfl, entry.filter_depth_below, entry.length_below, fun owner owned => ?_⟩
    rcases pending.held entry List.mem_cons_self with none | ⟨holder, found, declares⟩
    · cases none.symm.trans owned
    · obtain rfl : holder.qualifiedName = owner :=
        Option.some.inj (declares.owner.symm.trans owned)
      exact ⟨holder, found, rfl, declares.qualifiedName⟩

/-- The function comes first, and the method behind its neighbour's own function. -/
theorem entries_of_nested_class_are_in_preorder :
    let declare (kind : DeclKind) (name : String) (members : List (String × Descriptor)) :
        Descriptor := ⟨kind, name, "a.js", "", none, 1, 1, members, []⟩
    let parse := declare .function "parse" []
    let get := declare .method "get" [("parse", parse)]
    let put := declare .method "put" []
    let api := declare .classDecl "Api" [("get", get), ("put", put)]
    let main := declare .function "main" []
    let scope : Scope := ⟨"a.js", [("main", main)], [("Api", api)], []⟩
    let front : List Entry := [⟨"main", none, 0, main⟩, ⟨"Api", none, 0, api⟩]
    let back : List Entry := [⟨"Api.get.parse", some "Api.get", 2, parse⟩,
      ⟨"Api.put", some "Api", 1, put⟩]
    scope.entries = front ++ ⟨"Api.get", some "Api", 1, get⟩ :: back ∧
      (back.takeWhile (1 < ·.depth)).length = get.descendantCount ∧
      ∃ holder, front.reverse.find? (·.depth + 1 = 1) = some holder ∧
        holder.qualifiedName = "Api" := by
  intro declare parse get put api main scope front back
  have parts : scope.entries = front ++ ⟨"Api.get", some "Api", 1, get⟩ :: back := by
    rfl
  obtain ⟨_, _, placed, _⟩ := entries_are_in_preorder scope
  obtain ⟨_, _, count, owners⟩ := placed front _ back parts
  obtain ⟨holder, found, owner, _⟩ := owners "Api" rfl
  exact ⟨parts, count, holder, found, owner⟩

end Scope
end ScopeGraph
