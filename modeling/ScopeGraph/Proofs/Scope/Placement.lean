import ScopeGraph.Proofs.Syntax.Places

/-!
# Where declarations stand

A declaration holds the next scopes of its body; a class holds what the entries of its body are.
The declarations of a file are the next scopes of its root and whatever these hold in turn.  No
declaration stands at or below the place of another one that is held by the same declaration.
-/
set_option autoImplicit false

namespace ScopeGraph

open Syntax

namespace Syntax

/-- Neither place is on the way to the other. -/
def Place.Apart (first second : Place) : Prop := ¬ first <+: second ∧ ¬ second <+: first

theorem Place.apart_append (outer first second : Place) :
    Place.Apart (outer ++ first) (outer ++ second) ↔ Place.Apart first second := by
  simp only [Apart, List.prefix_append_right_inj]

theorem Place.apart_of_ne {i j : Nat} (differ : i ≠ j) (first second : Place) :
    Place.Apart (i :: first) (j :: second) := by
  constructor
  · intro above
    exact differ (List.cons_prefix_cons.mp above).1
  · intro above
    exact differ (List.cons_prefix_cons.mp above).1.symm

namespace Node

/-- The body is the first child that fills `body`. -/
def BodyAt (node : Node) (i : Nat) (body : Node) : Prop :=
  node.children.findIdx? (·.field = some .body) = some i ∧ node.children[i]? = some body

theorem child?_body_eq_some_iff (node body : Node) :
    node.child? .body = some body ↔ ∃ i, node.BodyAt i body := by
  rw [child?, List.find?_eq_bind_findIdx?_getElem?, Option.bind_eq_some_iff]
  rfl

theorem BodyAt.unique {node body other : Node} {i j : Nat} (first : node.BodyAt i body)
    (second : node.BodyAt j other) : i = j ∧ body = other := by
  have same : i = j := Option.some.inj (first.1.symm.trans second.1)
  subst same
  exact ⟨rfl, Option.some.inj (first.2.symm.trans second.2)⟩

/-- The slots of a node with their places. -/
def placedSlots (node : Node) : List (Place × Node) :=
  reachedBelow (fun _ => false) isSlot 0 node.children

theorem reached_closed (node : Node) : node.reached (fun _ => false) isSlot = [([], node)] := by
  rw [reached_eq]
  rfl

theorem map_snd_placedSlots (node : Node) : node.placedSlots.map Prod.snd = node.slots := by
  have closed : ∀ other ∈ node.children,
      (other.reached (fun _ => false) isSlot).map Prod.snd = other.visit fun _ => false :=
    fun other _ => map_snd_reached (fun _ => false) other
  rw [placedSlots, map_snd_reachedBelow (fun _ => false) node.children closed, slots]
  induction node.children with
  | nil => rfl
  | cons child rest ih =>
      rw [visitSlots, visit_eq]
      by_cases isSlot : child.isSlot <;> simp_all

theorem mem_placedSlots (node : Node) (placed : Place × Node) :
    placed ∈ node.placedSlots ↔
      ∃ j child, node.children[j]? = some child ∧ child.isSlot ∧ placed = ([j], child) := by
  rw [placedSlots, mem_reachedBelow]
  simp only [reached_closed, List.mem_singleton, exists_eq_left, under, Nat.zero_add,
    List.append_nil, eq_comm (b := placed)]

theorem pairwise_placedSlots (node : Node) :
    node.placedSlots.Pairwise fun first second => first.1 ≠ second.1 := by
  have sorted := pairwise_reachedBelow (fun _ => false) isSlot node.children 0
  exact sorted.imp Place.ne_of_lex

theorem pairwise_apart_of_frontier {root : Node} {placed : List (Place × Node)}
    (reached : ∀ place node, (place, node) ∈ placed → root.Frontier place node)
    (distinct : placed.Pairwise fun first second => first.1 ≠ second.1) :
    placed.Pairwise fun first second => Place.Apart first.1 second.1 := by
  refine List.Pairwise.imp_of_mem ?_ distinct
  intro first second firstMember secondMember differ
  have left := reached first.1 first.2 firstMember
  have right := reached second.1 second.2 secondMember
  constructor
  · intro above
    exact differ (left.eq_of_above right above)
  · intro above
    exact differ (right.eq_of_above left above).symm

theorem pairwise_apart_scopePlaces (root : Node) :
    root.scopePlaces.Pairwise fun first second => Place.Apart first.1 second.1 := by
  refine pairwise_apart_of_frontier (fun place node => (root.mem_scopePlaces place node).mp) ?_
  exact root.pairwise_scopePlaces.imp Place.ne_of_lex

theorem pairwise_apart_scopePlacesByDepth (root : Node) :
    root.scopePlacesByDepth.Pairwise fun first second => Place.Apart first.1 second.1 := by
  refine pairwise_apart_of_frontier
    (fun place node => (root.mem_scopePlacesByDepth place node).mp) ?_
  exact root.pairwise_scopePlacesByDepth.imp Place.ne_of_shortlex

end Node
end Syntax

namespace Declaration

/-- What one entry of a class body declares, at places below the entry. -/
inductive OfEntry (entry : Node) : Place → Declaration → Prop where
  | method (kind : entry.kind = .methodDefinition) : OfEntry entry [] ⟨.method, entry⟩
  | innerClass (kind : entry.kind = .classDeclaration ∨ entry.kind = .classExpression) :
    OfEntry entry [] ⟨.classDecl, entry⟩
  | below {place : Place} {node : Node}
      (kind : entry.kind = .fieldDefinition ∨ entry.kind = .classStaticBlock)
      (reached : entry.Frontier place node) : OfEntry entry place (ofScope node)

/-- What a declaration directly holds, at places below its node. -/
inductive Holds (holder : Declaration) : Place → Declaration → Prop where
  | scope {i : Nat} {body node : Node} {place : Place} (isBody : holder.node.BodyAt i body)
      (noClass : holder.kind ≠ .classDecl) (reached : body.Frontier place node) :
    Holds holder (i :: place) (ofScope node)
  | entry {i j : Nat} {body entry : Node} {place : Place} {held : Declaration}
      (isBody : holder.node.BodyAt i body) (isClass : holder.kind = .classDecl)
      (found : body.children[j]? = some entry) (isSlot : entry.isSlot)
      (declared : OfEntry entry place held) : Holds holder (i :: j :: place) held

/-! ## The same as lists -/

def placedOfScopes (placed : List (Place × Node)) : List (Place × Declaration) :=
  placed.map fun scope => (scope.1, ofScope scope.2)

def placedOfEntry (entry : Node) : List (Place × Declaration) :=
  match entry.kind with
  | .methodDefinition => [([], ⟨.method, entry⟩)]
  | .classDeclaration | .classExpression => [([], ⟨.classDecl, entry⟩)]
  | .fieldDefinition | .classStaticBlock => placedOfScopes entry.scopePlacesByDepth
  | _ => []

def placedOfBody (kind : DeclKind) (body : Node) : List (Place × Declaration) :=
  match kind with
  | .function => placedOfScopes body.scopePlaces
  | .method => placedOfScopes body.scopePlacesByDepth
  | .classDecl => body.placedSlots.flatMap fun entry =>
      (placedOfEntry entry.2).map (Node.under entry.1)

/-- The declarations of `inner` with their places. -/
def placedInner (holder : Declaration) : List (Place × Declaration) :=
  match holder.node.children.findIdx? (·.field = some .body), holder.node.child? .body with
  | some i, some body => (placedOfBody holder.kind body).map (Node.under [i])
  | _, _ => []

theorem placedInner_of_bodyAt {holder : Declaration} {i : Nat} {body : Node}
    (isBody : holder.node.BodyAt i body) :
    holder.placedInner = (placedOfBody holder.kind body).map (Node.under [i]) := by
  have found := (holder.node.child?_body_eq_some_iff body).mpr ⟨i, isBody⟩
  rw [placedInner, isBody.1, found]

theorem placedInner_of_none {holder : Declaration} (missing : holder.node.child? .body = none) :
    holder.placedInner = [] := by
  rw [placedInner, missing]
  split
  · contradiction
  · rfl

theorem map_snd_placedOfScopes (placed : List (Place × Node)) :
    (placedOfScopes placed).map Prod.snd = (placed.map Prod.snd).map ofScope := by
  simp [placedOfScopes]

theorem map_snd_placedOfEntry (entry : Node) :
    (placedOfEntry entry).map Prod.snd = ofClassEntry entry := by
  have below : (placedOfScopes entry.scopePlacesByDepth).map Prod.snd =
      entry.scopesByDepth.map ofScope := by
    rw [map_snd_placedOfScopes, Node.map_snd_scopePlacesByDepth]
  unfold placedOfEntry ofClassEntry
  generalize entry.kind = kind
  cases kind <;> first | rfl | exact below

theorem map_snd_placedOfBody (kind : DeclKind) (body : Node) :
    (placedOfBody kind body).map Prod.snd = ofBody kind body := by
  cases kind with
  | function => rw [placedOfBody, map_snd_placedOfScopes, Node.map_snd_scopePlaces, ofBody]
  | method => rw [placedOfBody, map_snd_placedOfScopes, Node.map_snd_scopePlacesByDepth, ofBody]
  | classDecl =>
      rw [placedOfBody, ofBody, ← Node.map_snd_placedSlots, List.map_flatMap, List.flatMap_map]
      simp only [Node.map_snd_under, map_snd_placedOfEntry]

theorem map_snd_placedInner (holder : Declaration) :
    holder.placedInner.map Prod.snd = holder.inner := by
  cases has : holder.node.child? .body with
  | none =>
      rw [placedInner_of_none has, inner, has]
      rfl
  | some body =>
      obtain ⟨i, isBody⟩ := (holder.node.child?_body_eq_some_iff body).mp has
      rw [placedInner_of_bodyAt isBody, Node.map_snd_under, map_snd_placedOfBody, inner, has]

theorem mem_placedOfScopes {placed : List (Place × Node)} {place : Place} {held : Declaration} :
    (place, held) ∈ placedOfScopes placed ↔
      ∃ node, (place, node) ∈ placed ∧ held = ofScope node := by
  simp only [placedOfScopes, List.mem_map, Prod.exists, Prod.mk.injEq]
  constructor
  · rintro ⟨_, node, member, rfl, rfl⟩
    exact ⟨node, member, rfl⟩
  · rintro ⟨node, member, rfl⟩
    exact ⟨place, node, member, rfl, rfl⟩

theorem mem_placedOfEntry (entry : Node) (place : Place) (held : Declaration) :
    (place, held) ∈ placedOfEntry entry ↔ OfEntry entry place held := by
  constructor
  · intro member
    unfold placedOfEntry at member
    split at member
    · next kind =>
      cases List.mem_singleton.mp member
      exact .method kind
    · next kind =>
      cases List.mem_singleton.mp member
      exact .innerClass (.inl kind)
    · next kind =>
      cases List.mem_singleton.mp member
      exact .innerClass (.inr kind)
    · next kind =>
      obtain ⟨node, inside, rfl⟩ := mem_placedOfScopes.mp member
      exact .below (.inl kind) ((entry.mem_scopePlacesByDepth place node).mp inside)
    · next kind =>
      obtain ⟨node, inside, rfl⟩ := mem_placedOfScopes.mp member
      exact .below (.inr kind) ((entry.mem_scopePlacesByDepth place node).mp inside)
    · cases member
  · intro declared
    cases declared with
    | method kind => simp [placedOfEntry, kind]
    | innerClass kind => rcases kind with kind | kind <;> simp [placedOfEntry, kind]
    | @below place node kind reached =>
        have inside := mem_placedOfScopes.mpr
          ⟨node, (entry.mem_scopePlacesByDepth place node).mpr reached, rfl⟩
        rcases kind with kind | kind <;> simpa [placedOfEntry, kind] using inside

theorem mem_map_under {α : Type} {outer place : Place} {item : α} {placed : List (Place × α)} :
    (place, item) ∈ placed.map (Node.under outer) ↔
      ∃ inner, (inner, item) ∈ placed ∧ place = outer ++ inner := by
  simp only [List.mem_map, Node.under, Prod.exists, Prod.mk.injEq]
  constructor
  · rintro ⟨inner, _, member, rfl, rfl⟩
    exact ⟨inner, member, rfl⟩
  · rintro ⟨inner, member, rfl⟩
    exact ⟨inner, item, member, rfl, rfl⟩

theorem mem_placedOfBody_of_ne_class {kind : DeclKind} (noClass : kind ≠ .classDecl) (body : Node)
    (place : Place) (held : Declaration) :
    (place, held) ∈ placedOfBody kind body ↔
      ∃ node, body.Frontier place node ∧ held = ofScope node := by
  cases kind with
  | function => simp only [placedOfBody, mem_placedOfScopes, Node.mem_scopePlaces]
  | method => simp only [placedOfBody, mem_placedOfScopes, Node.mem_scopePlacesByDepth]
  | classDecl => exact absurd rfl noClass

theorem mem_placedOfBody_class (body : Node) (place : Place) (held : Declaration) :
    (place, held) ∈ placedOfBody .classDecl body ↔
      ∃ j entry further, body.children[j]? = some entry ∧ entry.isSlot ∧
        OfEntry entry further held ∧ place = j :: further := by
  rw [placedOfBody, List.mem_flatMap]
  constructor
  · rintro ⟨slot, slotMember, below⟩
    obtain ⟨j, entry, found, isSlot, rfl⟩ := (body.mem_placedSlots slot).mp slotMember
    obtain ⟨further, declared, rfl⟩ := mem_map_under.mp below
    exact ⟨j, entry, further, found, isSlot,
      (mem_placedOfEntry entry further held).mp declared, rfl⟩
  · rintro ⟨j, entry, further, found, isSlot, declared, rfl⟩
    refine ⟨([j], entry), (body.mem_placedSlots _).mpr ⟨j, entry, found, isSlot, rfl⟩, ?_⟩
    exact mem_map_under.mpr ⟨further, (mem_placedOfEntry entry further held).mpr declared, rfl⟩

theorem mem_placedInner (holder : Declaration) (place : Place) (held : Declaration) :
    (place, held) ∈ holder.placedInner ↔ holder.Holds place held := by
  constructor
  · intro member
    cases has : holder.node.child? .body with
    | none =>
        rw [placedInner_of_none has] at member
        cases member
    | some body =>
        obtain ⟨i, isBody⟩ := (holder.node.child?_body_eq_some_iff body).mp has
        rw [placedInner_of_bodyAt isBody] at member
        obtain ⟨inside, within, rfl⟩ := mem_map_under.mp member
        by_cases isClass : holder.kind = .classDecl
        · rw [isClass] at within
          obtain ⟨j, entry, further, found, isSlot, declared, rfl⟩ :=
            (mem_placedOfBody_class body inside held).mp within
          exact .entry isBody isClass found isSlot declared
        · obtain ⟨node, reached, rfl⟩ :=
            (mem_placedOfBody_of_ne_class isClass body inside held).mp within
          exact .scope isBody isClass reached
  · intro holds
    cases holds with
    | scope isBody noClass reached =>
        rw [placedInner_of_bodyAt isBody]
        exact mem_map_under.mpr
          ⟨_, (mem_placedOfBody_of_ne_class noClass _ _ _).mpr ⟨_, reached, rfl⟩, rfl⟩
    | entry isBody isClass found isSlot declared =>
        rw [placedInner_of_bodyAt isBody, isClass]
        exact mem_map_under.mpr
          ⟨_, (mem_placedOfBody_class _ _ _).mpr ⟨_, _, _, found, isSlot, declared, rfl⟩, rfl⟩

theorem mem_inner_iff (holder held : Declaration) :
    held ∈ holder.inner ↔ ∃ place, holder.Holds place held := by
  rw [← map_snd_placedInner]
  simp only [List.mem_map, Prod.exists, exists_eq_right, mem_placedInner]

/-! ## Held declarations stand apart -/

theorem pairwise_apart_under {α : Type} {placed : List (Place × α)} (outer : Place)
    (apart : placed.Pairwise fun first second => Place.Apart first.1 second.1) :
    (placed.map (Node.under outer)).Pairwise fun first second =>
      Place.Apart first.1 second.1 := by
  refine List.pairwise_map.mpr (apart.imp ?_)
  intro first second here
  exact (Place.apart_append outer first.1 second.1).mpr here

theorem pairwise_apart_placedOfScopes {placed : List (Place × Node)}
    (apart : placed.Pairwise fun first second => Place.Apart first.1 second.1) :
    (placedOfScopes placed).Pairwise fun first second => Place.Apart first.1 second.1 :=
  List.pairwise_map.mpr apart

theorem pairwise_apart_placedOfEntry (entry : Node) :
    (placedOfEntry entry).Pairwise fun first second => Place.Apart first.1 second.1 := by
  have below := pairwise_apart_placedOfScopes entry.pairwise_apart_scopePlacesByDepth
  unfold placedOfEntry
  split <;> first | exact below | simp

theorem pairwise_apart_placedOfBody (kind : DeclKind) (body : Node) :
    (placedOfBody kind body).Pairwise fun first second => Place.Apart first.1 second.1 := by
  cases kind with
  | function => exact pairwise_apart_placedOfScopes body.pairwise_apart_scopePlaces
  | method => exact pairwise_apart_placedOfScopes body.pairwise_apart_scopePlacesByDepth
  | classDecl =>
      refine List.pairwise_flatMap.mpr ⟨?_, ?_⟩
      · intro slot _
        exact pairwise_apart_under slot.1 (pairwise_apart_placedOfEntry slot.2)
      · refine List.Pairwise.imp_of_mem ?_ body.pairwise_placedSlots
        intro first second firstMember secondMember differ left leftMember right rightMember
        obtain ⟨i, _, _, _, rfl⟩ := (body.mem_placedSlots first).mp firstMember
        obtain ⟨j, _, _, _, rfl⟩ := (body.mem_placedSlots second).mp secondMember
        obtain ⟨_, _, rfl⟩ := List.mem_map.mp leftMember
        obtain ⟨_, _, rfl⟩ := List.mem_map.mp rightMember
        refine Place.apart_of_ne ?_ _ _
        intro same
        exact differ (by rw [same])

theorem pairwise_apart_placedInner (holder : Declaration) :
    holder.placedInner.Pairwise fun first second => Place.Apart first.1 second.1 := by
  cases has : holder.node.child? .body with
  | none =>
      rw [placedInner_of_none has]
      exact List.Pairwise.nil
  | some body =>
      obtain ⟨i, isBody⟩ := (holder.node.child?_body_eq_some_iff body).mp has
      rw [placedInner_of_bodyAt isBody]
      exact pairwise_apart_under [i] (pairwise_apart_placedOfBody holder.kind body)

/-! ## Facts about what is held -/

theorem kind_ofScope_ne_method (node : Node) : (ofScope node).kind ≠ .method := by
  unfold ofScope
  split <;> simp

theorem isScope_of_ofEntry {entry : Node} {place : Place} {held : Declaration}
    (declared : OfEntry entry place held) : held.node.isScope := by
  cases declared with
  | method kind => simp [Node.isScope, Node.nodeClass, kind, NodeClass.ofKind, NodeClass.isScope]
  | innerClass kind =>
      rcases kind with kind | kind <;>
        simp [Node.isScope, Node.nodeClass, kind, NodeClass.ofKind, NodeClass.isScope]
  | below kind reached =>
      rw [node_ofScope]
      exact reached.2

theorem at?_of_ofEntry {entry : Node} {place : Place} {held : Declaration}
    (declared : OfEntry entry place held) : entry.at? place = some held.node := by
  cases declared with
  | method kind => rfl
  | innerClass kind => rfl
  | below kind reached =>
      rw [node_ofScope]
      exact reached.1.at?_eq

theorem Holds.isScope {holder held : Declaration} {place : Place}
    (holds : holder.Holds place held) : held.node.isScope := by
  cases holds with
  | scope isBody noClass reached =>
      rw [node_ofScope]
      exact reached.2
  | entry isBody isClass found isSlot declared => exact isScope_of_ofEntry declared

theorem Holds.at?_eq {holder held : Declaration} {place : Place}
    (holds : holder.Holds place held) : holder.node.at? place = some held.node := by
  cases holds with
  | scope isBody noClass reached =>
      simp only [Node.at?, isBody.2, Option.bind_some, reached.1.at?_eq, node_ofScope]
  | entry isBody isClass found isSlot declared =>
      simp only [Node.at?, isBody.2, found, Option.bind_some, at?_of_ofEntry declared]

theorem Holds.place_ne_nil {holder held : Declaration} {place : Place}
    (holds : holder.Holds place held) : place ≠ [] := by
  cases holds <;> simp

end Declaration

namespace Syntax.Node

/-- The declarations of a file that are described, each at its place below the root. -/
inductive Handled (root : Node) : Place → Declaration → Prop where
  | fileLevel {place : Place} {node : Node} (reached : root.Frontier place node) :
    Handled root place (.ofScope node)
  | held {place further : Place} {holder held : Declaration} (outer : Handled root place holder)
      (holds : holder.Holds further held) : Handled root (place ++ further) held

theorem Handled.at?_eq {root : Node} {place : Place} {declaration : Declaration}
    (handled : root.Handled place declaration) : root.at? place = some declaration.node := by
  induction handled with
  | fileLevel reached =>
      rw [Declaration.node_ofScope]
      exact reached.1.at?_eq
  | held outer holds ih => rw [at?_append, ih, Option.bind_some, holds.at?_eq]

theorem Handled.isScope {root : Node} {place : Place} {declaration : Declaration}
    (handled : root.Handled place declaration) : declaration.node.isScope := by
  cases handled with
  | fileLevel reached =>
      rw [Declaration.node_ofScope]
      exact reached.2
  | held outer holds => exact holds.isScope

end Syntax.Node
end ScopeGraph
