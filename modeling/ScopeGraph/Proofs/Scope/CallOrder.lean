import ScopeGraph.Proofs.Scope.Attribution
import ScopeGraph.Proofs.Syntax.Worklist

/-!
# The order of calls

The chains of a body are collected by a loop that takes nodes off a stack and puts their slots on it
from left to right, so the last slot is looked at first.  What it collects is the post-order listing
of the calls, reversed: in post-order a call comes after the calls that its callee and its arguments
make.  Post-order is a strict order of places, so there is only one such listing.
-/
set_option autoImplicit false

namespace ScopeGraph

open Syntax

namespace Syntax

/-- In post-order a place comes after the places below it, and of two places that are not one below
the other the left one comes first. -/
inductive Place.Post : Place → Place → Prop where
  | deeper (i : Nat) (place : Place) : Post (i :: place) []
  | left {i j : Nat} (less : i < j) (first second : Place) : Post (i :: first) (j :: second)
  | within (i : Nat) {first second : Place} (post : Post first second) :
      Post (i :: first) (i :: second)

theorem Place.Post.asymm {first second : Place} (post : Post first second) :
    ¬ Post second first := by
  induction post with
  | deeper i place =>
      intro back
      cases back
  | left less first second =>
      intro back
      cases back with
      | left more => omega
      | within => omega
  | within i post ih =>
      intro back
      cases back with
      | left less => omega
      | within _ back => exact ih back

namespace Node

/-- The calls that slots lead to outside of nested scopes, each of their places once, in
post-order. -/
structure CallsInPostorder (body : Node) (placed : List (Place × Node)) : Prop where
  calls : ∀ place call, (place, call) ∈ placed ↔
    Leads isOpen body place call ∧ call.kind = .callExpression
  order : placed.Pairwise fun first second => Place.Post first.1 second.1

theorem CallsInPostorder.nodup {body : Node} {placed : List (Place × Node)}
    (listed : body.CallsInPostorder placed) : placed.Nodup := by
  refine listed.order.imp ?_
  rintro first second post rfl
  exact post.asymm post

theorem CallsInPostorder.unique {body : Node} {placed other : List (Place × Node)}
    (listed : body.CallsInPostorder placed) (alsoListed : body.CallsInPostorder other) :
    placed = other := by
  have same : placed.Perm other := by
    refine (List.perm_ext_iff_of_nodup listed.nodup alsoListed.nodup).mpr ?_
    rintro ⟨place, call⟩
    rw [listed.calls, alsoListed.calls]
  refine same.eq_of_pairwise ?_ listed.order alsoListed.order
  intro first second _ _ post back
  exact absurd back post.asymm

/-! ## The listing of calls is reversed post-order -/

theorem exists_of_mem_callSlotPlaces {i : Nat} {nodes : List Node} {placed : Place × Node}
    (member : placed ∈ callSlotPlaces i nodes) : ∃ j place, i ≤ j ∧ placed.1 = j :: place := by
  have inSlots := (callSlotPlaces_perm nodes (fun node _ => node.callPlaces_perm) i).subset member
  obtain ⟨j, _, _, _, below, _, rfl⟩ :=
    (mem_reachedBelow isOpen isSlot i nodes placed).mp (List.mem_filter.mp inSlots).1
  exact ⟨i + j, below.1, Nat.le_add_right i j, rfl⟩

theorem pairwise_callSlotPlaces (nodes : List Node)
    (each : ∀ node ∈ nodes,
      node.callPlaces.Pairwise fun first second => Place.Post second.1 first.1) (i : Nat) :
    (callSlotPlaces i nodes).Pairwise fun first second => Place.Post second.1 first.1 := by
  induction nodes generalizing i with
  | nil => exact List.Pairwise.nil
  | cons node rest ih =>
      have later := ih (fun other member => each other (List.mem_cons_of_mem node member)) (i + 1)
      rw [callSlotPlaces]
      split
      · refine List.pairwise_append.mpr ⟨later, ?_, ?_⟩
        · refine List.pairwise_map.mpr ((each node List.mem_cons_self).imp ?_)
          intro first second post
          exact Place.Post.within i post
        · -- What comes from the slots further right stands in front.
          intro right rightMember left leftMember
          obtain ⟨j, place, less, same⟩ := exists_of_mem_callSlotPlaces rightMember
          obtain ⟨inside, _, rfl⟩ := List.mem_map.mp leftMember
          rw [same]
          exact Place.Post.left less inside.1 place
      · exact later

theorem pairwise_callPlaces (node : Node) :
    node.callPlaces.Pairwise fun first second => Place.Post second.1 first.1 := by
  induction node using induction with
  | step node ih =>
      have slots := pairwise_callSlotPlaces node.children ih 0
      rw [callPlaces_eq]
      split
      · exact List.Pairwise.nil
      · split
        · refine List.pairwise_cons.mpr ⟨?_, slots⟩
          intro placed member
          obtain ⟨i, place, _, same⟩ := exists_of_mem_callSlotPlaces member
          rw [same]
          exact Place.Post.deeper i place
        · exact slots

theorem callsInPostorder_reverse (body : Node) :
    body.CallsInPostorder body.callPlaces.reverse where
  calls place call := by rw [List.mem_reverse, mem_callPlaces]
  order := List.pairwise_reverse.mpr body.pairwise_callPlaces

/-! ## The stack -/

section Stack
variable {σ : Type} (enters : Node → Bool) (act : σ → Node → σ)

theorem weightAll_reverse (nodes : List Node) : weightAll nodes.reverse = weightAll nodes := by
  induction nodes with
  | nil => rfl
  | cons node rest ih =>
      simp only [List.reverse_cons, weightAll_append, weightAll, ih]
      omega

/-- Last in, first out, where the last slot goes in last. -/
def drainFromRight : List Node → σ → σ
  | [], state => state
  | node :: rest, state => drainFromRight ((found enters node).reverse ++ rest) (act state node)
termination_by stack => weightAll stack
decreasing_by
  have less := weightAll_found_lt enters node
  simp only [weightAll_append, weightAll_reverse, weightAll]
  omega

end Stack

theorem callsOfSlots_eq_flatMap (nodes : List Node) :
    callsOfSlots nodes = (nodes.filter isSlot).reverse.flatMap calls := by
  induction nodes with
  | nil => rfl
  | cons node rest ih =>
      rw [callsOfSlots]
      by_cases isSlot : node.isSlot <;> simp [isSlot, ih]

theorem calls_eq_found (node : Node) :
    node.calls =
      (if node.kind = .callExpression then [node] else []) ++
        (found isOpen node).reverse.flatMap calls := by
  rw [calls_eq, found, isOpen, callsOfSlots_eq_flatMap]
  by_cases closed : node.isScope
  · simp [closed, kind_ne_call_of_isScope closed]
  · by_cases isCall : node.kind = .callExpression <;> simp [closed, isCall, slots]

/-- If only calls are acted on, the stack leads through the calls of the trees on it. -/
theorem drainFromRight_eq_foldl {σ : Type} {act : σ → Node → σ}
    (ignores : ∀ state node, node.kind ≠ .callExpression → act state node = state)
    (stack : List Node) (state : σ) :
    drainFromRight isOpen act stack state = (stack.flatMap calls).foldl act state := by
  fun_induction drainFromRight isOpen act stack state with
  | case1 state => rfl
  | case2 node rest state ih =>
      -- The slots of the node now lie on top of the rest, and their calls follow its own.
      rw [ih, List.flatMap_append, List.flatMap_cons, calls_eq_found, List.append_assoc,
        List.foldl_append]
      by_cases isCall : node.kind = .callExpression
      · simp [isCall]
      · simp [isCall, ignores]

section Collecting
variable (source : String)

/-- A call adds its chain, or is counted if its callee has no name. -/
def collect (state : List CallChain × Tally) (node : Node) : List CallChain × Tally :=
  if node.kind = .callExpression then
    if node.calleePath source = [] then (state.1, state.2.addUnresolved 1)
    else (state.1 ++ [⟨node.calleePath source⟩], state.2)
  else state

/-- Collects the chains of a body by way of a stack. -/
def collectCalls (body : Node) (tally : Tally) : List CallChain × Tally :=
  drainFromRight isOpen (collect source) [body] ([], tally)

theorem foldl_collect {nodes : List Node} (areCalls : ∀ node ∈ nodes, node.kind = .callExpression)
    (chains : List CallChain) (tally : Tally) :
    nodes.foldl (collect source) (chains, tally) =
      (chains ++ ((nodes.map (calleePath source)).filter (· ≠ [])).map CallChain.mk,
        tally.addUnresolved ((nodes.map (calleePath source)).countP (· = []))) := by
  induction nodes generalizing chains tally with
  | nil => simp [Tally.addUnresolved]
  | cons node rest ih =>
      have isCall := areCalls node List.mem_cons_self
      have later := ih fun other member => areCalls other (List.mem_cons_of_mem node member)
      rw [List.foldl_cons, collect, if_pos isCall]
      by_cases unnamed : node.calleePath source = []
      · rw [if_pos unnamed, later]
        simp [unnamed, Tally.addUnresolved, Nat.add_assoc, Nat.add_comm 1]
      · rw [if_neg unnamed, later]
        simp [unnamed]

theorem kind_of_mem_calls {body call : Node} (member : call ∈ body.calls) :
    call.kind = .callExpression := by
  rw [← map_snd_callPlaces] at member
  obtain ⟨⟨place, _⟩, placed, rfl⟩ := List.mem_map.mp member
  exact ((body.mem_callPlaces place _).mp placed).2

theorem collectCalls_eq (body : Node) (tally : Tally) :
    body.collectCalls source tally =
      (body.callChains source, tally.addUnresolved (body.unresolvedCalls source)) := by
  have ignores : ∀ state node, node.kind ≠ .callExpression → collect source state node = state :=
    fun _ _ noCall => if_neg noCall
  rw [collectCalls, drainFromRight_eq_foldl ignores, List.flatMap_singleton,
    foldl_collect source fun _ => kind_of_mem_calls]
  rfl

end Collecting
end Node
end Syntax

/-- There is one listing of the calls of a body in post-order, and the chains of the body are those
of the calls in it that have a name, the last one first.  The loop over the stack collects these
chains and counts the calls without a name. -/
theorem calls_are_collected_in_reversed_postorder (source : String) (body : Node) :
    ∃ placed : List (Place × Node),
      (∀ listed, body.CallsInPostorder listed ↔ listed = placed) ∧
      body.callChains source =
        (((placed.map fun call => call.2.calleePath source).filter (· ≠ [])).map
          CallChain.mk).reverse ∧
      body.unresolvedCalls source =
        placed.countP (fun call => call.2.calleePath source = []) ∧
      ∀ tally, body.collectCalls source tally =
        (body.callChains source, tally.addUnresolved (body.unresolvedCalls source)) := by
  have postorder := body.callsInPostorder_reverse
  have paths : body.callPlaces.map (fun call => call.2.calleePath source) =
      body.calls.map (Node.calleePath source) := by
    rw [← Node.map_snd_callPlaces, List.map_map]
    rfl
  refine ⟨body.callPlaces.reverse, ?_, ?_, ?_, body.collectCalls_eq source⟩
  · intro listed
    constructor
    · intro lists
      exact lists.unique postorder
    · rintro rfl
      exact postorder
  · rw [List.map_reverse, paths, List.filter_reverse, List.map_reverse, List.reverse_reverse]
    rfl
  · rw [List.countP_reverse, Node.unresolvedCalls, ← paths, List.countP_map]
    rfl

end ScopeGraph
