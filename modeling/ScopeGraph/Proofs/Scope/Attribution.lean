import ScopeGraph.Proofs.Scope.Passes

/-!
# Calls and the declarations they count for

The calls of a body are those that its slots lead to without entering a scope.  A call is therefore
looked at in the pass of the innermost scope around it, if that is a function or a method with a
pass and the call is in its body, and in no other pass.
-/
set_option autoImplicit false

namespace ScopeGraph

open Syntax

namespace Syntax.Node

mutual

/-- The nodes of `calls`, each with its place. -/
def callPlaces : Node → List (Place × Node)
  | ⟨kind, field, span, named, faulty, flagged, children⟩ =>
    let node : Node := ⟨kind, field, span, named, faulty, flagged, children⟩
    if node.isScope then []
    else if kind = .callExpression then ([], node) :: callSlotPlaces 0 children
    else callSlotPlaces 0 children

def callSlotPlaces (i : Nat) : List Node → List (Place × Node)
  | [] => []
  | node :: rest =>
    if node.isSlot then callSlotPlaces (i + 1) rest ++ node.callPlaces.map (under [i])
    else callSlotPlaces (i + 1) rest

end

theorem callPlaces_eq (node : Node) :
    node.callPlaces =
      if node.isScope then []
      else if node.kind = .callExpression then ([], node) :: callSlotPlaces 0 node.children
      else callSlotPlaces 0 node.children := by
  obtain ⟨⟩ := node
  rfl

theorem calls_eq (node : Node) :
    node.calls =
      if node.isScope then []
      else if node.kind = .callExpression then node :: callsOfSlots node.children
      else callsOfSlots node.children := by
  obtain ⟨⟩ := node
  rfl

theorem map_snd_callSlotPlaces (nodes : List Node)
    (each : ∀ node ∈ nodes, node.callPlaces.map Prod.snd = node.calls) (i : Nat) :
    (callSlotPlaces i nodes).map Prod.snd = callsOfSlots nodes := by
  induction nodes generalizing i with
  | nil => rfl
  | cons node rest ih =>
      have later := ih (fun other member => each other (List.mem_cons_of_mem node member)) (i + 1)
      have here := each node List.mem_cons_self
      rw [callSlotPlaces, callsOfSlots]
      split
      · rw [List.map_append, map_snd_under, here, later]
      · exact later

theorem map_snd_callPlaces (node : Node) : node.callPlaces.map Prod.snd = node.calls := by
  induction node using induction with
  | step node ih =>
      have slots := map_snd_callSlotPlaces node.children ih 0
      rw [callPlaces_eq, calls_eq]
      split
      · rfl
      · split
        · rw [List.map_cons, slots]
        · exact slots

/-- In whatever order, these are the calls among the places that are visited. -/
theorem callSlotPlaces_perm (nodes : List Node)
    (each : ∀ node ∈ nodes, node.callPlaces.Perm
      ((node.reached isOpen isSlot).filter fun placed => placed.2.kind = .callExpression))
    (i : Nat) :
    (callSlotPlaces i nodes).Perm
      ((reachedBelow isOpen isSlot i nodes).filter fun placed =>
        placed.2.kind = .callExpression) := by
  induction nodes generalizing i with
  | nil => exact List.Perm.nil
  | cons node rest ih =>
      have later := ih (fun other member => each other (List.mem_cons_of_mem node member)) (i + 1)
      have here := (each node List.mem_cons_self).map (under [i])
      rw [callSlotPlaces, reachedBelow]
      split
      · have inside : ((node.reached isOpen isSlot).map (under [i])).filter
              (fun placed => placed.2.kind = .callExpression) =
            ((node.reached isOpen isSlot).filter fun placed => placed.2.kind = .callExpression).map
              (under [i]) := List.filter_map
        rw [List.filter_append, inside]
        exact List.perm_append_comm.trans (here.append later)
      · exact later

theorem not_isScope_of_call {node : Node} (isCall : node.kind = .callExpression) :
    node.isScope = false := by
  simp [isScope, nodeClass, isCall, NodeClass.ofKind, NodeClass.isScope]

theorem kind_ne_call_of_isScope {node : Node} (closed : node.isScope) :
    node.kind ≠ .callExpression := by
  intro isCall
  rw [not_isScope_of_call isCall] at closed
  cases closed

theorem callPlaces_perm (node : Node) :
    node.callPlaces.Perm
      ((node.reached isOpen isSlot).filter fun placed => placed.2.kind = .callExpression) := by
  induction node using induction with
  | step node ih =>
      have slots := callSlotPlaces_perm node.children ih 0
      rw [callPlaces_eq, reached_eq]
      by_cases closed : node.isScope
      · simp [closed, isOpen, kind_ne_call_of_isScope closed]
      · by_cases isCall : node.kind = .callExpression
        · simp only [closed, isOpen, isCall, Bool.not_false, if_true, Bool.false_eq_true, if_false,
            List.filter_cons, decide_true]
          exact slots.cons _
        · simp only [closed, isOpen, isCall, Bool.not_false, if_true, Bool.false_eq_true, if_false,
            List.filter_cons, decide_false]
          exact slots

theorem mem_callPlaces (node : Node) (place : Place) (call : Node) :
    (place, call) ∈ node.callPlaces ↔
      Leads isOpen node place call ∧ call.kind = .callExpression := by
  rw [node.callPlaces_perm.mem_iff, List.mem_filter, mem_reached, decide_eq_true_eq]

theorem nodup_places_callPlaces (node : Node) : (node.callPlaces.map Prod.fst).Nodup := by
  rw [(node.callPlaces_perm.map Prod.fst).nodup_iff]
  exact List.pairwise_map.mpr (((pairwise_reached isOpen isSlot node).filter _).imp Place.ne_of_lex)

/-! ## The innermost scope around a place -/

/-- The scope at `scope` is the innermost one that encloses what stands at `place`. -/
structure EnclosedBy (root : Node) (place scope : Place) : Prop where
  above : scope <+: place
  proper : scope ≠ place
  isScope : ∃ node, root.at? scope = some node ∧ node.isScope
  innermost : ∀ between node, scope <+: between → scope ≠ between → between <+: place →
    between ≠ place → root.at? between = some node → ¬ node.isScope

theorem EnclosedBy.unique {root : Node} {place first second : Place}
    (left : root.EnclosedBy place first) (right : root.EnclosedBy place second) :
    first = second := by
  refine Decidable.byContradiction fun differ => ?_
  obtain ⟨outer, outerAt, outerScope⟩ := left.isScope
  obtain ⟨inner, innerAt, innerScope⟩ := right.isScope
  rcases List.prefix_or_prefix_of_prefix left.above right.above with above | above
  · exact left.innermost second inner above differ right.above right.proper innerAt innerScope
  · exact right.innermost first outer above (fun same => differ same.symm) left.above left.proper
      outerAt outerScope

namespace Reaches

variable {enters follows : Node → Bool} {node target : Node}

theorem split {place rest : Place} (reaches : Reaches enters follows node (place ++ rest) target) :
    ∃ middle, node.at? place = some middle ∧ Reaches enters follows middle rest target := by
  induction place generalizing node with
  | nil => exact ⟨node, rfl, reaches⟩
  | cons i place ih =>
      obtain ⟨_, next, found, _, further⟩ := cons_iff.mp reaches
      obtain ⟨middle, stands, later⟩ := ih further
      exact ⟨middle, by simp [at?, found, stands], later⟩

/-- A way is open if no node on it but the last is closed. -/
theorem of_entered {place : Place} (reaches : Reaches (fun _ => true) follows node place target)
    (entered : ∀ before rest middle, place = before ++ rest → rest ≠ [] →
      node.at? before = some middle → enters middle) :
    Reaches enters follows node place target := by
  induction reaches with
  | here node => exact .here node
  | @child node next target i place _ found followed further ih =>
      refine .child (entered [] (i :: place) node rfl (by simp) rfl) found followed (ih ?_)
      intro before rest middle parts proper stands
      refine entered (i :: before) rest middle (by rw [parts, List.cons_append]) proper ?_
      simp [at?, found, stands]

end Reaches

/-- The place is in the body of the node that stands at `outer`. -/
def InBody (node : Node) (outer place : Place) : Prop :=
  ∃ i body inside, node.BodyAt i body ∧ place = outer ++ i :: inside

end Syntax.Node

namespace Pass

/-- The calls that a pass looks at, with their places in the file. -/
def examined (pass : Pass) : List (Place × Node) :=
  match pass.declaration.node.children.findIdx? (·.field = some .body), pass.declaration.body? with
  | some i, some body => body.callPlaces.map (Node.under (pass.place ++ [i]))
  | _, _ => []

theorem body?_of_ne_class {pass : Pass} (noClass : pass.declaration.kind ≠ .classDecl) :
    pass.declaration.body? = pass.declaration.node.child? .body := by
  unfold Declaration.body?
  split
  · contradiction
  · rfl
  · rfl

theorem body?_eq_some_iff (pass : Pass) (body : Node) :
    pass.declaration.body? = some body ↔
      pass.declaration.kind ≠ .classDecl ∧ ∃ i, pass.declaration.node.BodyAt i body := by
  rw [← Node.child?_body_eq_some_iff]
  constructor
  · intro found
    have noClass : pass.declaration.kind ≠ .classDecl := by
      intro isClass
      rw [Declaration.body?, isClass] at found
      cases found
    exact ⟨noClass, body?_of_ne_class noClass ▸ found⟩
  · rintro ⟨noClass, found⟩
    rw [body?_of_ne_class noClass, found]

theorem examined_of_bodyAt {pass : Pass} {i : Nat} {body : Node}
    (noClass : pass.declaration.kind ≠ .classDecl) (isBody : pass.declaration.node.BodyAt i body) :
    pass.examined = body.callPlaces.map (Node.under (pass.place ++ [i])) := by
  have found := (pass.body?_eq_some_iff body).mpr ⟨noClass, i, isBody⟩
  rw [examined, isBody.1, found]

theorem examined_of_none {pass : Pass} (missing : pass.declaration.body? = none) :
    pass.examined = [] := by
  rw [examined, missing]
  split
  · contradiction
  · rfl

theorem mem_examined_iff (pass : Pass) (place : Place) (call : Node) :
    (place, call) ∈ pass.examined ↔
      pass.declaration.kind ≠ .classDecl ∧ ∃ i body inside,
        pass.declaration.node.BodyAt i body ∧ place = pass.place ++ i :: inside ∧
          body.Leads Node.isOpen inside call ∧ call.kind = .callExpression := by
  cases found : pass.declaration.body? with
  | none =>
      rw [examined_of_none found]
      constructor
      · intro member
        cases member
      · rintro ⟨noClass, i, body, _, isBody, _⟩
        rw [(pass.body?_eq_some_iff body).mpr ⟨noClass, i, isBody⟩] at found
        cases found
  | some body =>
      obtain ⟨noClass, i, isBody⟩ := (pass.body?_eq_some_iff body).mp found
      rw [examined_of_bodyAt noClass isBody, Declaration.mem_map_under]
      simp only [Node.mem_callPlaces, List.append_assoc, List.singleton_append]
      constructor
      · rintro ⟨inside, ⟨leads, isCall⟩, same⟩
        exact ⟨noClass, i, body, inside, isBody, same, leads, isCall⟩
      · rintro ⟨_, j, other, inside, otherBody, same, leads, isCall⟩
        obtain ⟨rfl, rfl⟩ := isBody.unique otherBody
        exact ⟨inside, ⟨leads, isCall⟩, same⟩

theorem map_snd_examined (pass : Pass) :
    pass.examined.map Prod.snd = (pass.declaration.body?.map Node.calls).getD [] := by
  cases found : pass.declaration.body? with
  | none => rw [examined_of_none found]; rfl
  | some body =>
      obtain ⟨noClass, i, isBody⟩ := (pass.body?_eq_some_iff body).mp found
      rw [examined_of_bodyAt noClass isBody, Node.map_snd_under, Node.map_snd_callPlaces]
      rfl

theorem nodup_places_examined (pass : Pass) : (pass.examined.map Prod.fst).Nodup := by
  cases found : pass.declaration.body? with
  | none =>
      rw [examined_of_none found]
      exact List.nodup_nil
  | some body =>
      obtain ⟨noClass, i, isBody⟩ := (pass.body?_eq_some_iff body).mp found
      have inside := body.nodup_places_callPlaces
      rw [examined_of_bodyAt noClass isBody, List.map_map]
      have moved : (Prod.fst ∘ Node.under (pass.place ++ [i]) : Place × Node → Place) =
          (fun place => pass.place ++ [i] ++ place) ∘ Prod.fst := rfl
      rw [moved, ← List.map_map]
      exact inside.map (List.append_right_injective _)

/-! ## The pass of a call -/

theorem enclosedBy_of_mem_examined {root : Node} {pass : Pass} {place : Place} {call : Node}
    (handled : root.Handled pass.place pass.declaration) (member : (place, call) ∈ pass.examined) :
    root.EnclosedBy place pass.place := by
  obtain ⟨_, i, body, inside, isBody, rfl, leads, _⟩ := (pass.mem_examined_iff place call).mp member
  refine ⟨List.prefix_append _ _, by simp, ⟨_, handled.at?_eq, handled.isScope⟩, ?_⟩
  rintro between node ⟨way, rfl⟩ proper below short stands closed
  -- Between the scope and the call the way goes through the body, over open nodes.
  rw [List.prefix_append_right_inj] at below
  cases way with
  | nil => exact proper (by simp)
  | cons j way =>
      obtain ⟨rfl, rest, rfl⟩ := List.cons_prefix_cons.mp below
      have further : rest ≠ [] := by
        rintro rfl
        exact short (by simp)
      rw [Node.at?_append, handled.at?_eq] at stands
      simp only [Option.bind_some, Node.at?, isBody.2] at stands
      have entered := leads.entered_on_way further stands
      simp [Node.isOpen, closed] at entered

theorem mem_examined_of_enclosedBy {root : Node} {pass : Pass} {place : Place} {call : Node}
    (handled : root.Handled pass.place pass.declaration)
    (reached : root.Leads (fun _ => true) place call) (isCall : call.kind = .callExpression)
    (enclosed : root.EnclosedBy place pass.place) (noClass : pass.declaration.kind ≠ .classDecl)
    (within : pass.declaration.node.InBody pass.place place) : (place, call) ∈ pass.examined := by
  obtain ⟨i, body, inside, isBody, rfl⟩ := within
  refine (pass.mem_examined_iff _ call).mpr ⟨noClass, i, body, inside, isBody, rfl, ?_, isCall⟩
  obtain ⟨middle, stands, below⟩ := reached.split
  rw [handled.at?_eq] at stands
  cases stands
  obtain ⟨_, child, found, _, leads⟩ := Node.Reaches.cons_iff.mp below
  rw [isBody.2] at found
  cases found
  -- A closed node on the way would be a scope between the innermost one and the call.
  refine leads.of_entered ?_
  intro before rest node parts proper stands
  have between := enclosed.innermost (pass.place ++ i :: before) node (List.prefix_append _ _)
    (by simp) ⟨rest, by simp [parts]⟩ (by simp [parts, proper]) ?_
  · simp [Node.isOpen, between]
  · rw [Node.at?_append, handled.at?_eq]
    simp [Node.at?, isBody.2, stands]

/-! ## What a pass makes of its calls -/

variable (source : Source)

/-- One chain for each call whose callee has a name, before repeated chains are dropped. -/
def collected (pass : Pass) : List (Place × CallChain) :=
  (pass.examined.filter fun placed => placed.2.calleePath source.text ≠ []).map fun placed =>
    (placed.1, ⟨placed.2.calleePath source.text⟩)

/-- The places of the calls whose callee has no name. -/
def unnamed (pass : Pass) : List Place :=
  (pass.examined.filter fun placed => placed.2.calleePath source.text = []).map Prod.fst

theorem mem_collected (pass : Pass) (place : Place) (chain : CallChain) :
    (place, chain) ∈ pass.collected source ↔
      ∃ call, (place, call) ∈ pass.examined ∧ call.calleePath source.text ≠ [] ∧
        chain = ⟨call.calleePath source.text⟩ := by
  simp only [collected, List.mem_map, List.mem_filter, decide_eq_true_eq, Prod.exists,
    Prod.mk.injEq]
  constructor
  · rintro ⟨_, call, ⟨member, hasName⟩, rfl, rfl⟩
    exact ⟨call, member, hasName, rfl⟩
  · rintro ⟨call, member, hasName, rfl⟩
    exact ⟨place, call, ⟨member, hasName⟩, rfl, rfl⟩

theorem mem_unnamed (pass : Pass) (place : Place) :
    place ∈ pass.unnamed source ↔
      ∃ call, (place, call) ∈ pass.examined ∧ call.calleePath source.text = [] := by
  simp [unnamed]

theorem nodup_places_collected (pass : Pass) : ((pass.collected source).map Prod.fst).Nodup := by
  rw [collected, List.map_map]
  exact (List.filter_sublist.map Prod.fst).nodup pass.nodup_places_examined

theorem nodup_unnamed (pass : Pass) : (pass.unnamed source).Nodup :=
  (List.filter_sublist.map Prod.fst).nodup pass.nodup_places_examined

theorem map_snd_collected (pass : Pass) :
    (pass.collected source).map Prod.snd =
      (pass.declaration.body?.map (Node.callChains source.text)).getD [] := by
  have paths : (pass.collected source).map Prod.snd =
      (((pass.examined.map Prod.snd).map (Node.calleePath source.text)).filter (· ≠ [])).map
        CallChain.mk := by
    simp [collected, List.filter_map, Function.comp_def]
  rw [paths, map_snd_examined]
  cases pass.declaration.body? <;> rfl

theorem chains_descriptor (pass : Pass) :
    (pass.descriptor source).chains = CallChain.unique ((pass.collected source).map Prod.snd) := by
  have chains : (pass.descriptor source).chains = pass.declaration.chains source := by
    rw [descriptor_eq]
    rfl
  rw [chains, map_snd_collected, Declaration.chains]
  cases pass.declaration.body? <;> rfl

theorem length_unnamed (pass : Pass) :
    (pass.unnamed source).length = pass.declaration.unresolvedCalls source := by
  have counted : (pass.unnamed source).length =
      ((pass.examined.map Prod.snd).map (Node.calleePath source.text)).countP (· = []) := by
    rw [unnamed, List.length_map, List.countP_map, List.countP_map, List.countP_eq_length_filter]
    rfl
  rw [counted, map_snd_examined, Declaration.unresolvedCalls]
  cases pass.declaration.body? <;> rfl

/-- A pass goes through the calls of its body, each once, and collects one chain for each call that
has a name; only then are repeated chains dropped. -/
structure Collects (pass : Pass) : Prop where
  calls : pass.examined.map Prod.snd = (pass.declaration.body?.map Node.calls).getD []
  once : (pass.examined.map Prod.fst).Nodup
  collected_once : ((pass.collected source).map Prod.fst).Nodup
  mem_collected_iff : ∀ place chain, (place, chain) ∈ pass.collected source ↔
    ∃ call, (place, call) ∈ pass.examined ∧ call.calleePath source.text ≠ [] ∧
      chain = ⟨call.calleePath source.text⟩
  callChains : (pass.collected source).map Prod.snd =
    (pass.declaration.body?.map (Node.callChains source.text)).getD []
  chains : (pass.descriptor source).chains =
    CallChain.unique ((pass.collected source).map Prod.snd)

theorem collects (pass : Pass) : pass.Collects source where
  calls := pass.map_snd_examined
  once := pass.nodup_places_examined
  collected_once := pass.nodup_places_collected source
  mem_collected_iff := pass.mem_collected source
  callChains := pass.map_snd_collected source
  chains := pass.chains_descriptor source

end Pass

namespace Source

variable (source : Source)

/-- The places of the calls without a name that a run comes across. -/
def unnamedCalls (tally : Tally) : List Place :=
  (source.passes tally).flatMap (Pass.unnamed source)

/-- Two passes that look at a call at the same place are of the same declaration. -/
theorem place_eq_of_examined {tally : Tally} {first second : Pass} {place : Place}
    {left right : Node} (firstMember : first ∈ source.passes tally)
    (secondMember : second ∈ source.passes tally) (inFirst : (place, left) ∈ first.examined)
    (inSecond : (place, right) ∈ second.examined) : first.place = second.place :=
  (Pass.enclosedBy_of_mem_examined (source.handled_of_mem_passes firstMember) inFirst).unique
    (Pass.enclosedBy_of_mem_examined (source.handled_of_mem_passes secondMember) inSecond)

theorem nodup_unnamedCalls (tally : Tally) : (source.unnamedCalls tally).Nodup := by
  have apart := List.pairwise_map.mp (source.nodup_places_passes tally)
  refine List.nodup_flatMap.mpr ⟨fun pass _ => pass.nodup_unnamed source, ?_⟩
  refine apart.imp_of_mem ?_
  intro first second firstMember secondMember differ
  refine List.disjoint_left.mpr ?_
  intro place inFirst inSecond
  obtain ⟨_, left, _⟩ := (first.mem_unnamed source place).mp inFirst
  obtain ⟨_, right, _⟩ := (second.mem_unnamed source place).mp inSecond
  exact differ (source.place_eq_of_examined firstMember secondMember left right)

theorem length_unnamedCalls (tally : Tally) :
    (source.unnamedCalls tally).length = Pass.unresolved source (source.passes tally) := by
  simp only [unnamedCalls, List.length_flatMap, Pass.length_unnamed, Pass.unresolved]

theorem countP_examined_le_one (tally : Tally) (place : Place) :
    (source.passes tally).countP (fun pass => place ∈ pass.examined.map Prod.fst) ≤ 1 := by
  have apart := List.pairwise_map.mp (source.nodup_places_passes tally)
  rw [List.countP_eq_length_filter]
  have lone := (apart.filter fun pass => place ∈ pass.examined.map Prod.fst)
  generalize kept : (source.passes tally).filter
    (fun pass => place ∈ pass.examined.map Prod.fst) = examining at lone ⊢
  rcases examining with _ | ⟨first, _ | ⟨second, rest⟩⟩
  · simp
  · simp
  · exfalso
    have looks : ∀ pass ∈ first :: second :: rest, pass ∈ source.passes tally ∧
        ∃ call, (place, call) ∈ pass.examined := by
      intro pass member
      rw [← kept] at member
      simpa using member
    obtain ⟨firstMember, _, inFirst⟩ := looks first (by simp)
    obtain ⟨secondMember, _, inSecond⟩ := looks second (by simp)
    exact List.rel_of_pairwise_cons lone List.mem_cons_self
      (source.place_eq_of_examined firstMember secondMember inFirst inSecond)

end Source

/-- Every call of a file is looked at in at most one pass: that of the innermost scope around it,
if this is a function or a method that the extraction handles and the call is in its body.  The pass
keeps one chain for each call with a name, and each call without one is counted once. -/
theorem calls_count_for_innermost_scope (source : Source) (tally : Tally) :
    -- The passes are those of the handled declarations, and the descriptors are theirs.
    ((source.passes tally).map Pass.place).Nodup ∧
    (∀ place declaration, source.root.Handled place declaration ↔
      ∃ pass ∈ source.passes tally, pass.place = place ∧ pass.declaration = declaration) ∧
    (∀ descriptor, (source.scope tally).1.Has descriptor →
      ∃ pass ∈ source.passes tally, descriptor = pass.descriptor source) ∧
    -- Which pass looks at a call.
    (∀ place, (source.passes tally).countP (fun pass => place ∈ pass.examined.map Prod.fst) ≤ 1) ∧
    (∀ place call, source.root.Leads (fun _ => true) place call → call.kind = .callExpression →
      ∀ pass ∈ source.passes tally, (place, call) ∈ pass.examined ↔
        source.root.EnclosedBy place pass.place ∧ pass.declaration.kind ≠ .classDecl ∧
          pass.declaration.node.InBody pass.place place) ∧
    -- What becomes of it.
    (∀ pass ∈ source.passes tally, pass.Collects source) ∧
    (source.unnamedCalls tally).Nodup ∧
    (∀ place, place ∈ source.unnamedCalls tally ↔ ∃ pass ∈ source.passes tally,
      ∃ call, (place, call) ∈ pass.examined ∧ call.calleePath source.text = []) ∧
    (source.scope tally).2.unresolved = tally.unresolved + (source.unnamedCalls tally).length := by
  refine ⟨source.nodup_places_passes tally, ?_, ?_, source.countP_examined_le_one tally, ?_,
    fun pass _ => pass.collects source, source.nodup_unnamedCalls tally, ?_, ?_⟩
  · intro place declaration
    constructor
    · exact source.exists_pass_of_handled tally
    · rintro ⟨pass, member, rfl, rfl⟩
      exact source.handled_of_mem_passes member
  · intro descriptor has
    exact source.exists_pass_of_has has
  · intro place call reached isCall pass member
    have handled := source.handled_of_mem_passes member
    constructor
    · intro looked
      obtain ⟨noClass, i, body, inside, isBody, same, _⟩ :=
        (pass.mem_examined_iff place call).mp looked
      exact ⟨Pass.enclosedBy_of_mem_examined handled looked, noClass, i, body, inside, isBody, same⟩
    · rintro ⟨enclosed, noClass, within⟩
      exact Pass.mem_examined_of_enclosedBy handled reached isCall enclosed noClass within
  · intro place
    simp only [Source.unnamedCalls, List.mem_flatMap, Pass.mem_unnamed]
  · rw [source.length_unnamedCalls, source.unresolved_scope]

end ScopeGraph
