import Mathlib.Data.List.Forall2
import ScopeGraph.Proofs.Syntax.Worklist

/-!
# Trees that are alike outside of bodies

Two trees over two texts are alike if they differ only at and below the bodies of functions and
classes.  Spans may be shifted, and a node has the same text in both trees unless it holds a body.
Whatever is found without looking into a body is then found in both trees, alike again, and a walk
that enters no scope meets alike nodes in lockstep.
-/
set_option autoImplicit false

namespace ScopeGraph.Syntax

def Kind.isIdentifier : Kind → Bool
  | .identifier | .propertyIdentifier | .shorthandPropertyIdentifier => true
  | _ => false

namespace Node

/-- The child is the body of its parent if that is a scope.  A declarator is the body of nothing. -/
def isBody (child : Node) : Bool := child.field = some .body && child.kind ≠ .variableDeclarator

mutual

/-- The body of a scope is below the node; an identifier has no parts. -/
def holdsBody : Node → Bool
  | ⟨kind, _, _, _, _, _, children⟩ =>
    !kind.isIdentifier && bodyAmong (NodeClass.ofKind kind).isScope children

def bodyAmong (inScope : Bool) : List Node → Bool
  | [] => false
  | child :: rest => inScope && child.isBody || child.holdsBody || bodyAmong inScope rest

end

section Alike
variable (text other : String)

mutual

/-- The first node, over `text`, is alike the second one, over `other`. -/
def alike : Node → Node → Bool
  | ⟨kind, field, span, named, faulty, flagged, children⟩, second =>
    let first : Node := ⟨kind, field, span, named, faulty, flagged, children⟩
    kind = second.kind && field = second.field && named = second.named &&
      (first.holdsBody || first.text text = second.text other) &&
      alikeAll first.isScope children second.children

/-- The children are alike in turn.  In a scope the bodies only have to face each other. -/
def alikeAll (inScope : Bool) : List Node → List Node → Bool
  | [], [] => true
  | child :: rest, child' :: rest' =>
    (inScope && child.isBody && child'.isBody || child.alike child') && alikeAll inScope rest rest'
  | _, _ => false

end

abbrev Alike (first second : Node) : Prop := first.alike text other second = true

/-- Children that face each other. -/
def Facing (inScope : Bool) (child child' : Node) : Prop :=
  (inScope = true ∧ child.isBody ∧ child'.isBody) ∨ Alike text other child child'

theorem alikeAll_iff (inScope : Bool) (children children' : List Node) :
    alikeAll text other inScope children children' ↔
      List.Forall₂ (Facing text other inScope) children children' := by
  induction children generalizing children' with
  | nil => cases children' <;> simp [alikeAll]
  | cons child rest ih =>
      cases children' with
      | nil => simp [alikeAll]
      | cons child' rest' =>
          simp only [alikeAll, Bool.and_eq_true, Bool.or_eq_true, ih, List.forall₂_cons, Facing,
            and_assoc]

variable {text other} {first second : Node}

theorem alike_iff :
    Alike text other first second ↔
      first.kind = second.kind ∧ first.field = second.field ∧ first.named = second.named ∧
        (first.holdsBody ∨ first.text text = second.text other) ∧
        List.Forall₂ (Facing text other first.isScope) first.children second.children := by
  obtain ⟨⟩ := first
  simp only [Alike, alike, Bool.and_eq_true, Bool.or_eq_true, decide_eq_true_eq, alikeAll_iff,
    and_assoc]

namespace Alike

theorem kind_eq (same : Alike text other first second) : first.kind = second.kind :=
  (alike_iff.mp same).1

theorem field_eq (same : Alike text other first second) : first.field = second.field :=
  (alike_iff.mp same).2.1

theorem named_eq (same : Alike text other first second) : first.named = second.named :=
  (alike_iff.mp same).2.2.1

theorem children (same : Alike text other first second) :
    List.Forall₂ (Facing text other first.isScope) first.children second.children :=
  (alike_iff.mp same).2.2.2.2

theorem text_eq (same : Alike text other first second) (plain : first.holdsBody = false) :
    first.text text = second.text other := by
  rcases (alike_iff.mp same).2.2.2.1 with holds | equal
  · rw [plain] at holds
    cases holds
  · exact equal

theorem text_eq_of_isIdentifier (same : Alike text other first second)
    (identifier : first.kind.isIdentifier) : first.text text = second.text other := by
  apply same.text_eq
  obtain ⟨⟩ := first
  simp [holdsBody, identifier]

theorem isSlot_eq (same : Alike text other first second) : first.isSlot = second.isSlot := by
  rw [isSlot, isSlot, same.kind_eq, same.named_eq]

theorem nodeClass_eq (same : Alike text other first second) :
    first.nodeClass = second.nodeClass := by
  rw [nodeClass, nodeClass, same.kind_eq]

/-- Children that are chosen by what alike nodes share are alike, if no body is chosen. -/
theorem filter_children (keeps : Node → Bool) (same : Alike text other first second)
    (bodies : first.isScope → ∀ child, child.isBody → keeps child = false)
    (agree : ∀ child child', Alike text other child child' → keeps child = keeps child') :
    List.Forall₂ (Alike text other) (first.children.filter keeps)
      (second.children.filter keeps) := by
  have facing := same.children
  generalize first.children = children at facing ⊢
  generalize second.children = children' at facing ⊢
  induction facing with
  | nil => exact .nil
  | @cons child child' rest rest' here _ ih =>
      rcases here with ⟨inScope, body, body'⟩ | here
      · -- Bodies that face each other are left out on both sides.
        rw [List.filter_cons_of_neg (by simp [bodies inScope child body]),
          List.filter_cons_of_neg (by simp [bodies inScope child' body'])]
        exact ih
      · have kept := agree child child' here
        by_cases keep : keeps child
        · rw [List.filter_cons_of_pos keep, List.filter_cons_of_pos (kept ▸ keep)]
          exact .cons here ih
        · rw [List.filter_cons_of_neg keep, List.filter_cons_of_neg (kept ▸ keep)]
          exact ih

theorem child?_cases (same : Alike text other first second) (field : Field)
    (noBody : field ≠ .body) :
    (first.child? field = none ∧ second.child? field = none) ∨
      ∃ child child', first.child? field = some child ∧ second.child? field = some child' ∧
        Alike text other child child' := by
  have chosen := same.filter_children (·.field = some field) ?_ ?_
  · rw [child?, child?, ← List.head?_filter, ← List.head?_filter]
    generalize first.children.filter _ = children at chosen ⊢
    generalize second.children.filter _ = children' at chosen ⊢
    cases chosen with
    | nil => exact .inl ⟨rfl, rfl⟩
    | cons here _ => exact .inr ⟨_, _, rfl, rfl, here⟩
  · intro _ child body
    simp only [isBody, Bool.and_eq_true, decide_eq_true_eq] at body
    simp [body.1, noBody.symm]
  · intro child child' here
    rw [here.field_eq]

theorem filter_kind {nodes nodes' : List Node} (kind : Kind)
    (same : List.Forall₂ (Alike text other) nodes nodes') :
    List.Forall₂ (Alike text other) (nodes.filter (·.kind = kind))
      (nodes'.filter (·.kind = kind)) := by
  refine List.rel_filter ?_ same
  intro node node' here
  simp only [here.kind_eq]

theorem declarators (same : Alike text other first second) :
    List.Forall₂ (Alike text other) (first.namedChildren.filter (·.kind = .variableDeclarator))
      (second.namedChildren.filter (·.kind = .variableDeclarator)) := by
  rw [namedChildren, namedChildren, List.filter_filter, List.filter_filter]
  refine same.filter_children _ ?_ ?_
  · intro _ child body
    simp only [isBody, Bool.and_eq_true, decide_eq_true_eq] at body
    simp [body.2]
  · intro child child' here
    rw [here.kind_eq, here.named_eq]

section Open
variable (same : Alike text other first second) (isOpen : first.isOpen)
include same isOpen

theorem filter_open (keeps : Node → Bool)
    (agree : ∀ child child', Alike text other child child' → keeps child = keeps child') :
    List.Forall₂ (Alike text other) (first.children.filter keeps)
      (second.children.filter keeps) := by
  refine same.filter_children keeps ?_ agree
  intro isScope
  simp [Node.isOpen, isScope] at isOpen

theorem slots : List.Forall₂ (Alike text other) first.slots second.slots :=
  same.filter_open isOpen _ fun _ _ => isSlot_eq

theorem namedChildren :
    List.Forall₂ (Alike text other) first.namedChildren second.namedChildren :=
  same.filter_open isOpen _ fun _ _ => named_eq

end Open

theorem found (same : Alike text other first second) :
    List.Forall₂ (Alike text other) (found isOpen first) (found isOpen second) := by
  have opens : first.isOpen = second.isOpen := by
    rw [isOpen, isOpen, isScope, isScope, same.nodeClass_eq]
  unfold Node.found
  rw [← opens]
  split
  · next isOpen => exact same.slots isOpen
  · exact .nil

end Alike

/-- Two queues go on in lockstep, whatever the step of alike nodes preserves. -/
theorem drainQueue_lockstep {σ τ : Type} (Related : σ → τ → Prop) (act : σ → Node → σ)
    (act' : τ → Node → τ)
    (step : ∀ state state' node node', Related state state' → Alike text other node node' →
      Related (act state node) (act' state' node'))
    {queue queue' : List Node} (same : List.Forall₂ (Alike text other) queue queue')
    {state : σ} {state' : τ} (related : Related state state') :
    Related (drainQueue isOpen act queue state) (drainQueue isOpen act' queue' state') := by
  fun_induction drainQueue isOpen act queue state generalizing queue' state' with
  | case1 state =>
      cases same
      rw [drainQueue]
      exact related
  | case2 node rest state ih =>
      cases same with
      | cons here later =>
          rw [drainQueue]
          exact ih (List.rel_append later here.found) (step _ _ _ _ related here)

theorem Alike.byDepth (same : Alike text other first second) :
    List.Forall₂ (Alike text other) (first.byDepth isOpen) (second.byDepth isOpen) := by
  have collected := drainQueue_lockstep (List.Forall₂ (Alike text other))
    (fun seen node => seen ++ [node]) (fun seen node => seen ++ [node])
    (fun _ _ _ _ seen here => List.rel_append seen (.cons here .nil)) (.cons same .nil) .nil
  rw [drainQueue_root, drainQueue_root] at collected
  simpa [← List.flatMap_def] using collected

end Alike
end Node
end ScopeGraph.Syntax
