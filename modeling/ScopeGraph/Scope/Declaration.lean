import ScopeGraph.Scope.Descriptor

/-!
# Declarations and what they hold

A declaration is a syntax node together with the way it is read: as a function, as a class or as a
method of a class.  `inner` lists the declarations directly inside of it in the order in which they
are described: a function's in document order, a method's by depth, and a class's by the order of
the entries of its body.
-/
set_option autoImplicit false

namespace ScopeGraph

open Syntax

structure Declaration where
  kind : DeclKind
  node : Node

namespace Declaration

/-- A scope reached through ordinary nodes is read by its class; a method met that way belongs to
an object literal and is read as a function. -/
def ofScope (node : Node) : Declaration :=
  match node.nodeClass with
  | .classLike => ⟨.classDecl, node⟩
  | _ => ⟨.function, node⟩

def ofClassEntry (entry : Node) : List Declaration :=
  match entry.kind with
  | .methodDefinition => [⟨.method, entry⟩]
  | .classDeclaration | .classExpression => [⟨.classDecl, entry⟩]
  | .fieldDefinition | .classStaticBlock => entry.scopesByDepth.map ofScope
  | _ => []

def ofBody (kind : DeclKind) (body : Node) : List Declaration :=
  match kind with
  | .function => body.scopesInOrder.map ofScope
  | .method => body.scopesByDepth.map ofScope
  | .classDecl => body.slots.flatMap ofClassEntry

def inner (declaration : Declaration) : List Declaration :=
  match declaration.node.child? .body with
  | some body => ofBody declaration.kind body
  | none => []

/-- The name that the text gives to the declaration.  A method of an object literal has none: its
key names a property, not the function. -/
def name? (source : String) (declaration : Declaration) : Option String :=
  match declaration.kind with
  | .method => declaration.node.declaredName? source
  | .function | .classDecl =>
    if declaration.node.kind = .methodDefinition then none
    else declaration.node.declaredName? source

/-- Classes have no calls of their own. -/
def body? (declaration : Declaration) : Option Node :=
  match declaration.kind with
  | .classDecl => none
  | .function | .method => declaration.node.child? .body

def weight (declaration : Declaration) : Nat := declaration.node.weight

def weightAll : List Declaration → Nat
  | [] => 0
  | declaration :: rest => declaration.weight + weightAll rest

end Declaration

/-! ## Inner declarations are smaller -/

namespace Syntax.Node

theorem weight_pos (node : Node) : 0 < node.weight := by
  obtain ⟨⟩ := node
  simp only [weight]
  omega

theorem weight_mk (node : Node) : node.weight = 1 + weightAll node.children := by
  obtain ⟨⟩ := node
  rfl

theorem weight_le_of_mem {node : Node} {nodes : List Node} (member : node ∈ nodes) :
    node.weight ≤ weightAll nodes := by
  induction nodes with
  | nil => cases member
  | cons head rest ih =>
    simp only [weightAll]
    rcases List.mem_cons.mp member with same | inRest
    · subst same; omega
    · have := ih inRest; omega

theorem weight_child?_lt {node child : Node} {field : Field}
    (found : node.child? field = some child) : child.weight < node.weight := by
  have member : child ∈ node.children := List.mem_of_find?_eq_some found
  have := weight_le_of_mem member
  rw [node.weight_mk]
  omega

theorem weightAll_append (first second : List Node) :
    weightAll (first ++ second) = weightAll first + weightAll second := by
  induction first with
  | nil => simp [weightAll]
  | cons head rest ih => simp only [List.cons_append, weightAll, ih]; omega

theorem weightAll_filter_le (keeps : Node → Bool) (nodes : List Node) :
    weightAll (nodes.filter keeps) ≤ weightAll nodes := by
  induction nodes with
  | nil => simp
  | cons head rest ih =>
    by_cases kept : keeps head
    · simp only [List.filter_cons_of_pos kept, weightAll]; omega
    · simp only [List.filter_cons_of_neg kept, weightAll]; omega

mutual

theorem weightAll_visit_scopes_le : ∀ node : Node,
    weightAll ((node.visit isOpen).filter isScope) ≤ node.weight
  | ⟨kind, field, span, named, faulty, flagged, children⟩ => by
    have slots := weightAll_visitSlots_scopes_le children
    simp only [visit]
    generalize built : (⟨kind, field, span, named, faulty, flagged, children⟩ : Node) = node
    have whole : node.weight = 1 + weightAll children := by subst built; rfl
    by_cases opens : node.isScope
    · simp [isOpen, opens, weightAll]
    · simp only [isOpen, opens]
      simp only [Bool.not_false, if_true, List.filter_cons, opens, Bool.false_eq_true, if_false]
      omega

theorem weightAll_visitSlots_scopes_le : ∀ nodes : List Node,
    weightAll ((visitSlots isOpen nodes).filter isScope) ≤ weightAll nodes
  | [] => by simp [visitSlots]
  | node :: rest => by
    have first := weightAll_visit_scopes_le node
    have others := weightAll_visitSlots_scopes_le rest
    simp only [visitSlots, weightAll]
    split
    · simp only [List.filter_append, weightAll_append]; omega
    · omega

end

theorem weightAll_beside (keeps : Node → Bool) (first second : List (List Node)) :
    weightAll ((beside first second).flatten.filter keeps) =
      weightAll (first.flatten.filter keeps) + weightAll (second.flatten.filter keeps) := by
  fun_induction beside first second with
  | case1 levels => simp [weightAll]
  | case2 levels _ => simp [weightAll]
  | case3 level rest level' rest' ih =>
    simp only [List.flatten_cons, List.filter_append, weightAll_append, ih]
    omega

mutual

theorem weightAll_levels_scopes_le : ∀ node : Node,
    weightAll ((node.levels isOpen).flatten.filter isScope) ≤ node.weight
  | ⟨kind, field, span, named, faulty, flagged, children⟩ => by
    have slots := weightAll_levelsOfSlots_scopes_le children
    simp only [levels]
    generalize built : (⟨kind, field, span, named, faulty, flagged, children⟩ : Node) = node
    have whole : node.weight = 1 + weightAll children := by subst built; rfl
    by_cases opens : node.isScope
    · simp [isOpen, opens, weightAll]
    · simp only [isOpen, opens]
      simp only [Bool.not_false, if_true, List.flatten_cons, List.cons_append, List.nil_append,
        List.filter_cons, opens, Bool.false_eq_true, if_false]
      omega

theorem weightAll_levelsOfSlots_scopes_le : ∀ nodes : List Node,
    weightAll ((levelsOfSlots isOpen nodes).flatten.filter isScope) ≤ weightAll nodes
  | [] => by simp [levelsOfSlots]
  | node :: rest => by
    have first := weightAll_levels_scopes_le node
    have others := weightAll_levelsOfSlots_scopes_le rest
    simp only [levelsOfSlots, weightAll]
    split
    · simp only [weightAll_beside]; omega
    · omega

end

end Syntax.Node

namespace Declaration

theorem weightAll_append (first second : List Declaration) :
    weightAll (first ++ second) = weightAll first + weightAll second := by
  induction first with
  | nil => simp [weightAll]
  | cons head rest ih => simp only [List.cons_append, weightAll, ih]; omega

theorem node_ofScope (node : Node) : (ofScope node).node = node := by
  unfold ofScope; split <;> rfl

theorem weightAll_map_ofScope (nodes : List Node) :
    weightAll (nodes.map ofScope) = Node.weightAll nodes := by
  induction nodes with
  | nil => rfl
  | cons head rest ih =>
      simp only [List.map_cons, weightAll, Node.weightAll, weight, node_ofScope, ih]

theorem weightAll_ofClassEntry_le (entry : Node) :
    weightAll (ofClassEntry entry) ≤ entry.weight := by
  have byDepth := Node.weightAll_levels_scopes_le entry
  unfold ofClassEntry
  split <;> simp only [weightAll, weight, weightAll_map_ofScope] <;> first | omega | exact byDepth

theorem weightAll_flatMap_ofClassEntry_le (entries : List Node) :
    weightAll (entries.flatMap ofClassEntry) ≤ Node.weightAll entries := by
  induction entries with
  | nil => simp [weightAll]
  | cons head rest ih =>
    have first := weightAll_ofClassEntry_le head
    simp only [List.flatMap_cons, weightAll_append, Node.weightAll]
    omega

theorem weightAll_ofBody_le (kind : DeclKind) (body : Node) :
    weightAll (ofBody kind body) ≤ body.weight := by
  unfold ofBody
  split
  · rw [weightAll_map_ofScope]; exact Node.weightAll_visit_scopes_le body
  · rw [weightAll_map_ofScope]; exact Node.weightAll_levels_scopes_le body
  · have entries := weightAll_flatMap_ofClassEntry_le body.slots
    have slots : Node.weightAll body.slots ≤ Node.weightAll body.children :=
      Node.weightAll_filter_le _ _
    rw [body.weight_mk]
    omega

/-- Everything directly inside a declaration, taken together, is smaller than it. -/
theorem weightAll_inner_lt (declaration : Declaration) :
    weightAll declaration.inner < declaration.weight := by
  unfold inner
  split
  · next body found =>
    have smaller := Node.weight_child?_lt found
    have within := weightAll_ofBody_le declaration.kind body
    simp only [weight]
    omega
  · exact declaration.node.weight_pos

end Declaration
end ScopeGraph
