import ScopeGraph.Scope.Calls
import ScopeGraph.Scope.Declaration

/-!
# Calls that other calls are built on

The callee of a call is unwrapped by a loop: an access is left for its object, parentheses and a
sequence for their last part, a call for its own callee.  The loop notes the name that each node
adds, the outermost first.  Where it comes through another call, the path of that call is the
beginning of the path of the outer one, and the accesses on the way there add the rest.
-/
set_option autoImplicit false

namespace ScopeGraph

open Syntax

namespace Syntax.Node

/-- What an expression in callee position is left for. -/
def inner? (node : Node) : Option Node :=
  match node.kind with
  | .memberExpression | .subscriptExpression => node.child? .object
  | .sequenceExpression | .parenthesizedExpression => node.slots.getLast?
  | .callExpression => node.child? .function
  | _ => none

theorem mem_children_of_inner? {node next : Node} (inner : node.inner? = some next) :
    next ∈ node.children := by
  have last : node.slots.getLast? = some next → next ∈ node.children := fun found =>
    (List.mem_filter.mp (List.mem_of_getLast? found)).1
  unfold inner? at inner
  split at inner
  · exact List.mem_of_find?_eq_some inner
  · exact List.mem_of_find?_eq_some inner
  · exact last inner
  · exact last inner
  · exact List.mem_of_find?_eq_some inner
  · cases inner

theorem weight_lt_of_inner? {node next : Node} (inner : node.inner? = some next) :
    next.weight < node.weight := by
  have inside := weight_le_of_mem (mem_children_of_inner? inner)
  rw [node.weight_mk]
  omega

/-- The expression is unwrapped to the target; on the way the nodes of the list are left, the
outermost first. -/
inductive Unwraps : Node → List Node → Node → Prop where
  | here (node : Node) : Unwraps node [] node
  | leave {node next target : Node} {passed : List Node} (inner : node.inner? = some next)
      (further : Unwraps next passed target) : Unwraps node (node :: passed) target

section Names
variable (source : String)

/-- The name that an access adds: its property, or its index without quotes. -/
def accessName? (node : Node) : Option String :=
  match node.kind with
  | .memberExpression => (node.child? .property).map (text source)
  | .subscriptExpression =>
    (node.child? .index).map fun index => trimEnds isQuote (index.text source)
  | _ => none

/-- The name that a base has. -/
def baseName? (node : Node) : Option String :=
  match node.kind with
  | .identifier => some (node.text source)
  | .this => some "this"
  | .functionExpression | .function | .generatorFunction | .arrowFunction =>
    some (((node.child? .name).map (text source)).getD "anonymous")
  | _ => none

/-- The name that the loop notes at a node. -/
def ownName? (node : Node) : Option String := (node.accessName? source).or (node.baseName? source)

/-- Unwraps an expression to its base and notes the names on the way. -/
def unwind : Option Node → List String → List String
  | none, names => names
  | some node, names => unwind node.inner? (names ++ (node.ownName? source).toList)
termination_by current => (current.map weight).getD 0
decreasing_by
  cases inner : node.inner? with
  | none => exact node.weight_pos
  | some next => exact weight_lt_of_inner? inner

theorem pathOf_eq (field : Field) (nodes : List Node) :
    pathOf source field nodes =
      ((nodes.find? (·.field = some field)).map (path source)).getD [] := by
  induction nodes with
  | nil => rfl
  | cons node rest ih =>
      rw [pathOf]
      by_cases fills : node.field = some field <;> simp [fills, ih]

theorem pathOfLastSlot_eq (nodes : List Node) :
    pathOfLastSlot source nodes = ((nodes.filter isSlot).getLast?.map (path source)).getD [] := by
  induction nodes with
  | nil => rfl
  | cons node rest ih =>
      rw [pathOfLastSlot]
      by_cases later : rest.any isSlot
      · -- The last slot is among the other nodes.
        have some_left : rest.filter isSlot ≠ [] := by
          simpa [List.filter_eq_nil_iff] using later
        by_cases isSlot : node.isSlot <;>
          simp [isSlot, later, ih, List.getLast?_cons_of_ne_nil, some_left]
      · have none_left : rest.filter isSlot = [] := by
          simpa [List.filter_eq_nil_iff] using later
        by_cases isSlot : node.isSlot <;> simp [isSlot, later, ih, none_left]

/-- The path of an expression is that of what it is left for and the name that it adds. -/
theorem path_eq (node : Node) :
    node.path source =
      (node.inner?.map (path source)).getD [] ++ (node.ownName? source).toList := by
  obtain ⟨kind, field, span, named, faulty, flagged, children⟩ := node
  cases kind <;>
    simp [path, inner?, ownName?, accessName?, baseName?, pathOf_eq, pathOfLastSlot_eq, child?,
      slots]

theorem calleePath_eq (call : Node) :
    call.calleePath source = ((call.child? .function).map (path source)).getD [] :=
  pathOf_eq source .function call.children

theorem calleePath_of_call {call : Node} (isCall : call.kind = .callExpression) :
    call.calleePath source = call.path source := by
  rw [calleePath_eq, path_eq]
  simp [inner?, ownName?, accessName?, baseName?, isCall]

theorem ownName?_of_inner? {node next : Node} (inner : node.inner? = some next) :
    node.ownName? source = node.accessName? source := by
  have noBase : node.baseName? source = none := by
    unfold inner? at inner
    split at inner <;> simp_all [baseName?]
  rw [ownName?, noBase, Option.or_none]

/-! ## The loop -/

theorem reverse_unwind (current : Option Node) (names : List String) :
    (unwind source current names).reverse =
      (current.map (path source)).getD [] ++ names.reverse := by
  fun_induction unwind source current names with
  | case1 names => rfl
  | case2 node names ih =>
      rw [ih, Option.map_some, Option.getD_some, path_eq, List.reverse_append, List.append_assoc]
      cases node.ownName? source <;> rfl

variable {node target : Node} {passed : List Node}

theorem Unwraps.unwind_eq (unwraps : Unwraps node passed target) (names : List String) :
    unwind source (some node) names =
      unwind source (some target) (names ++ passed.filterMap (accessName? source)) := by
  induction unwraps generalizing names with
  | here node => simp
  | @leave node next target passed inner further ih =>
      rw [unwind, inner, ih, ownName?_of_inner? source inner, List.append_assoc]
      cases name : node.accessName? source <;> simp [name]

theorem Unwraps.path_eq (unwraps : Unwraps node passed target) :
    node.path source =
      target.path source ++ passed.reverse.filterMap (accessName? source) := by
  have whole := reverse_unwind source (some node) []
  have rest := reverse_unwind source (some target) (passed.filterMap (accessName? source))
  rw [unwraps.unwind_eq, List.nil_append, rest] at whole
  simpa using whole.symm

end Names
end Syntax.Node

/-- Where the unwrapping of a callee comes through another call, the path of that call is the
beginning of the path of the outer one; the accesses that were left on the way there add the rest,
the innermost first.  The paths are those of the loop, which comes to the inner call with the names
of these accesses noted. -/
theorem call_path_extends_inner_call_path (source : String) {call callee inner : Node}
    {passed : List Node} (has : call.child? .function = some callee)
    (unwraps : callee.Unwraps passed inner) (isCall : inner.kind = .callExpression) :
    inner.calleePath source <+: call.calleePath source ∧
    call.calleePath source =
      inner.calleePath source ++ passed.reverse.filterMap (Node.accessName? source) ∧
    call.calleePath source = (Node.unwind source (some callee) []).reverse ∧
    ∀ names, Node.unwind source (some callee) names =
      Node.unwind source (some inner) (names ++ passed.filterMap (Node.accessName? source)) := by
  have outer : call.calleePath source = callee.path source := by
    rw [Node.calleePath_eq, has]
    rfl
  have extended : call.calleePath source =
      inner.calleePath source ++ passed.reverse.filterMap (Node.accessName? source) := by
    rw [outer, unwraps.path_eq, Node.calleePath_of_call source isCall]
  have loop := Node.reverse_unwind source (some callee) []
  refine ⟨⟨_, extended.symm⟩, extended, ?_, unwraps.unwind_eq source⟩
  rw [loop, outer]
  simp

/-- The call of `a['b']` in `chainedCalls`. -/
def subscriptCall : Node :=
  ⟨.callExpression, some .object, ⟨4, 12⟩, true, false, false,
    [⟨.subscriptExpression, some .function, ⟨4, 10⟩, true, false, false,
      [⟨.identifier, some .object, ⟨4, 5⟩, true, false, false, []⟩,
        ⟨.other "string", some .index, ⟨6, 9⟩, true, false, false, []⟩]⟩,
      ⟨.other "arguments", some .other, ⟨10, 12⟩, true, false, false, []⟩]⟩

/-- The tree of `(0, a['b']().c)(1).d()`. -/
def chainedCalls : Node :=
  ⟨.callExpression, none, ⟨0, 22⟩, true, false, false,
    [⟨.memberExpression, some .function, ⟨0, 20⟩, true, false, false,
      [⟨.callExpression, some .object, ⟨0, 18⟩, true, false, false,
        [⟨.parenthesizedExpression, some .function, ⟨0, 15⟩, true, false, false,
          [⟨.sequenceExpression, none, ⟨1, 14⟩, true, false, false,
            [⟨.other "number", none, ⟨1, 2⟩, true, false, false, []⟩,
              ⟨.memberExpression, none, ⟨4, 14⟩, true, false, false,
                [subscriptCall,
                  ⟨.propertyIdentifier, some .property, ⟨13, 14⟩, true, false, false, []⟩]⟩]⟩]⟩,
          ⟨.other "arguments", some .other, ⟨15, 18⟩, true, false, false,
            [⟨.other "number", none, ⟨16, 17⟩, true, false, false, []⟩]⟩]⟩,
        ⟨.propertyIdentifier, some .property, ⟨19, 20⟩, true, false, false, []⟩]⟩,
      ⟨.other "arguments", some .other, ⟨20, 22⟩, true, false, false, []⟩]⟩

theorem chainedCalls_extends_subscriptCall :
    ∃ callee passed, chainedCalls.child? .function = some callee ∧
      callee.Unwraps passed subscriptCall ∧
      subscriptCall.calleePath "(0, a['b']().c)(1).d()" <+:
        chainedCalls.calleePath "(0, a['b']().c)(1).d()" ∧
      subscriptCall.calleePath "(0, a['b']().c)(1).d()" = ["a", "b"] ∧
      passed.reverse.filterMap (Node.accessName? "(0, a['b']().c)(1).d()") = ["c", "d"] := by
  obtain ⟨callee, passed, has, unwraps, names⟩ :
      ∃ callee passed, chainedCalls.child? .function = some callee ∧
        callee.Unwraps passed subscriptCall ∧
        passed.reverse.filterMap (Node.accessName? "(0, a['b']().c)(1).d()") = ["c", "d"] :=
    ⟨_, _, rfl, .leave rfl (.leave rfl (.leave rfl (.leave rfl (.leave rfl (.here _))))), by decide⟩
  have extended := call_path_extends_inner_call_path "(0, a['b']().c)(1).d()" has unwraps rfl
  exact ⟨callee, passed, has, unwraps, extended.1, by decide, names⟩

end ScopeGraph
