import ScopeGraph.Proofs.Listing
import ScopeGraph.Proofs.Syntax.Worklist
import ScopeGraph.Scope.Extract

/-!
# Traversals and containers

The declarations of a file, of a body and of a class are found by worklists that describe each scope
when it is met and put its descriptor into a container.  What they build is what the extraction
builds: they meet the scopes of the frontier once each, by depth or in document order, and each
container keeps its names, takes new ones in the order of first meeting, and has the last descriptor
of a name.
-/
set_option autoImplicit false

namespace ScopeGraph

open Syntax

/-- At file level functions and classes are kept apart. -/
inductive Container where
  | file (functions classes : Members)
  | members (held : Members)

namespace Members

/-- Names stay, new ones follow in the order of the descriptors, and the last of a name counts. -/
structure ExtendedBy (before : Members) (descriptors : List Descriptor) (after : Members) :
    Prop where
  names : after.names =
    before.names ++ ((descriptors.map Descriptor.name).filter (· ∉ before.names)).eraseDups
  last : ∀ name, after.get? name =
    (descriptors.filter (·.name = name)).getLast?.or (before.get? name)

theorem extendedBy_addAll (members : Members) (descriptors : List Descriptor) :
    members.ExtendedBy descriptors (members.addAll descriptors) where
  names := by
    rw [addAll, Listing.names_setAll, List.map_map]
    rfl
  last name := by
    rw [addAll, Listing.get?_setAll, List.filter_map, List.getLast?_map, Option.map_map]
    have same : (Prod.snd ∘ fun descriptor : Descriptor => (descriptor.name, descriptor)) = id :=
      rfl
    rw [same, Option.map_id]
    rfl

theorem addAll_cons (members : Members) (descriptor : Descriptor)
    (descriptors : List Descriptor) :
    members.addAll (descriptor :: descriptors) =
      addAll (Listing.set descriptor.name descriptor members) descriptors := rfl

end Members

namespace Container

def insert (descriptor : Descriptor) : Container → Container
  | file functions classes =>
    if descriptor.kind = .classDecl then
      file functions (Listing.set descriptor.name descriptor classes)
    else file (Listing.set descriptor.name descriptor functions) classes
  | members held => members (Listing.set descriptor.name descriptor held)

def insertAll (container : Container) (descriptors : List Descriptor) : Container :=
  descriptors.foldl (fun filled descriptor => filled.insert descriptor) container

theorem insertAll_members (held : Members) (descriptors : List Descriptor) :
    (members held).insertAll descriptors = members (held.addAll descriptors) := by
  induction descriptors generalizing held with
  | nil => rfl
  | cons descriptor rest ih => exact ih _

theorem insertAll_file (functions classes : Members) (descriptors : List Descriptor) :
    (file functions classes).insertAll descriptors =
      file (functions.addAll (descriptors.filter (·.kind ≠ .classDecl)))
        (classes.addAll (descriptors.filter (·.kind = .classDecl))) := by
  induction descriptors generalizing functions classes with
  | nil => rfl
  | cons descriptor rest ih =>
      by_cases isClass : descriptor.kind = .classDecl
      · have first : (file functions classes).insert descriptor =
            file functions (Listing.set descriptor.name descriptor classes) := if_pos isClass
        rw [insertAll, List.foldl_cons, first]
        simp only [List.filter_cons, isClass, decide_true, ne_eq, not_true_eq_false, decide_false,
          if_true, Bool.false_eq_true, if_false, Members.addAll_cons]
        exact ih _ _
      · have first : (file functions classes).insert descriptor =
            file (Listing.set descriptor.name descriptor functions) classes := if_neg isClass
        rw [insertAll, List.foldl_cons, first]
        simp only [List.filter_cons, isClass, decide_true, ne_eq, not_false_eq_true, decide_false,
          if_true, Bool.false_eq_true, if_false, Members.addAll_cons]
        exact ih _ _

def ExtendedBy (before : Container) (descriptors : List Descriptor) : Container → Prop
  | members after => ∃ held, before = members held ∧ held.ExtendedBy descriptors after
  | file functions classes => ∃ heldFunctions heldClasses, before = file heldFunctions heldClasses ∧
      heldFunctions.ExtendedBy (descriptors.filter (·.kind ≠ .classDecl)) functions ∧
      heldClasses.ExtendedBy (descriptors.filter (·.kind = .classDecl)) classes

theorem extendedBy_insertAll (container : Container) (descriptors : List Descriptor) :
    container.ExtendedBy descriptors (container.insertAll descriptors) := by
  cases container with
  | members held =>
      rw [insertAll_members]
      exact ⟨held, rfl, held.extendedBy_addAll descriptors⟩
  | file functions classes =>
      rw [insertAll_file]
      exact ⟨functions, classes, rfl, functions.extendedBy_addAll _, classes.extendedBy_addAll _⟩

end Container

namespace Source

variable (source : Source)

/-- Describes a declaration and puts the descriptor into the container. -/
def describeInto (state : Container × Tally) (declaration : Declaration) : Container × Tally :=
  let described := declaration.describe source state.2
  (state.1.insert described.1, described.2)

/-- Scopes are described where they are met, other nodes are passed by. -/
def meet (state : Container × Tally) (node : Node) : Container × Tally :=
  if node.isScope then source.describeInto state (.ofScope node) else state

/-- Meets what a node leads to by way of a queue. -/
def walkQueue (root : Node) (state : Container × Tally) : Container × Tally :=
  Node.drainQueue Node.isOpen source.meet [root] state

/-- Meets what a node leads to by way of a stack. -/
def walkStack (root : Node) (state : Container × Tally) : Container × Tally :=
  Node.drainStack Node.isOpen source.meet [root] state

/-- Takes in one entry of a class body. -/
def takeClassEntry (state : Container × Tally) (entry : Node) : Container × Tally :=
  match entry.kind with
  | .methodDefinition => source.describeInto state ⟨.method, entry⟩
  | .classDeclaration | .classExpression => source.describeInto state ⟨.classDecl, entry⟩
  | .fieldDefinition | .classStaticBlock => source.walkQueue entry state
  | _ => state

/-- Takes in the body of a declaration. -/
def takeBody (kind : DeclKind) (body : Node) (state : Container × Tally) : Container × Tally :=
  match kind with
  | .function => source.walkStack body state
  | .method => source.walkQueue body state
  | .classDecl => body.slots.foldl source.takeClassEntry state

theorem foldl_describeInto (declarations : List Declaration) (container : Container)
    (tally : Tally) :
    declarations.foldl source.describeInto (container, tally) =
      (container.insertAll (Declaration.describeAll source declarations tally).1,
        (Declaration.describeAll source declarations tally).2) := by
  induction declarations generalizing container tally with
  | nil =>
      rw [Declaration.describeAll]
      rfl
  | cons declaration rest ih =>
      rw [List.foldl_cons, describeInto, ih, Declaration.describeAll]
      rfl

theorem foldl_meet (nodes : List Node) (state : Container × Tally) :
    nodes.foldl source.meet state =
      ((nodes.filter Node.isScope).map Declaration.ofScope).foldl source.describeInto state := by
  induction nodes generalizing state with
  | nil => rfl
  | cons node rest ih =>
      rw [List.foldl_cons, ih, meet]
      by_cases isScope : node.isScope <;> simp [isScope]

theorem walkQueue_eq (root : Node) (state : Container × Tally) :
    source.walkQueue root state =
      (root.scopesByDepth.map Declaration.ofScope).foldl source.describeInto state := by
  rw [walkQueue, Node.drainQueue_root, foldl_meet]
  rfl

theorem walkStack_eq (root : Node) (state : Container × Tally) :
    source.walkStack root state =
      (root.scopesInOrder.map Declaration.ofScope).foldl source.describeInto state := by
  rw [walkStack, Node.drainStack_root, foldl_meet]
  rfl

theorem takeClassEntry_eq (state : Container × Tally) (entry : Node) :
    source.takeClassEntry state entry =
      (Declaration.ofClassEntry entry).foldl source.describeInto state := by
  have below := source.walkQueue_eq entry state
  unfold takeClassEntry Declaration.ofClassEntry
  generalize entry.kind = kind
  cases kind <;> first | rfl | exact below

theorem takeBody_eq (kind : DeclKind) (body : Node) (state : Container × Tally) :
    source.takeBody kind body state =
      (Declaration.ofBody kind body).foldl source.describeInto state := by
  cases kind with
  | function => exact source.walkStack_eq body state
  | method => exact source.walkQueue_eq body state
  | classDecl =>
      have entries : source.takeClassEntry = fun state entry =>
          (Declaration.ofClassEntry entry).foldl source.describeInto state := by
        funext state entry
        exact source.takeClassEntry_eq state entry
      rw [takeBody, Declaration.ofBody, entries, List.foldl_flatMap]

theorem walkQueue_root_eq_scope (tally : Tally) :
    source.walkQueue source.root (.file [] [], tally) =
      (.file (source.scope tally).1.functions (source.scope tally).1.classes,
        (source.scope tally).2) := by
  rw [walkQueue_eq, foldl_describeInto, Container.insertAll_file]
  rfl

theorem takeBody_eq_describe (declaration : Declaration) {body : Node} (tally : Tally)
    (has : declaration.node.child? .body = some body) :
    ∃ inner,
      source.takeBody declaration.kind body
          (.members [], (tally.nameFor declaration.kind (declaration.name? source.text)).2) =
        (.members (declaration.describe source tally).1.members, inner) ∧
      (declaration.describe source tally).2 =
        inner.addUnresolved (declaration.unresolvedCalls source) := by
  have inside : declaration.inner = Declaration.ofBody declaration.kind body := by
    rw [Declaration.inner, has]
  rw [takeBody_eq, ← inside, foldl_describeInto, Container.insertAll_members, Declaration.describe]
  exact ⟨_, rfl, rfl⟩

/-- The run describes the nodes one after the other and extends its container by them. -/
structure Meets (nodes : List Node) (run : Container × Tally → Container × Tally) : Prop where
  inTurn : ∀ state, run state =
    (nodes.map Declaration.ofScope).foldl source.describeInto state
  extends_container : ∀ (container : Container) (tally : Tally),
    container.ExtendedBy
      (Declaration.describeAll source (nodes.map Declaration.ofScope) tally).1
      (run (container, tally)).1

theorem meets_of_inTurn {nodes : List Node} {run : Container × Tally → Container × Tally}
    (inTurn : ∀ state, run state =
      (nodes.map Declaration.ofScope).foldl source.describeInto state) :
    source.Meets nodes run where
  inTurn := inTurn
  extends_container container tally := by
    rw [inTurn, foldl_describeInto]
    exact container.extendedBy_insertAll _

end Source

/-- The nodes are the scopes of the frontier, one for each of their places, in an order of the
places. -/
def Syntax.Node.ListsFrontier (before : Place → Place → Prop) (root : Node) (nodes : List Node) :
    Prop :=
  ∃ placed : List (Place × Node), placed.map Prod.snd = nodes ∧
    (placed.Pairwise fun first second => before first.1 second.1) ∧
    ∀ place node, (place, node) ∈ placed ↔ root.Frontier place node

/-- A queue meets the frontier by depth and then by position, a stack meets it in document order;
the scope of a file and the members of a declaration are built by these two. -/
theorem worklists_meet_the_frontier (source : Source) (root : Node) :
    root.ListsFrontier (List.Shortlex (· < ·)) root.scopesByDepth ∧
      source.Meets root.scopesByDepth (source.walkQueue root) ∧
      root.ListsFrontier (List.Lex (· < ·)) root.scopesInOrder ∧
      source.Meets root.scopesInOrder (source.walkStack root) ∧
      (∀ tally, source.walkQueue source.root (.file [] [], tally) =
        (.file (source.scope tally).1.functions (source.scope tally).1.classes,
          (source.scope tally).2)) ∧
      ∀ (declaration : Declaration) (body : Node) (tally : Tally),
        declaration.node.child? .body = some body →
        ∃ inner,
          source.takeBody declaration.kind body
              (.members [], (tally.nameFor declaration.kind (declaration.name? source.text)).2) =
            (.members (declaration.describe source tally).1.members, inner) ∧
          (declaration.describe source tally).2 =
            inner.addUnresolved (declaration.unresolvedCalls source) := by
  refine ⟨?_, ?_, ?_, ?_, source.walkQueue_root_eq_scope, ?_⟩
  · exact ⟨root.scopePlacesByDepth, root.map_snd_scopePlacesByDepth,
      root.pairwise_scopePlacesByDepth, root.mem_scopePlacesByDepth⟩
  · exact source.meets_of_inTurn (source.walkQueue_eq root)
  · exact ⟨root.scopePlaces, root.map_snd_scopePlaces, root.pairwise_scopePlaces,
      root.mem_scopePlaces⟩
  · exact source.meets_of_inTurn (source.walkStack_eq root)
  · intro declaration body tally has
    exact source.takeBody_eq_describe declaration tally has

end ScopeGraph
