import ScopeGraph.Proofs.Syntax.Places
import ScopeGraph.Source

/-!
# The first fault of a tree

The search for a fault passes over every subtree that is not flagged.  Where the flags are exact,
nothing is missed: it finds the faulty node that comes first in the whole tree, anonymous tokens
included, and it finds one whenever the root is flagged.  So a strict reading that fails names a
position.
-/
set_option autoImplicit false

namespace ScopeGraph.Syntax.Node

/-! ## The whole tree -/

/-- Every node of a tree with its place, in document order. -/
def preorder (root : Node) : List (Place × Node) := root.reached (fun _ => true) fun _ => true

theorem mem_preorder (root : Node) (place : Place) (node : Node) :
    (place, node) ∈ root.preorder ↔ root.at? place = some node := by
  rw [preorder, mem_reached]
  induction place generalizing root with
  | nil => rw [Reaches.nil_iff, at?, Option.some.injEq, eq_comm]
  | cons i place ih => simp only [Reaches.cons_iff, at?, Option.bind_eq_some_iff, ih, true_and]

theorem pairwise_preorder (root : Node) :
    root.preorder.Pairwise fun first second => List.Lex (· < ·) first.1 second.1 :=
  pairwise_reached _ _ root

/-- The node or one below it is faulty. -/
def HasFault (node : Node) : Prop := ∃ place fault, node.at? place = some fault ∧ fault.faulty

/-- Exactly the nodes with a fault at or below them are flagged. -/
def FlagsExact (root : Node) : Prop :=
  ∀ place node, root.at? place = some node → (node.flagged ↔ node.HasFault)

theorem hasFault_iff (node : Node) : node.HasFault ↔ node.preorder.any (·.2.faulty) := by
  simp only [HasFault, ← mem_preorder, List.any_eq_true, Prod.exists]

theorem flagsExact_iff (root : Node) :
    root.FlagsExact ↔
      ∀ placed ∈ root.preorder, placed.2.flagged = placed.2.preorder.any (·.2.faulty) := by
  simp only [FlagsExact, ← mem_preorder root, hasFault_iff, Prod.forall, ← Bool.eq_iff_iff]

instance (root : Node) : Decidable root.FlagsExact := decidable_of_iff' _ root.flagsExact_iff

theorem FlagsExact.flagged_iff {root : Node} (exact : root.FlagsExact) :
    root.flagged ↔ root.HasFault := exact [] root rfl

/-- No fault is hidden: a node that has one shows it or is flagged.  The search needs no more, as it
looks at a node before its flag; an error without parts may well be unflagged. -/
def FlagsCover (root : Node) : Prop :=
  ∀ place node, root.at? place = some node → node.HasFault → node.faulty ∨ node.flagged

theorem FlagsExact.cover {root : Node} (exact : root.FlagsExact) : root.FlagsCover :=
  fun place node stands fault => Or.inr ((exact place node stands).mpr fault)

theorem FlagsCover.child {root child : Node} (cover : root.FlagsCover)
    (member : child ∈ root.children) : child.FlagsCover := by
  intro place node stands
  obtain ⟨i, found⟩ := List.mem_iff_getElem?.mp member
  refine cover (i :: place) node ?_
  rw [at?, found]
  exact stands

/-! ## The plain search -/

/-- The first faulty node of the whole tree. -/
def firstFaulty (root : Node) : Option Node := (root.preorder.find? (·.2.faulty)).map Prod.snd

/-- The first faulty node of the trees below a node. -/
def firstFaultyBelow (i : Nat) (nodes : List Node) : Option Node :=
  ((reachedBelow (fun _ => true) (fun _ => true) i nodes).find? (·.2.faulty)).map Prod.snd

theorem firstFaulty_eq (node : Node) :
    node.firstFaulty = if node.faulty then some node else firstFaultyBelow 0 node.children := by
  rw [firstFaulty, preorder, reached_eq, if_pos rfl, firstFaultyBelow]
  by_cases faulty : node.faulty <;> simp [faulty]

theorem firstFaultyBelow_cons (i : Nat) (node : Node) (rest : List Node) :
    firstFaultyBelow i (node :: rest) = node.firstFaulty.or (firstFaultyBelow (i + 1) rest) := by
  have here : ((node.preorder.map (under [i])).find? (·.2.faulty)).map Prod.snd =
      node.firstFaulty := by
    rw [List.find?_map, Option.map_map]
    rfl
  rw [firstFaultyBelow, reachedBelow, if_pos rfl, List.find?_append, Option.map_or]
  exact congrArg (Option.or · _) here

theorem firstFaulty_eq_none_iff (node : Node) : node.firstFaulty = none ↔ ¬ node.HasFault := by
  rw [firstFaulty, Option.map_eq_none_iff, List.find?_eq_none, hasFault_iff]
  simp

/-! ## The pruned search -/

theorem firstFault_eq (node : Node) :
    node.firstFault =
      if node.faulty then some node
      else if node.flagged then firstFaultAmong node.children
      else none := by
  obtain ⟨⟩ := node
  rfl

theorem firstFaultAmong_cons (node : Node) (rest : List Node) :
    firstFaultAmong (node :: rest) = node.firstFault.or (firstFaultAmong rest) := by
  rw [firstFaultAmong]
  cases node.firstFault <;> rfl

theorem firstFaultAmong_eq_firstFaultyBelow (nodes : List Node)
    (each : ∀ node ∈ nodes, node.firstFault = node.firstFaulty) (i : Nat) :
    firstFaultAmong nodes = firstFaultyBelow i nodes := by
  induction nodes generalizing i with
  | nil => rfl
  | cons node rest ih =>
      have later := ih (fun other member => each other (List.mem_cons_of_mem node member)) (i + 1)
      rw [firstFaultAmong_cons, firstFaultyBelow_cons, each node List.mem_cons_self, later]

theorem firstFault_eq_firstFaulty {root : Node} (cover : root.FlagsCover) :
    root.firstFault = root.firstFaulty := by
  induction root using induction with
  | step node ih =>
      have below := firstFaultAmong_eq_firstFaultyBelow node.children
        (fun child member => ih child member (cover.child member)) 0
      by_cases faulty : node.faulty
      · rw [firstFault_eq, firstFaulty_eq, if_pos faulty, if_pos faulty]
      · by_cases flagged : node.flagged
        · rw [firstFault_eq, firstFaulty_eq, if_pos flagged, below]
        · -- The subtree is passed over, and there is no fault in it.
          have clean : ¬ node.HasFault := fun fault =>
            (cover [] node rfl fault).elim faulty flagged
          have nothing := (firstFaulty_eq_none_iff node).mpr clean
          rw [firstFault_eq, if_neg faulty, if_neg flagged, nothing]

/-! ## The search by a stack -/

theorem firstFaultAmong_append (first second : List Node) :
    firstFaultAmong (first ++ second) = (firstFaultAmong first).or (firstFaultAmong second) := by
  induction first with
  | nil => rfl
  | cons node rest ih =>
      rw [List.cons_append, firstFaultAmong_cons, firstFaultAmong_cons, ih, Option.or_assoc]

/-- The search as a loop: the top of the stack is looked at, and its children take its place if it
is flagged. -/
def searchStack : List Node → Option Node
  | [] => none
  | node :: rest =>
    if node.faulty then some node
    else if node.flagged then searchStack (node.children ++ rest)
    else searchStack rest
termination_by stack => weightAll stack
decreasing_by
  · rw [weightAll_append, weightAll, node.weight_mk]
    omega
  · have positive := node.weight_pos
    rw [weightAll]
    omega

theorem searchStack_eq (stack : List Node) : searchStack stack = firstFaultAmong stack := by
  fun_induction searchStack stack with
  | case1 => rfl
  | case2 node rest faulty =>
      rw [firstFaultAmong_cons, firstFault_eq, if_pos faulty, Option.some_or]
  | case3 node rest sound flagged ih =>
      rw [ih, firstFaultAmong_append, firstFaultAmong_cons, firstFault_eq, if_neg sound,
        if_pos flagged]
  | case4 node rest sound unflagged ih =>
      rw [ih, firstFaultAmong_cons, firstFault_eq, if_neg sound, if_neg unflagged, Option.none_or]

theorem searchStack_root (root : Node) : searchStack [root] = root.firstFault := by
  rw [searchStack_eq, firstFaultAmong_cons, firstFaultAmong, Option.or_none]

/-! ## The place of the first fault -/

/-- The faulty node at the place comes before every other one. -/
structure FirstFaultAt (root : Node) (place : Place) (fault : Node) : Prop where
  stands : root.at? place = some fault
  faulty : fault.faulty
  first : ∀ other node, root.at? other = some node → node.faulty → other ≠ place →
    List.Lex (· < ·) place other

theorem firstFaultAt_of_find? {root fault : Node} {place : Place}
    (found : root.preorder.find? (·.2.faulty) = some (place, fault)) :
    root.FirstFaultAt place fault := by
  obtain ⟨faulty, before, after, listed, sound⟩ := List.find?_eq_some_iff_append.mp found
  have order := root.pairwise_preorder
  rw [listed] at order
  have later := (List.pairwise_cons.mp (List.pairwise_append.mp order).2.1).1
  refine ⟨(root.mem_preorder place fault).mp (List.mem_of_find?_eq_some found), faulty, ?_⟩
  intro other node stands otherFaulty differs
  have member := (root.mem_preorder other node).mpr stands
  rw [listed] at member
  rcases List.mem_append.mp member with early | here
  · have noFault := sound _ early
    simp [otherFaulty] at noFault
  · rcases List.mem_cons.mp here with same | late
    · exact absurd (congrArg Prod.fst same) differs
    · exact later _ late

theorem FirstFaultAt.unique {root fault other : Node} {place further : Place}
    (first : root.FirstFaultAt place fault) (second : root.FirstFaultAt further other) :
    fault = other := by
  by_cases same : further = place
  · subst same
    exact Option.some.inj (first.stands.symm.trans second.stands)
  · have less := first.first further other second.stands second.faulty same
    have more := second.first place fault first.stands first.faulty (Ne.symm same)
    exact absurd more (asymm_of (List.Lex (· < ·)) less)

theorem FirstFaultAt.hasFault {root fault : Node} {place : Place}
    (first : root.FirstFaultAt place fault) : root.HasFault :=
  ⟨place, fault, first.stands, first.faulty⟩

theorem firstFaulty_eq_some_iff (root fault : Node) :
    root.firstFaulty = some fault ↔ ∃ place, root.FirstFaultAt place fault := by
  have placed : ∀ found, root.firstFaulty = some found →
      ∃ place, root.FirstFaultAt place found := by
    intro found search
    obtain ⟨⟨place, node⟩, listed, rfl⟩ := Option.map_eq_some_iff.mp search
    exact ⟨place, firstFaultAt_of_find? listed⟩
  refine ⟨placed fault, ?_⟩
  rintro ⟨place, first⟩
  cases search : root.firstFaulty with
  | none => exact absurd first.hasFault ((firstFaulty_eq_none_iff root).mp search)
  | some found =>
      obtain ⟨_, earliest⟩ := placed found search
      rw [earliest.unique first]

end ScopeGraph.Syntax.Node

namespace ScopeGraph

/-! ## Strict readings -/

open Syntax Syntax.Node

theorem Source.read_eq_error_iff (path text : String) (root : Node) (error : Error) :
    Source.read true path text root = .error error ↔
      root.flagged ∧
        error = .parse path (root.firstFault.map fun node => position text node.span.start) := by
  rw [Source.read, Bool.true_and]
  by_cases flagged : root.flagged <;> simp [flagged, eq_comm]

/-- With exact flags the pruned search, also as a loop with a stack, finds the first faulty node of
the whole tree, and there is one if the root is flagged.  A strict reading fails exactly if there is
a first fault, and says where it starts. -/
theorem pruned_search_finds_first_fault {root : Node} (exact : root.FlagsExact) :
    searchStack [root] = root.firstFault ∧
      root.firstFault = (root.preorder.find? (·.2.faulty)).map Prod.snd ∧
      (root.flagged → ∃ place fault, root.firstFault = some fault ∧
        root.FirstFaultAt place fault) ∧
      ∀ path text error, Source.read true path text root = .error error ↔
        ∃ place fault, root.FirstFaultAt place fault ∧
          error = .parse path (some (Source.position text fault.span.start)) := by
  have plain : root.firstFault = root.firstFaulty := firstFault_eq_firstFaulty exact.cover
  have found : root.flagged → ∃ place fault, root.firstFault = some fault ∧
      root.FirstFaultAt place fault := by
    intro flagged
    have hit : root.firstFaulty ≠ none := fun missed =>
      (firstFaulty_eq_none_iff root).mp missed (exact.flagged_iff.mp flagged)
    obtain ⟨fault, search⟩ := Option.ne_none_iff_exists'.mp hit
    obtain ⟨place, first⟩ := (firstFaulty_eq_some_iff root fault).mp search
    exact ⟨place, fault, plain.trans search, first⟩
  refine ⟨searchStack_root root, plain, found, fun path text error => ?_⟩
  rw [Source.read_eq_error_iff]
  constructor
  · rintro ⟨flagged, rfl⟩
    obtain ⟨place, fault, search, first⟩ := found flagged
    exact ⟨place, fault, first, by rw [search, Option.map_some]⟩
  · rintro ⟨place, fault, first, rfl⟩
    have search := (firstFaulty_eq_some_iff root fault).mpr ⟨place, first⟩
    refine ⟨exact.flagged_iff.mpr first.hasFault, ?_⟩
    rw [plain, search, Option.map_some]

/-- The name that is missing in `class A { () ; }`, before the parentheses. -/
def missingName : Node :=
  ⟨.propertyIdentifier, some .property, ⟨9, 9⟩, true, true, true, []⟩

/-- The tree of that text.  The parentheses fit nowhere; they come later, but less deep. -/
def namelessMember : Node :=
  ⟨.other "program", none, ⟨0, 16⟩, true, false, true,
    [⟨.classDeclaration, none, ⟨0, 16⟩, true, false, true,
      [⟨.identifier, some .name, ⟨6, 7⟩, true, false, false, []⟩,
        ⟨.other "class_body", some .body, ⟨8, 16⟩, true, false, true,
          [⟨.fieldDefinition, some .other, ⟨9, 9⟩, true, false, true, [missingName]⟩,
            ⟨.other "ERROR", none, ⟨10, 12⟩, true, true, true,
              [⟨.other "formal_parameters", none, ⟨10, 12⟩, true, false, false, []⟩]⟩]⟩]⟩]⟩

theorem missing_name_is_reported :
    namelessMember.FlagsExact ∧ searchStack [namelessMember] = some missingName ∧
      (∃ place, namelessMember.FirstFaultAt place missingName) ∧
      Source.read true "src/app.js" "class A \x7b () ; \x7d" namelessMember =
        .error (.parse "src/app.js" (some ⟨0, 9⟩)) := by
  have exact : namelessMember.FlagsExact := by decide
  obtain ⟨stack, _, found, read⟩ := pruned_search_finds_first_fault exact
  have search : namelessMember.firstFault = some missingName := rfl
  obtain ⟨place, fault, same, first⟩ := found rfl
  cases search.symm.trans same
  refine ⟨exact, stack.trans search, ⟨place, first⟩, ?_⟩
  exact (read _ _ _).mpr ⟨place, missingName, first, rfl⟩

end ScopeGraph
