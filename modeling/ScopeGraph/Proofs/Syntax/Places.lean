import Mathlib.Data.List.Shortlex
import ScopeGraph.Scope.Declaration

/-!
# Places in a syntax tree

Equal nodes may stand at several places of a tree.  A place is the way down from the root: the
position among the children at each step.  Document order is the lexicographic order of places, the
order by depth puts shorter places first.  The two visits of a tree list the same places in these
two orders.
-/
set_option autoImplicit false

namespace ScopeGraph.Syntax

abbrev Place := List Nat

theorem Place.ne_of_lex {first second : Place} (less : List.Lex (· < ·) first second) :
    first ≠ second := by
  rintro rfl
  exact irrefl_of (List.Lex (· < ·)) first less

theorem Place.ne_of_shortlex {first second : Place} (less : List.Shortlex (· < ·) first second) :
    first ≠ second := by
  rintro rfl
  exact irrefl_of (List.Shortlex (· < ·)) first less

namespace Node

theorem induction {motive : Node → Prop}
    (step : ∀ node, (∀ child ∈ node.children, motive child) → motive node) :
    ∀ node, motive node := by
  intro node
  induction size : node.weight using Nat.strongRecOn generalizing node with
  | ind bound ih =>
      apply step
      intro child member
      have smaller : child.weight < bound := by
        have inside := weight_le_of_mem member
        rw [node.weight_mk] at size
        omega
      exact ih child.weight smaller child rfl

/-- What stands at a place. -/
def at? : Place → Node → Option Node
  | [], node => some node
  | i :: place, node => node.children[i]?.bind (at? place)

theorem at?_append (first second : Place) (node : Node) :
    node.at? (first ++ second) = (node.at? first).bind (at? second) := by
  induction first generalizing node with
  | nil => rfl
  | cons i rest ih =>
      simp only [List.cons_append, at?]
      cases node.children[i]? with
      | none => rfl
      | some child => exact ih child

/-! ## Places that are reached

A walk through a tree enters some nodes and follows some of their children. -/

/-- The target stands at a place that leads through children that are followed, all of them in nodes
that are entered. -/
inductive Reaches (enters follows : Node → Bool) : Node → Place → Node → Prop where
  | here (node : Node) : Reaches enters follows node [] node
  | child {node next target : Node} {i : Nat} {place : Place} (entered : enters node)
      (found : node.children[i]? = some next) (followed : follows next)
      (further : Reaches enters follows next place target) :
      Reaches enters follows node (i :: place) target

/-- The target stands at a place that leads through slots only, all of them in nodes that `enters`
lets through. -/
abbrev Leads (enters : Node → Bool) : Node → Place → Node → Prop := Reaches enters isSlot

namespace Reaches

variable {enters follows : Node → Bool} {node target : Node} {place : Place}

theorem nil_iff : Reaches enters follows node [] target ↔ target = node := by
  constructor
  · intro reaches
    cases reaches with
    | here => rfl
  · rintro rfl
    exact .here target

theorem cons_iff {i : Nat} :
    Reaches enters follows node (i :: place) target ↔
      enters node ∧ ∃ next, node.children[i]? = some next ∧ follows next ∧
        Reaches enters follows next place target := by
  constructor
  · intro reaches
    cases reaches with
    | child entered found followed further => exact ⟨entered, _, found, followed, further⟩
  · rintro ⟨entered, next, found, followed, further⟩
    exact .child entered found followed further

theorem at?_eq (reaches : Reaches enters follows node place target) :
    node.at? place = some target := by
  induction reaches with
  | here node => rfl
  | child entered found followed further ih => simp [at?, found, ih]

/-- On the way down to a target every node but the target itself is entered. -/
theorem entered_on_way {middle : Node} {rest : Place}
    (reaches : Reaches enters follows node (place ++ rest) target)
    (proper : rest ≠ []) (stands : node.at? place = some middle) : enters middle := by
  induction place generalizing node with
  | nil =>
      cases stands
      cases rest with
      | nil => exact absurd rfl proper
      | cons i rest => exact (cons_iff.mp reaches).1
  | cons i place ih =>
      obtain ⟨_, next, found, _, further⟩ := cons_iff.mp reaches
      simp only [at?, found, Option.bind_some] at stands
      exact ih further stands

end Reaches

/-- The same item as seen from higher up. -/
def under {α : Type} (outer : Place) (placed : Place × α) : Place × α :=
  (outer ++ placed.1, placed.2)

theorem map_snd_under {α : Type} (outer : Place) (placed : List (Place × α)) :
    (placed.map (under outer)).map Prod.snd = placed.map Prod.snd := by
  simp [under]

section Reached
variable (enters follows : Node → Bool)

mutual

/-- What is reached, in document order, each with its place. -/
def reached : Node → List (Place × Node)
  | ⟨kind, field, span, named, faulty, flagged, children⟩ =>
    let node : Node := ⟨kind, field, span, named, faulty, flagged, children⟩
    ([], node) :: if enters node then reachedBelow 0 children else []

def reachedBelow (i : Nat) : List Node → List (Place × Node)
  | [] => []
  | node :: rest =>
    if follows node then node.reached.map (under [i]) ++ reachedBelow (i + 1) rest
    else reachedBelow (i + 1) rest

end

theorem reached_eq (node : Node) :
    node.reached enters follows =
      ([], node) :: if enters node then reachedBelow enters follows 0 node.children else [] := by
  obtain ⟨⟩ := node
  rfl

theorem mem_reachedBelow (i : Nat) (nodes : List Node) (placed : Place × Node) :
    placed ∈ reachedBelow enters follows i nodes ↔
      ∃ j child, nodes[j]? = some child ∧ follows child ∧
        ∃ below ∈ child.reached enters follows, under [i + j] below = placed := by
  induction nodes generalizing i with
  | nil => simp [reachedBelow]
  | cons node rest ih =>
      have later : placed ∈ reachedBelow enters follows (i + 1) rest ↔
          ∃ j child, (node :: rest)[j + 1]? = some child ∧ follows child ∧
            ∃ below ∈ child.reached enters follows, under [i + (j + 1)] below = placed := by
        simp only [ih, List.getElem?_cons_succ, Nat.add_right_comm i 1, Nat.add_assoc]
      have split : (∃ j child, (node :: rest)[j]? = some child ∧ follows child ∧
            ∃ below ∈ child.reached enters follows, under [i + j] below = placed) ↔
          (follows node ∧ placed ∈ (node.reached enters follows).map (under [i])) ∨
            placed ∈ reachedBelow enters follows (i + 1) rest := by
        rw [later, List.mem_map]
        constructor
        · rintro ⟨_ | j, child, found, followed, below⟩
          · cases found
            exact .inl ⟨followed, below⟩
          · exact .inr ⟨j, child, found, followed, below⟩
        · rintro (⟨followed, below⟩ | ⟨j, child, found, followed, below⟩)
          · exact ⟨0, node, rfl, followed, below⟩
          · exact ⟨j + 1, child, found, followed, below⟩
      rw [split, reachedBelow]
      by_cases followed : follows node <;> simp [followed]

theorem mem_reached (node : Node) (place : Place) (target : Node) :
    (place, target) ∈ node.reached enters follows ↔ Reaches enters follows node place target := by
  induction node using induction generalizing place with
  | step node ih =>
      rw [reached_eq, List.mem_cons]
      cases place with
      | nil =>
          have absent : ([], target) ∉ reachedBelow enters follows 0 node.children := by
            rw [mem_reachedBelow]
            rintro ⟨j, child, _, _, below, _, same⟩
            cases same
          rw [Reaches.nil_iff]
          split <;> simp [absent]
      | cons i place =>
          have inside : (i :: place, target) ∈ reachedBelow enters follows 0 node.children ↔
              ∃ child, node.children[i]? = some child ∧ follows child ∧
                Reaches enters follows child place target := by
            rw [mem_reachedBelow]
            constructor
            · rintro ⟨j, child, found, followed, below, inside, same⟩
              simp only [under, Nat.zero_add, List.singleton_append, Prod.mk.injEq,
                List.cons.injEq] at same
              obtain ⟨⟨rfl, rfl⟩, rfl⟩ := same
              exact ⟨child, found, followed, (ih child (List.mem_of_getElem? found) _).mp inside⟩
            · rintro ⟨child, found, followed, reaches⟩
              have inside := (ih child (List.mem_of_getElem? found) place).mpr reaches
              exact ⟨i, child, found, followed, _, inside, by simp [under]⟩
          rw [Reaches.cons_iff, ← inside]
          split <;> simp [*]

theorem pairwise_reachedBelow_of (nodes : List Node)
    (each : ∀ node ∈ nodes, (node.reached enters follows).Pairwise fun first second =>
      List.Lex (· < ·) first.1 second.1) (i : Nat) :
    (reachedBelow enters follows i nodes).Pairwise fun first second =>
      List.Lex (· < ·) first.1 second.1 := by
  induction nodes generalizing i with
  | nil => exact List.Pairwise.nil
  | cons node rest ih =>
      have later := ih (fun other member => each other (List.mem_cons_of_mem node member)) (i + 1)
      rw [reachedBelow]
      split
      · refine List.pairwise_append.mpr ⟨?_, later, ?_⟩
        · refine List.pairwise_map.mpr ((each node List.mem_cons_self).imp ?_)
          intro first second less
          exact List.Lex.cons less
        · intro first firstMember second secondMember
          obtain ⟨_, _, rfl⟩ := List.mem_map.mp firstMember
          obtain ⟨j, _, _, _, _, _, rfl⟩ :=
            (mem_reachedBelow enters follows (i + 1) rest second).mp secondMember
          have smaller : i < i + 1 + j := by omega
          exact List.Lex.rel smaller
      · exact later

theorem pairwise_reached (node : Node) :
    (node.reached enters follows).Pairwise fun first second =>
      List.Lex (· < ·) first.1 second.1 := by
  induction node using induction with
  | step node ih =>
      have below := pairwise_reachedBelow_of enters follows node.children ih 0
      rw [reached_eq]
      split
      · refine List.pairwise_cons.mpr ⟨?_, below⟩
        intro second member
        obtain ⟨_, _, _, _, _, _, rfl⟩ :=
          (mem_reachedBelow enters follows 0 node.children second).mp member
        exact List.Lex.nil
      · exact List.pairwise_singleton _ _

theorem pairwise_reachedBelow (nodes : List Node) (i : Nat) :
    (reachedBelow enters follows i nodes).Pairwise fun first second =>
      List.Lex (· < ·) first.1 second.1 :=
  pairwise_reachedBelow_of enters follows nodes
    (fun node _ => node.pairwise_reached enters follows) i

end Reached

/-! ## Visits with their places -/

section Visits
variable (enters : Node → Bool)

theorem visit_eq (node : Node) :
    node.visit enters = node :: if enters node then visitSlots enters node.children else [] := by
  obtain ⟨⟩ := node
  rfl

theorem levels_eq (node : Node) :
    node.levels enters =
      [node] :: if enters node then levelsOfSlots enters node.children else [] := by
  obtain ⟨⟩ := node
  rfl

theorem map_snd_reachedBelow (nodes : List Node)
    (each : ∀ node ∈ nodes, (node.reached enters isSlot).map Prod.snd = node.visit enters)
    (i : Nat) :
    (reachedBelow enters isSlot i nodes).map Prod.snd = visitSlots enters nodes := by
  induction nodes generalizing i with
  | nil => rfl
  | cons node rest ih =>
      have later := ih (fun other member => each other (List.mem_cons_of_mem node member)) (i + 1)
      have here := each node List.mem_cons_self
      rw [reachedBelow, visitSlots]
      split
      · rw [List.map_append, map_snd_under, here, later]
      · exact later

theorem map_snd_reached (node : Node) :
    (node.reached enters isSlot).map Prod.snd = node.visit enters := by
  induction node using induction with
  | step node ih =>
      have slots := map_snd_reachedBelow enters node.children ih 0
      rw [reached_eq, visit_eq]
      split
      · rw [List.map_cons, slots]
      · rfl

/-! ## Order by depth -/

theorem getD_beside {α : Type} (first second : List (List α)) (depth : Nat) :
    (beside first second).getD depth [] = first.getD depth [] ++ second.getD depth [] := by
  fun_induction beside first second generalizing depth with
  | case1 levels => simp
  | case2 levels _ => simp
  | case3 level rest level' rest' ih =>
      cases depth with
      | zero => simp
      | succ depth => simpa using ih depth

/-- The places of a certain depth. -/
def placesAt (depth : Nat) (placed : List (Place × Node)) : List (Place × Node) :=
  placed.filter fun place => place.1.length = depth

theorem placesAt_succ_map_under (i depth : Nat) (placed : List (Place × Node)) :
    placesAt (depth + 1) (placed.map (under [i])) = (placesAt depth placed).map (under [i]) := by
  simp only [placesAt, List.filter_map]
  congr 2
  funext place
  simp [under]

theorem getD_levelsOfSlots (nodes : List Node)
    (each : ∀ node ∈ nodes, ∀ depth,
      (node.levels enters).getD depth [] =
        (placesAt depth (node.reached enters isSlot)).map Prod.snd)
    (i depth : Nat) :
    (levelsOfSlots enters nodes).getD depth [] =
      (placesAt (depth + 1) (reachedBelow enters isSlot i nodes)).map Prod.snd := by
  induction nodes generalizing i with
  | nil => simp [levelsOfSlots, reachedBelow, placesAt]
  | cons node rest ih =>
      have later := ih (fun other member => each other (List.mem_cons_of_mem node member)) (i + 1)
      have here := each node List.mem_cons_self depth
      rw [levelsOfSlots, reachedBelow]
      split
      · have parts : placesAt (depth + 1)
              ((node.reached enters isSlot).map (under [i]) ++
                reachedBelow enters isSlot (i + 1) rest) =
            (placesAt depth (node.reached enters isSlot)).map (under [i]) ++
              placesAt (depth + 1) (reachedBelow enters isSlot (i + 1) rest) := by
          rw [← placesAt_succ_map_under]
          exact List.filter_append ..
        rw [getD_beside, here, later, parts, List.map_append, map_snd_under]
      · exact later

/-- A level holds the nodes whose places have its depth. -/
theorem getD_levels (node : Node) (depth : Nat) :
    (node.levels enters).getD depth [] =
      (placesAt depth (node.reached enters isSlot)).map Prod.snd := by
  induction node using induction generalizing depth with
  | step node ih =>
      cases depth with
      | zero =>
          have deeper : placesAt 0 (reachedBelow enters isSlot 0 node.children) = [] := by
            refine List.filter_eq_nil_iff.mpr ?_
            intro placed member
            obtain ⟨_, _, _, _, _, _, rfl⟩ :=
              (mem_reachedBelow enters isSlot 0 node.children placed).mp member
            simp [under]
          have first : placesAt 0 (node.reached enters isSlot) = [([], node)] := by
            rw [reached_eq]
            split
            · exact congrArg (([], node) :: ·) deeper
            · rfl
          rw [levels_eq, first]
          rfl
      | succ depth =>
          have slots := getD_levelsOfSlots enters node.children ih 0 depth
          rw [levels_eq, reached_eq, List.getD_cons_succ]
          split
          · exact slots
          · rfl

/-- The nodes of `byDepth`, each with its place. -/
def placesByDepth (node : Node) : List (Place × Node) :=
  (List.range (node.levels enters).length).flatMap fun depth =>
    placesAt depth (node.reached enters isSlot)

theorem flatten_eq_flatMap_range {α : Type} (lists : List (List α)) :
    lists.flatten = (List.range lists.length).flatMap fun i => lists.getD i [] := by
  have listed : lists = (List.range lists.length).map fun i => lists.getD i [] := by
    apply List.ext_getElem
    · simp
    · intro i left right
      simp [left]
  conv_lhs => rw [listed]
  rw [List.flatMap_def]

theorem map_snd_placesByDepth (node : Node) :
    (node.placesByDepth enters).map Prod.snd = node.byDepth enters := by
  rw [byDepth, flatten_eq_flatMap_range, placesByDepth, List.map_flatMap]
  simp only [getD_levels]

theorem mem_placesByDepth (node : Node) (placed : Place × Node) :
    placed ∈ node.placesByDepth enters ↔ placed ∈ node.reached enters isSlot := by
  simp only [placesByDepth, placesAt, List.mem_flatMap, List.mem_range, List.mem_filter,
    decide_eq_true_eq]
  constructor
  · rintro ⟨_, _, member, _⟩
    exact member
  · intro member
    refine ⟨_, ?_, member, rfl⟩
    -- A depth beyond the levels would be that of an empty level.
    refine Decidable.byContradiction fun beyond => ?_
    have level := getD_levels enters node placed.1.length
    rw [List.getD_eq_getElem?_getD, List.getElem?_eq_none (Nat.le_of_not_lt beyond)] at level
    have inside : placed ∈ placesAt placed.1.length (node.reached enters isSlot) :=
      List.mem_filter.mpr ⟨member, decide_eq_true rfl⟩
    rw [List.map_eq_nil_iff.mp level.symm] at inside
    cases inside

theorem pairwise_placesByDepth (node : Node) :
    (node.placesByDepth enters).Pairwise fun first second =>
      List.Shortlex (· < ·) first.1 second.1 := by
  refine List.pairwise_flatMap.mpr ⟨?_, ?_⟩
  · intro depth _
    refine List.Pairwise.imp_of_mem ?_ ((pairwise_reached enters isSlot node).filter _)
    intro first second firstMember secondMember less
    have left := of_decide_eq_true (List.mem_filter.mp firstMember).2
    have right := of_decide_eq_true (List.mem_filter.mp secondMember).2
    exact List.Shortlex.of_lex (left.trans right.symm) less
  · refine List.pairwise_lt_range.imp ?_
    intro depth deeper less first firstMember second secondMember
    have left := of_decide_eq_true (List.mem_filter.mp firstMember).2
    have right := of_decide_eq_true (List.mem_filter.mp secondMember).2
    exact List.Shortlex.of_length_lt (by omega)

end Visits

/-! ## The next scopes -/

/-- The scopes at or below a node that no other scope encloses, each at its place. -/
def Frontier (root : Node) (place : Place) (node : Node) : Prop :=
  Leads isOpen root place node ∧ node.isScope

/-- No scope of the frontier lies below another one. -/
theorem Frontier.eq_of_above {root outer inner : Node} {place further : Place}
    (first : root.Frontier place outer) (second : root.Frontier further inner)
    (above : place <+: further) : place = further := by
  obtain ⟨rest, rfl⟩ := above
  refine Decidable.byContradiction fun differ => ?_
  have proper : rest ≠ [] := fun empty => differ (by rw [empty, List.append_nil])
  have entered := second.1.entered_on_way proper first.1.at?_eq
  have closed := first.2
  simp [isOpen, closed] at entered

def scopePlaces (root : Node) : List (Place × Node) :=
  (root.reached isOpen isSlot).filter fun placed => placed.2.isScope

def scopePlacesByDepth (root : Node) : List (Place × Node) :=
  (root.placesByDepth isOpen).filter fun placed => placed.2.isScope

theorem map_snd_scopePlaces (root : Node) :
    root.scopePlaces.map Prod.snd = root.scopesInOrder := by
  rw [scopesInOrder, ← map_snd_reached, List.filter_map]
  rfl

theorem map_snd_scopePlacesByDepth (root : Node) :
    root.scopePlacesByDepth.map Prod.snd = root.scopesByDepth := by
  rw [scopesByDepth, ← map_snd_placesByDepth, List.filter_map]
  rfl

theorem mem_scopePlaces (root : Node) (place : Place) (node : Node) :
    (place, node) ∈ root.scopePlaces ↔ root.Frontier place node := by
  rw [scopePlaces, List.mem_filter, mem_reached]
  rfl

theorem mem_scopePlacesByDepth (root : Node) (place : Place) (node : Node) :
    (place, node) ∈ root.scopePlacesByDepth ↔ root.Frontier place node := by
  rw [scopePlacesByDepth, List.mem_filter, mem_placesByDepth, mem_reached]
  rfl

theorem pairwise_scopePlaces (root : Node) :
    root.scopePlaces.Pairwise fun first second => List.Lex (· < ·) first.1 second.1 :=
  (pairwise_reached isOpen isSlot root).filter _

theorem pairwise_scopePlacesByDepth (root : Node) :
    root.scopePlacesByDepth.Pairwise fun first second =>
      List.Shortlex (· < ·) first.1 second.1 :=
  (pairwise_placesByDepth isOpen root).filter _

end Node
end ScopeGraph.Syntax
