import ScopeGraph.Proofs.Syntax.Places

/-!
# Worklists

A tree can be visited by a loop that takes a node from a list, acts on it and puts its slots into
the list.  If they are put at the end, the nodes come by depth; if they are put in front, they come
in document order.
-/
set_option autoImplicit false

namespace ScopeGraph.Syntax.Node

variable {σ : Type} (enters : Node → Bool) (act : σ → Node → σ)

theorem weightAll_slots_lt (node : Node) : weightAll node.slots < node.weight := by
  have kept := weightAll_filter_le isSlot node.children
  rw [slots, node.weight_mk]
  omega

/-- What a node puts into the list. -/
def found (node : Node) : List Node := if enters node then node.slots else []

theorem weightAll_found_lt (node : Node) : weightAll (found enters node) < node.weight := by
  have slots := node.weightAll_slots_lt
  have positive := node.weight_pos
  unfold found
  split
  · exact slots
  · exact positive

/-- First in, first out. -/
def drainQueue : List Node → σ → σ
  | [], state => state
  | node :: rest, state => drainQueue (rest ++ found enters node) (act state node)
termination_by queue => weightAll queue
decreasing_by
  have less := weightAll_found_lt enters node
  simp only [weightAll_append, weightAll]
  omega

/-- Last in, first out. -/
def drainStack : List Node → σ → σ
  | [], state => state
  | node :: rest, state => drainStack (found enters node ++ rest) (act state node)
termination_by stack => weightAll stack
decreasing_by
  have less := weightAll_found_lt enters node
  simp only [weightAll_append, weightAll]
  omega

/-! ## The stack follows the document -/

theorem visitSlots_eq_flatMap (nodes : List Node) :
    visitSlots enters nodes = (nodes.filter isSlot).flatMap (visit enters) := by
  induction nodes with
  | nil => rfl
  | cons node rest ih =>
      rw [visitSlots]
      by_cases isSlot : node.isSlot <;> simp [isSlot, ih]

theorem visit_eq_found (node : Node) :
    node.visit enters = node :: (found enters node).flatMap (visit enters) := by
  rw [visit_eq, visitSlots_eq_flatMap, found]
  split <;> rfl

theorem drainStack_eq (stack : List Node) (state : σ) :
    drainStack enters act stack state = (stack.flatMap (visit enters)).foldl act state := by
  fun_induction drainStack enters act stack state with
  | case1 state => rfl
  | case2 node rest state ih =>
      rw [ih, List.flatMap_append, List.flatMap_cons, visit_eq_found, List.cons_append,
        List.foldl_cons]

/-! ## The queue goes by depth -/

/-- The levels of several trees side by side. -/
def levelsAll (nodes : List Node) : List (List Node) :=
  nodes.foldr (fun node => beside (node.levels enters)) []

theorem beside_nil {α : Type} (levels : List (List α)) : beside levels [] = levels := by
  cases levels <;> rfl

theorem beside_cons {α : Type} (level : List α) (rest levels : List (List α)) :
    beside (level :: rest) levels = (level ++ levels.headD []) :: beside rest levels.tail := by
  cases levels with
  | nil => simp [beside, beside_nil]
  | cons => rfl

theorem beside_assoc {α : Type} (first second third : List (List α)) :
    beside (beside first second) third = beside first (beside second third) := by
  induction first generalizing second third with
  | nil => rfl
  | cons level rest ih =>
      cases second with
      | nil => rfl
      | cons =>
          cases third with
          | nil => simp [beside_nil]
          | cons => simp [beside, ih]

theorem levelsAll_append (first second : List Node) :
    levelsAll enters (first ++ second) =
      beside (levelsAll enters first) (levelsAll enters second) := by
  induction first with
  | nil => rfl
  | cons node rest ih =>
      simp only [levelsAll, List.cons_append, List.foldr_cons, beside_assoc] at ih ⊢
      rw [ih]

theorem levelsOfSlots_eq_levelsAll (nodes : List Node) :
    levelsOfSlots enters nodes = levelsAll enters (nodes.filter isSlot) := by
  induction nodes with
  | nil => rfl
  | cons node rest ih =>
      rw [levelsOfSlots]
      by_cases isSlot : node.isSlot <;> simp [isSlot, ih, levelsAll]

theorem levels_eq_found (node : Node) :
    node.levels enters = [node] :: levelsAll enters (found enters node) := by
  rw [levels_eq, levelsOfSlots_eq_levelsAll, found]
  split <;> rfl

/-- A queue holds what is left of a level and, behind it, what has been found of the next one. -/
def queueLevels (now next : List Node) : List (List Node) :=
  beside ([] :: levelsAll enters next) (levelsAll enters now)

theorem flatten_queueLevels_turn (next : List Node) :
    (queueLevels enters [] next).flatten = (queueLevels enters next []).flatten := by
  have later : (queueLevels enters [] next) = [] :: levelsAll enters next := beside_nil _
  have now : queueLevels enters next [] =
      (levelsAll enters next).headD [] :: (levelsAll enters next).tail := by
    rw [queueLevels, beside_cons]
    rfl
  rw [later, now]
  cases levelsAll enters next <;> rfl

theorem flatten_queueLevels_step (node : Node) (rest next : List Node) :
    (queueLevels enters (node :: rest) next).flatten =
      node :: (queueLevels enters rest (next ++ found enters node)).flatten := by
  have level : levelsAll enters (node :: rest) =
      ([node] ++ (levelsAll enters rest).headD []) ::
        beside (levelsAll enters (found enters node)) (levelsAll enters rest).tail := by
    rw [← beside_cons, ← levels_eq_found]
    rfl
  rw [queueLevels, queueLevels, level, beside_cons, beside_cons, levelsAll_append, beside_assoc]
  rfl

theorem drainQueue_append (now next : List Node) (state : σ) :
    drainQueue enters act (now ++ next) state =
      (queueLevels enters now next).flatten.foldl act state := by
  match now, next with
  | [], [] =>
      rw [List.append_nil, drainQueue]
      rfl
  | [], node :: rest =>
      -- The level is done, and the next one takes its place.
      have turn := drainQueue_append (node :: rest) [] state
      rw [List.append_nil] at turn
      rw [List.nil_append, turn, flatten_queueLevels_turn]
  | node :: rest, next =>
      have later := drainQueue_append rest (next ++ found enters node) (act state node)
      rw [List.cons_append, drainQueue, List.append_assoc, later, flatten_queueLevels_step,
        List.foldl_cons]
termination_by (weightAll (now ++ next), next.length)
decreasing_by
  · simp only [List.append_nil, List.nil_append, List.length_nil, List.length_cons]
    exact Prod.Lex.right _ (Nat.succ_pos _)
  · have less := weightAll_found_lt enters node
    apply Prod.Lex.left
    simp only [weightAll_append, weightAll]
    omega

theorem drainQueue_root (root : Node) (state : σ) :
    drainQueue enters act [root] state = (root.byDepth enters).foldl act state := by
  have queue := drainQueue_append enters act [] [root] state
  have levels : queueLevels enters [] [root] = [] :: root.levels enters := by
    rw [queueLevels, levelsAll, List.foldr_cons, List.foldr_nil, beside_nil]
    exact beside_nil _
  rw [List.nil_append, levels] at queue
  exact queue

theorem drainStack_root (root : Node) (state : σ) :
    drainStack enters act [root] state = (root.visit enters).foldl act state := by
  rw [drainStack_eq, List.flatMap_singleton]

end ScopeGraph.Syntax.Node
