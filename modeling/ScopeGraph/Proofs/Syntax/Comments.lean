import ScopeGraph.Proofs.Syntax.Places
import ScopeGraph.Syntax.Comment

/-!
# The comments of a tree

Comments are found through named children, and nothing is looked for inside of a comment.  The list
of comments has each of them once and is sorted by where they start.
-/
set_option autoImplicit false

namespace ScopeGraph.Syntax

namespace Node

/-- A comment stands at a place that leads through named children, and no node above it is a
comment. -/
def CommentAt (root : Node) (place : Place) (node : Node) : Prop :=
  root.Reaches (fun above => above.kind ≠ .comment) (·.named) place node ∧ node.kind = .comment

/-- The nodes of `commentNodes`, each with its place. -/
def commentPlaces (root : Node) : List (Place × Node) :=
  (root.reached (fun above => above.kind ≠ .comment) (·.named)).filter fun placed =>
    placed.2.kind = .comment

theorem mem_commentPlaces (root : Node) (place : Place) (node : Node) :
    (place, node) ∈ root.commentPlaces ↔ root.CommentAt place node := by
  rw [commentPlaces, List.mem_filter, mem_reached, decide_eq_true_eq, CommentAt]

theorem nodup_places_commentPlaces (root : Node) : (root.commentPlaces.map Prod.fst).Nodup :=
  List.pairwise_map.mpr (((pairwise_reached _ _ root).filter _).imp Place.ne_of_lex)

theorem commentNodes_eq (node : Node) :
    node.commentNodes =
      if node.kind = .comment then [node] else commentNodesAll node.children := by
  obtain ⟨⟩ := node
  rfl

theorem map_snd_reachedBelow_comments (nodes : List Node)
    (each : ∀ node ∈ nodes, node.commentPlaces.map Prod.snd = node.commentNodes) (i : Nat) :
    ((reachedBelow (fun above => above.kind ≠ .comment) (·.named) i nodes).filter fun placed =>
      placed.2.kind = .comment).map Prod.snd = commentNodesAll nodes := by
  induction nodes generalizing i with
  | nil => rfl
  | cons node rest ih =>
      have later := ih (fun other member => each other (List.mem_cons_of_mem node member)) (i + 1)
      have here := each node List.mem_cons_self
      rw [reachedBelow, commentNodesAll]
      split
      · rw [List.filter_append, List.map_append, later, ← here, commentPlaces, List.filter_map,
          map_snd_under]
        rfl
      · exact later

theorem map_snd_commentPlaces (node : Node) :
    node.commentPlaces.map Prod.snd = node.commentNodes := by
  induction node using induction with
  | step node ih =>
      have below := map_snd_reachedBelow_comments node.children ih 0
      rw [commentPlaces, reached_eq, commentNodes_eq]
      by_cases isComment : node.kind = .comment
      · simp [isComment]
      · simp only [isComment, List.filter_cons, decide_false, ne_eq, not_false_eq_true, decide_true,
          if_true, if_false, Bool.false_eq_true]
        exact below

/-! ## Trees in which no comment is hidden -/

mutual

/-- Comments are named, and neither a comment nor a node without a name has parts. -/
def plainTokens : Node → Bool
  | ⟨kind, _, _, named, _, _, children⟩ =>
    (kind ≠ .comment || named) && (kind ≠ .comment && named || children.isEmpty) &&
      plainTokensAll children

def plainTokensAll : List Node → Bool
  | [] => true
  | node :: rest => node.plainTokens && plainTokensAll rest

end

theorem plainTokensAll_iff (nodes : List Node) :
    plainTokensAll nodes ↔ ∀ node ∈ nodes, node.plainTokens := by
  induction nodes with
  | nil => simp [plainTokensAll]
  | cons node rest ih => simp [plainTokensAll, ih]

theorem plainTokens_iff (node : Node) :
    node.plainTokens ↔
      (node.kind ≠ .comment ∨ node.named) ∧
        (node.kind ≠ .comment ∧ node.named ∨ node.children = []) ∧
        ∀ child ∈ node.children, child.plainTokens := by
  obtain ⟨kind, field, span, named, faulty, flagged, children⟩ := node
  simp only [plainTokens, Bool.and_eq_true, Bool.or_eq_true, decide_eq_true_eq,
    List.isEmpty_iff, plainTokensAll_iff, and_assoc]

theorem entered_of_child {node child : Node} {i : Nat} (plain : node.plainTokens)
    (found : node.children[i]? = some child) : node.kind ≠ .comment ∧ node.named := by
  rcases ((node.plainTokens_iff).mp plain).2.1 with entered | leaf
  · exact entered
  · rw [leaf] at found
    cases found

/-- In such a tree the way to a comment is always through named children. -/
theorem commentAt_iff_of_plainTokens {root : Node} (plain : root.plainTokens) (place : Place)
    (comment : Node) :
    root.CommentAt place comment ↔ root.at? place = some comment ∧ comment.kind = .comment := by
  induction place generalizing root with
  | nil => simp only [CommentAt, Reaches.nil_iff, at?, Option.some.injEq, eq_comm]
  | cons i place ih =>
      have inside : ∀ next, root.children[i]? = some next → next.plainTokens := fun next found =>
        ((root.plainTokens_iff).mp plain).2.2 next (List.mem_of_getElem? found)
      simp only [CommentAt, Reaches.cons_iff, decide_eq_true_eq, at?, Option.bind_eq_some_iff]
        at ih ⊢
      constructor
      · rintro ⟨⟨_, next, found, _, further⟩, isComment⟩
        obtain ⟨stands, _⟩ := (ih (inside next found)).mp ⟨further, isComment⟩
        exact ⟨⟨next, found, stands⟩, isComment⟩
      · rintro ⟨⟨next, found, stands⟩, isComment⟩
        obtain ⟨further, _⟩ := (ih (inside next found)).mpr ⟨stands, isComment⟩
        have entered := entered_of_child plain found
        refine ⟨⟨entered.1, next, found, ?_, further⟩, isComment⟩
        -- The next node is the comment itself, or it has a part.
        cases place with
        | nil =>
            cases stands
            rcases ((comment.plainTokens_iff).mp (inside comment found)).1 with noComment | named
            · exact absurd isComment noComment
            · exact named
        | cons j place =>
            obtain ⟨_, part, _⟩ := Option.bind_eq_some_iff.mp stands
            exact (entered_of_child (inside next found) part).2

end Node

/-! ## Sorting -/

namespace Comment

theorem insert_perm (comment : Comment) (comments : List Comment) :
    (insert comment comments).Perm (comment :: comments) := by
  induction comments with
  | nil => exact List.Perm.refl _
  | cons head rest ih =>
      rw [insert]
      split
      · exact List.Perm.refl _
      · exact (ih.cons head).trans (List.Perm.swap comment head rest)

/-- Sorted by where they start. -/
def Sorted (comments : List Comment) : Prop :=
  comments.Pairwise fun first second => first.span.start ≤ second.span.start

theorem sorted_insert (comment : Comment) {comments : List Comment} (sorted : Sorted comments) :
    Sorted (insert comment comments) := by
  induction comments with
  | nil => exact List.pairwise_singleton _ _
  | cons head rest ih =>
      obtain ⟨first, restSorted⟩ := List.pairwise_cons.mp sorted
      rw [insert]
      split
      · next less =>
          refine List.pairwise_cons.mpr ⟨?_, sorted⟩
          intro other member
          rcases List.mem_cons.mp member with rfl | later
          · omega
          · have := first other later
            omega
      · next notLess =>
          refine List.pairwise_cons.mpr ⟨?_, ih restSorted⟩
          intro other member
          rcases List.mem_cons.mp ((insert_perm comment rest).subset member) with rfl | later
          · omega
          · exact first other later

theorem foldl_insert (comments : List Comment) {sorted : List Comment} (isSorted : Sorted sorted) :
    (comments.foldl (fun sorted comment => insert comment sorted) sorted).Perm
        (comments ++ sorted) ∧
      Sorted (comments.foldl (fun sorted comment => insert comment sorted) sorted) := by
  induction comments generalizing sorted with
  | nil => exact ⟨List.Perm.refl _, isSorted⟩
  | cons comment rest ih =>
      obtain ⟨perm, stillSorted⟩ := ih (sorted_insert comment isSorted)
      refine ⟨perm.trans ?_, stillSorted⟩
      exact ((insert_perm comment sorted).append_left rest).trans List.perm_middle

theorem sortByStart_perm (comments : List Comment) : (sortByStart comments).Perm comments := by
  have perm := (foldl_insert comments List.Pairwise.nil).1
  rw [List.append_nil] at perm
  exact perm

theorem sorted_sortByStart (comments : List Comment) : Sorted (sortByStart comments) :=
  (foldl_insert comments List.Pairwise.nil).2

end Comment

theorem Node.sorted_comments (text : String) (root : Node) : Comment.Sorted (root.comments text) :=
  Comment.sorted_sortByStart _

theorem Node.comments_perm (text : String) (root : Node) :
    (root.comments text).Perm
      (root.commentPlaces.map fun placed => Comment.ofNode text placed.2) := by
  have nodes : root.commentPlaces.map (fun placed => Comment.ofNode text placed.2) =
      root.commentNodes.map (Comment.ofNode text) := by
    rw [← map_snd_commentPlaces, List.map_map]
    rfl
  rw [nodes]
  exact Comment.sortByStart_perm _

end ScopeGraph.Syntax
