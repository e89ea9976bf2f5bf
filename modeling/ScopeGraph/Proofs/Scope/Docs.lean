import Mathlib.Data.List.Induction
import Mathlib.Data.List.TakeWhile
import ScopeGraph.Proofs.Syntax.Comments
import ScopeGraph.Proofs.Text.Slice
import ScopeGraph.Scope.Docs
import ScopeGraph.Source

/-!
# The doc comment above a node

A doc comment is not empty, so one that ends no later than a node starts before it.  The comments
are sorted by where they start; those that start before the node are at the front of the list, and
halving finds where they end.  The last of them that ends last is the doc comment nearest to the
node, and no doc comment of the tree ends between the two.
-/
set_option autoImplicit false

namespace ScopeGraph

open Syntax

/-! ## Halving -/

section Halving
variable {α : Type} (holds : α → Bool) (items : List α)

/-- Halves the range from `low` to `high` down to the end of the items in front that `holds` is true
of. -/
def partitionPoint (low high : Nat) : Nat :=
  if low < high then
    match items[(low + high) / 2]? with
    | some middle =>
      if holds middle then partitionPoint ((low + high) / 2 + 1) high
      else partitionPoint low ((low + high) / 2)
    | none => low
  else low
termination_by high - low

variable {holds items} (divided : ∀ item ∈ items.dropWhile holds, holds item = false)
include divided

theorem holds_iff_lt_length_takeWhile {i : Nat} {item : α} (found : items[i]? = some item) :
    holds item ↔ i < (items.takeWhile holds).length := by
  rw [← List.takeWhile_append_dropWhile (p := holds) (l := items)] at found
  constructor
  · intro isHeld
    refine Decidable.byContradiction fun beyond => ?_
    rw [List.getElem?_append_right (Nat.le_of_not_lt beyond)] at found
    rw [divided item (List.mem_of_getElem? found)] at isHeld
    cases isHeld
  · intro inFront
    rw [List.getElem?_append_left inFront] at found
    exact List.mem_takeWhile_imp (List.mem_of_getElem? found)

/-- The end of the items in front stays in the range. -/
theorem partitionPoint_eq {low high : Nat} (notBelow : low ≤ (items.takeWhile holds).length)
    (notAbove : (items.takeWhile holds).length ≤ high) (inside : high ≤ items.length) :
    partitionPoint holds items low high = (items.takeWhile holds).length := by
  fun_induction partitionPoint holds items low high with
  | case1 low high less middle found isHeld ih =>
      have before := (holds_iff_lt_length_takeWhile divided found).mp isHeld
      exact ih before notAbove inside
  | case2 low high less middle found isNotHeld ih =>
      have behind := (holds_iff_lt_length_takeWhile divided found).not.mp isNotHeld
      exact ih notBelow (Nat.le_of_not_lt behind) (by omega)
  | case3 low high less missing =>
      have beyond := List.getElem?_eq_none_iff.mp missing
      omega
  | case4 low high done => omega

end Halving

/-! ## The comments in front -/

namespace Syntax.Comment

theorem start_ge_of_mem_dropWhile {comments : List Comment} {comment : Comment} {bound : Nat}
    (sorted : Sorted comments) (member : comment ∈ comments.dropWhile (·.span.start < bound)) :
    bound ≤ comment.span.start := by
  induction comments with
  | nil => cases member
  | cons head rest ih =>
      obtain ⟨first, restSorted⟩ := List.pairwise_cons.mp sorted
      by_cases before : head.span.start < bound
      · rw [List.dropWhile_cons_of_pos (by simpa using before)] at member
        exact ih restSorted member
      · rw [List.dropWhile_cons_of_neg (by simpa using before)] at member
        rcases List.mem_cons.mp member with rfl | later
        · omega
        · have := first comment later
          omega

theorem isDoc_iff (comment : Comment) :
    comment.isDoc ↔ comment.kind = .block ∧ comment.value.toList.head? = some '*' := by
  simp [isDoc]

theorem text_ne_empty_of_isDoc {comment : Comment} (isDoc : comment.isDoc) :
    comment.text ≠ "" := by
  intro empty
  simp [Comment.isDoc, kind, empty, after?] at isDoc

/-- A comment is determined by the span of its node. -/
theorem ofNode_congr (text : String) {first second : Node} (same : first.span = second.span) :
    ofNode text first = ofNode text second := by
  simp only [ofNode, Node.text, same]

end Syntax.Comment

/-- The doc comments that end no later than `start`. -/
def docsBefore (comments : List Comment) (start : Nat) : List Comment :=
  comments.filter fun comment => comment.isDoc && comment.span.stop ≤ start

/-- The look-up of `nearestDoc?` where halving finds the end of the comments that start before
`start`. -/
def nearestDocByHalving? (comments : List Comment) (start : Nat) : Option Comment :=
  let preceding := comments.take
    (partitionPoint (fun comment : Comment => comment.span.start < start) comments 0
      comments.length)
  (docsBefore preceding start).foldl laterEnd none

theorem nearestDocByHalving?_eq {comments : List Comment} (sorted : Comment.Sorted comments)
    (start : Nat) : nearestDocByHalving? comments start = nearestDoc? comments start := by
  have divided : ∀ comment ∈ comments.dropWhile (·.span.start < start),
      decide (comment.span.start < start) = false := by
    intro comment member
    have behind := Comment.start_ge_of_mem_dropWhile sorted member
    simpa using behind
  have front := List.takeWhile_prefix (l := comments) fun comment : Comment =>
    decide (comment.span.start < start)
  have found := partitionPoint_eq divided (Nat.zero_le _) front.length_le (Nat.le_refl _)
  rw [nearestDocByHalving?, found, ← List.prefix_iff_eq_take.mp front, nearestDoc?, docsBefore]

/-- Comments that are not in front do not end in time, so those in front are enough. -/
theorem nearestDoc?_eq {comments : List Comment} (sorted : Comment.Sorted comments)
    (filled : ∀ comment ∈ comments, comment.isDoc → comment.span.start < comment.span.stop)
    (start : Nat) :
    nearestDoc? comments start = (docsBefore comments start).foldl laterEnd none := by
  have behind : docsBefore (comments.dropWhile (·.span.start < start)) start = [] := by
    refine List.filter_eq_nil_iff.mpr ?_
    intro comment member chosen
    rw [Bool.and_eq_true, decide_eq_true_eq] at chosen
    have later := Comment.start_ge_of_mem_dropWhile sorted member
    have shorter := filled comment (List.dropWhile_suffix _ |>.subset member) chosen.1
    omega
  have parts : docsBefore comments start =
      docsBefore (comments.takeWhile (·.span.start < start)) start ++
        docsBefore (comments.dropWhile (·.span.start < start)) start := by
    rw [docsBefore, docsBefore, docsBefore, ← List.filter_append, List.takeWhile_append_dropWhile]
  rw [parts, behind, List.append_nil]
  rfl

/-! ## The latest comment -/

/-- The comment is the last one of those that end last. -/
def IsLatest (comments : List Comment) (comment : Comment) : Prop :=
  ∃ before after, comments = before ++ comment :: after ∧
    (∀ other ∈ before, other.span.stop ≤ comment.span.stop) ∧
    ∀ other ∈ after, other.span.stop < comment.span.stop

theorem isLatest_concat_self {comments : List Comment} {comment : Comment}
    (latest : ∀ other ∈ comments, other.span.stop ≤ comment.span.stop) :
    IsLatest (comments ++ [comment]) comment :=
  ⟨comments, [], rfl, latest, fun _ member => absurd member List.not_mem_nil⟩

theorem IsLatest.mem {comments : List Comment} {held : Comment} (latest : IsLatest comments held) :
    held ∈ comments := by
  obtain ⟨before, after, rfl, _⟩ := latest
  simp

theorem IsLatest.stop_le {comments : List Comment} {held : Comment}
    (latest : IsLatest comments held) :
    ∀ other ∈ comments, other.span.stop ≤ held.span.stop := by
  obtain ⟨before, after, rfl, front, back⟩ := latest
  intro other member
  rcases List.mem_append.mp member with inFront | member
  · exact front other inFront
  · rcases List.mem_cons.mp member with rfl | inBack
    · exact Nat.le_refl _
    · exact Nat.le_of_lt (back other inBack)

theorem IsLatest.concat {comments : List Comment} {held comment : Comment}
    (latest : IsLatest comments held) (earlier : comment.span.stop < held.span.stop) :
    IsLatest (comments ++ [comment]) held := by
  obtain ⟨before, after, rfl, front, back⟩ := latest
  refine ⟨before, after ++ [comment], by simp, front, ?_⟩
  intro other member
  rcases List.mem_append.mp member with inBack | last
  · exact back other inBack
  · rw [List.mem_singleton.mp last]
    exact earlier

/-- The fold holds the latest of the comments it has seen. -/
theorem foldl_laterEnd (comments : List Comment) :
    (comments = [] ∧ comments.foldl laterEnd none = none) ∨
      ∃ held, IsLatest comments held ∧ comments.foldl laterEnd none = some held := by
  induction comments using List.reverseRecOn with
  | nil => exact .inl ⟨rfl, rfl⟩
  | append_singleton comments comment ih =>
      refine .inr ?_
      rw [List.foldl_concat]
      rcases ih with ⟨rfl, nothing⟩ | ⟨held, latest, found⟩
      · rw [nothing]
        exact ⟨comment, isLatest_concat_self (fun _ member => absurd member List.not_mem_nil), rfl⟩
      · rw [found, laterEnd]
        by_cases later : held.span.stop ≤ comment.span.stop
        · refine ⟨comment, isLatest_concat_self ?_, if_pos later⟩
          intro other member
          exact Nat.le_trans (latest.stop_le other member) later
        · exact ⟨held, latest.concat (Nat.lt_of_not_le later), if_neg later⟩

theorem IsLatest.start_le {comments : List Comment} {held other : Comment}
    (latest : IsLatest comments held) (sorted : Comment.Sorted comments)
    (member : other ∈ comments) (same : other.span.stop = held.span.stop) :
    other.span.start ≤ held.span.start := by
  obtain ⟨before, after, rfl, _, back⟩ := latest
  rcases List.mem_append.mp member with inFront | member
  · exact (List.pairwise_append.mp sorted).2.2 other inFront held List.mem_cons_self
  · rcases List.mem_cons.mp member with rfl | inBack
    · exact Nat.le_refl _
    · have := back other inBack
      omega

/-! ## The rule -/

namespace Syntax.Node

/-- A block comment of the tree whose value starts with a star and that ends no later than
`start`. -/
structure DocBefore (root : Node) (text : String) (start : Nat) (comment : Node) : Prop where
  stands : ∃ place, root.CommentAt place comment
  block : (Comment.ofNode text comment).kind = .block
  starred : (Comment.ofNode text comment).value.toList.head? = some '*'
  ends : comment.span.stop ≤ start

/-- Of these comments the one that ends last.  If comments overlap and several end there, it is the
shortest of them. -/
structure NearestDoc (root : Node) (text : String) (start : Nat) (comment : Node) : Prop where
  before : root.DocBefore text start comment
  greatest : ∀ other, root.DocBefore text start other → other.span.stop ≤ comment.span.stop
  shortest : ∀ other, root.DocBefore text start other → other.span.stop = comment.span.stop →
    other.span.start ≤ comment.span.start

theorem NearestDoc.span_eq {root : Node} {text : String} {start : Nat} {first second : Node}
    (left : root.NearestDoc text start first) (right : root.NearestDoc text start second) :
    first.span = second.span := by
  have stops : first.span.stop = second.span.stop :=
    Nat.le_antisymm (right.greatest first left.before) (left.greatest second right.before)
  have starts : first.span.start = second.span.start :=
    Nat.le_antisymm (right.shortest first left.before stops)
      (left.shortest second right.before stops.symm)
  exact congrArg₂ Span.mk starts stops

variable (root : Node) (text : String)

theorem mem_comments (comment : Comment) :
    comment ∈ root.comments text ↔
      ∃ node, (∃ place, root.CommentAt place node) ∧ comment = Comment.ofNode text node := by
  rw [(root.comments_perm text).mem_iff, List.mem_map]
  constructor
  · rintro ⟨⟨place, node⟩, member, rfl⟩
    exact ⟨node, ⟨place, (root.mem_commentPlaces place node).mp member⟩, rfl⟩
  · rintro ⟨node, ⟨place, stands⟩, rfl⟩
    exact ⟨(place, node), (root.mem_commentPlaces place node).mpr stands, rfl⟩

theorem mem_docsBefore_comments (start : Nat) (comment : Comment) :
    comment ∈ docsBefore (root.comments text) start ↔
      ∃ node, root.DocBefore text start node ∧ comment = Comment.ofNode text node := by
  simp only [docsBefore, List.mem_filter, mem_comments, Bool.and_eq_true, Comment.isDoc_iff,
    decide_eq_true_eq]
  constructor
  · rintro ⟨⟨node, stands, rfl⟩, ⟨block, starred⟩, ends⟩
    exact ⟨node, ⟨stands, block, starred, ends⟩, rfl⟩
  · rintro ⟨node, ⟨stands, block, starred, ends⟩, rfl⟩
    exact ⟨⟨node, stands, rfl⟩, ⟨block, starred⟩, ends⟩

theorem nearestDoc?_comments (start : Nat) :
    nearestDoc? (root.comments text) start =
      (docsBefore (root.comments text) start).foldl laterEnd none := by
  refine nearestDoc?_eq (root.sorted_comments text) ?_ start
  intro comment member isDoc
  obtain ⟨node, _, rfl⟩ := (root.mem_comments text comment).mp member
  exact Text.start_lt_stop_of_slice_ne (Comment.text_ne_empty_of_isDoc isDoc)

theorem sorted_docsBefore (start : Nat) :
    Comment.Sorted (docsBefore (root.comments text) start) :=
  (root.sorted_comments text).filter _

/-- What the look-up finds is the nearest doc comment, and it finds one if there is one. -/
theorem nearestDoc?_eq_some_iff (start : Nat) (comment : Comment) :
    nearestDoc? (root.comments text) start = some comment ↔
      ∃ node, root.NearestDoc text start node ∧ comment = Comment.ofNode text node := by
  have listed : ∀ {node}, root.DocBefore text start node →
      Comment.ofNode text node ∈ docsBefore (root.comments text) start :=
    fun {node} before => (root.mem_docsBefore_comments text start _).mpr ⟨node, before, rfl⟩
  have sorted := root.sorted_docsBefore text start
  rw [nearestDoc?_comments]
  rcases foldl_laterEnd (docsBefore (root.comments text) start) with
    ⟨empty, nothing⟩ | ⟨held, latest, found⟩
  · rw [nothing]
    constructor
    · intro attached
      cases attached
    · rintro ⟨node, nearest, _⟩
      have member := listed nearest.before
      rw [empty] at member
      cases member
  · obtain ⟨node, before, rfl⟩ :=
      (root.mem_docsBefore_comments text start held).mp latest.mem
    have nearest : root.NearestDoc text start node := by
      refine ⟨before, ?_, ?_⟩
      · intro other otherBefore
        exact latest.stop_le _ (listed otherBefore)
      · intro other otherBefore same
        exact latest.start_le sorted (listed otherBefore) same
    rw [found, Option.some.injEq]
    constructor
    · rintro rfl
      exact ⟨node, nearest, rfl⟩
    · rintro ⟨other, otherNearest, rfl⟩
      exact Comment.ofNode_congr text (nearest.span_eq otherNearest)

end Syntax.Node

theorem Source.of_read {strict : Bool} {path text : String} {root : Node} {source : Source}
    (parsed : Source.read strict path text root = .ok source) :
    source.text = text ∧ source.comments = root.comments text := by
  unfold Source.read at parsed
  split at parsed
  · cases parsed
  · cases parsed
    exact ⟨rfl, rfl⟩

theorem docFor?_eq_some_iff (root : Node) (text : String) (node : Node) (found : String) :
    docFor? text (root.comments text) node = some found ↔
      ∃ comment, root.NearestDoc text node.span.start comment ∧
        Text.row text comment.span.stop + 1 = Text.row text node.span.start ∧
        found = comment.text text := by
  rw [docFor?, Option.bind_eq_some_iff]
  constructor
  · rintro ⟨held, nearest, attached⟩
    obtain ⟨comment, isNearest, rfl⟩ :=
      (root.nearestDoc?_eq_some_iff text node.span.start held).mp nearest
    split at attached
    · next above =>
        cases attached
        exact ⟨comment, isNearest, above, rfl⟩
    · cases attached
  · rintro ⟨comment, isNearest, above, rfl⟩
    refine ⟨Comment.ofNode text comment, ?_, if_pos above⟩
    exact (root.nearestDoc?_eq_some_iff text node.span.start _).mpr ⟨comment, isNearest, rfl⟩

/-- The look-up of doc comments in a file that has been read.  The list of comments is sorted by
where they start and has each comment that named children lead to once; with plain tokens these are
all comments of the tree.  Halving finds the same comment as the look-up.  A node gets the text of
the nearest doc comment before it if that ends on the row above, and nothing otherwise. -/
theorem doc_lookup_follows_the_rule {strict : Bool} {path text : String} {root : Node}
    {source : Source} (parsed : Source.read strict path text root = .ok source) :
    (source.comments.Pairwise fun first second => first.span.start ≤ second.span.start) ∧
    (∃ placed : List (Place × Node), (placed.map Prod.fst).Nodup ∧
      (∀ place comment, (place, comment) ∈ placed ↔ root.CommentAt place comment) ∧
      source.comments.Perm (placed.map fun comment => Comment.ofNode text comment.2)) ∧
    (root.plainTokens → ∀ place comment, root.CommentAt place comment ↔
      root.at? place = some comment ∧ comment.kind = .comment) ∧
    (∀ start, nearestDocByHalving? source.comments start = nearestDoc? source.comments start) ∧
    ∀ (node : Node) (found : String),
      docFor? source.text source.comments node = some found ↔
        ∃ comment, root.NearestDoc text node.span.start comment ∧
          Text.row text comment.span.stop + 1 = Text.row text node.span.start ∧
          found = comment.text text := by
  obtain ⟨sameText, sameComments⟩ := Source.of_read parsed
  rw [sameText, sameComments]
  refine ⟨root.sorted_comments text, ?_, Node.commentAt_iff_of_plainTokens, ?_,
    docFor?_eq_some_iff root text⟩
  · exact ⟨root.commentPlaces, root.nodup_places_commentPlaces, root.mem_commentPlaces,
      root.comments_perm text⟩
  · exact nearestDocByHalving?_eq (root.sorted_comments text)

/-- The function `f` of `documented`. -/
def documentedFunction : Node :=
  ⟨.functionDeclaration, none, ⟨54, 69⟩, true, false, false,
    [⟨.identifier, some .name, ⟨63, 64⟩, true, false, false, []⟩,
      ⟨.other "formal_parameters", some .other, ⟨64, 66⟩, true, false, false, []⟩,
      ⟨.other "statement_block", some .body, ⟨67, 69⟩, true, false, false, []⟩]⟩

def documentedRoot : Node :=
  ⟨.other "program", none, ⟨0, 69⟩, true, false, false,
    [⟨.functionDeclaration, none, ⟨0, 26⟩, true, false, false,
      [⟨.identifier, some .name, ⟨9, 10⟩, true, false, false, []⟩,
        ⟨.other "formal_parameters", some .other, ⟨10, 12⟩, true, false, false, []⟩,
        ⟨.other "statement_block", some .body, ⟨13, 26⟩, true, false, false,
          [⟨.comment, none, ⟨15, 24⟩, true, false, false, []⟩]⟩]⟩,
      ⟨.comment, none, ⟨27, 37⟩, true, false, false, []⟩,
      ⟨.comment, none, ⟨38, 42⟩, true, false, false, []⟩,
      ⟨.comment, none, ⟨43, 53⟩, true, false, false, []⟩,
      documentedFunction]⟩

/-- Doc comments in the body of another function, on a row with a line comment, and above `f`. -/
def documented : Source where
  path := "documented.js"
  text := "function a() \x7b /** in */ \x7d\n/** old */ // x\n/** new */\nfunction f() \x7b\x7d"
  root := documentedRoot
  comments := documentedRoot.comments
    "function a() \x7b /** in */ \x7d\n/** old */ // x\n/** new */\nfunction f() \x7b\x7d"

theorem documentedFunction_has_nearest_doc :
    Source.read true documented.path documented.text documented.root = .ok documented ∧
      documented.root.plainTokens ∧
      docFor? documented.text documented.comments documentedFunction = some "/** new */" ∧
      ∃ comment, documented.root.NearestDoc documented.text 54 comment ∧
        comment.text documented.text = "/** new */" := by
  have parsed : Source.read true documented.path documented.text documented.root =
      .ok documented := rfl
  have attached : docFor? documented.text documented.comments documentedFunction =
      some "/** new */" := by decide +kernel
  obtain ⟨_, _, _, _, rule⟩ := doc_lookup_follows_the_rule parsed
  obtain ⟨comment, nearest, _, found⟩ := (rule documentedFunction _).mp attached
  exact ⟨parsed, by decide, attached, comment, nearest, found.symm⟩

end ScopeGraph
