import ScopeGraph.Proofs.Scope.Docs
import ScopeGraph.Proofs.Scope.WellFormed

/-!
# What stands between a doc comment and its node

A doc comment is attached by rows alone: exactly one line break stands between its end and the node.
So whatever else lies between the two starts on the last row of the comment or ends on the first row
of the node.  Code in these two places does not keep the comment from being attached, while code on
rows of its own does.
-/
set_option autoImplicit false

namespace ScopeGraph

open Syntax

namespace Syntax.Node

/-- The other node lies wholly between the end of the comment and the start of the node. -/
def Between (comment other node : Node) : Prop :=
  comment.span.stop ≤ other.span.start ∧ other.span.stop ≤ node.span.start

instance (comment other node : Node) : Decidable (comment.Between other node) :=
  inferInstanceAs (Decidable (_ ∧ _))

/-- The text from the end of the comment to the start of the node. -/
def gap (text : String) (comment node : Node) : String :=
  Text.slice text ⟨comment.span.stop, node.span.start⟩

variable {root : Node} {text : String} {start : Nat} {comment : Node}

theorem NearestDoc.nested (nearest : root.NearestDoc text start comment)
    (nested : root.nested text) : comment.nested text := by
  obtain ⟨place, reaches, _⟩ := nearest.before.stands
  exact (nested_at? nested reaches.at?_eq).1

/-- The rows of a doc comment and of the node behind it differ by the line breaks between them. -/
theorem NearestDoc.row_start {node : Node} (nearest : root.NearestDoc text node.span.start comment)
    (nested : root.nested text) (nodeNested : node.nested text) :
    Text.row text node.span.start =
      Text.row text comment.span.stop + (gap text comment node).toList.count '\n' := by
  obtain ⟨part, found⟩ := Text.exists_cut_between
    ((comment.nested_iff text).mp (nearest.nested nested)).1
    ((node.nested_iff text).mp nodeNested).1 nearest.before.ends
  rw [gap, Text.slice, found, Option.getD_some, String.toList_ofList]
  exact Text.row_stop found

/-- Between rows that follow one another there is no row. -/
theorem Between.shares_row {other node : Node} (between : comment.Between other node)
    (nested : other.nested text)
    (above : Text.row text comment.span.stop + 1 = Text.row text node.span.start) :
    Text.row text other.span.start = Text.row text comment.span.stop ∨
      Text.row text other.span.stop = Text.row text node.span.start := by
  have forward := Text.start_le_stop_of_cut ((other.nested_iff text).mp nested).1
  have behind := Text.row_mono text between.1
  have inside := Text.row_mono text forward
  have ahead := Text.row_mono text between.2
  omega

end Syntax.Node

theorem docFor?_eq_some_iff_gap {root : Node} {text : String} {node : Node}
    (nested : root.nested text) (nodeNested : node.nested text) (found : String) :
    docFor? text (root.comments text) node = some found ↔
      ∃ comment, root.NearestDoc text node.span.start comment ∧
        (comment.gap text node).toList.count '\n' = 1 ∧ found = comment.text text := by
  rw [docFor?_eq_some_iff]
  refine exists_congr fun comment => and_congr_right fun nearest => and_congr_left' ?_
  have rows := nearest.row_start nested nodeNested
  omega

/-- A node gets the nearest doc comment before it exactly if one line break stands between the two.
Whatever else of the file lies between them then starts on the last row of the comment or ends on
the first row of the node. -/
theorem doc_is_attached_across_one_line_break {strict : Bool} {path text : String} {root : Node}
    {source : Source} (parsed : Source.read strict path text root = .ok source)
    (nested : root.nested text) {place : Place} {node : Node}
    (stands : root.at? place = some node) :
    (∀ found, docFor? source.text source.comments node = some found ↔
      ∃ comment, root.NearestDoc text node.span.start comment ∧
        (comment.gap text node).toList.count '\n' = 1 ∧ found = comment.text text) ∧
    ∀ comment, root.NearestDoc text node.span.start comment →
      docFor? source.text source.comments node = some (comment.text text) →
      ∀ elsewhere other, root.at? elsewhere = some other → comment.Between other node →
        Text.row text other.span.start = Text.row text comment.span.stop ∨
          Text.row text other.span.stop = Text.row text node.span.start := by
  obtain ⟨sameText, sameComments⟩ := Source.of_read parsed
  rw [sameText, sameComments]
  have nodeNested := (Node.nested_at? nested stands).1
  have rule := docFor?_eq_some_iff_gap nested nodeNested
  refine ⟨rule, ?_⟩
  intro comment nearest attached elsewhere other otherStands between
  obtain ⟨held, isNearest, one, _⟩ := (rule _).mp attached
  have rows := isNearest.row_start nested nodeNested
  rw [isNearest.span_eq nearest, one] at rows
  exact between.shares_row (Node.nested_at? nested otherStands).1 rows.symm

/-- The variable of `sharedRow`. -/
def sharedRowVariable : Node :=
  ⟨.other "variable_declaration", none, ⟨9, 15⟩, true, false, false,
    [⟨.variableDeclarator, none, ⟨13, 14⟩, true, false, false,
      [⟨.identifier, some .name, ⟨13, 14⟩, true, false, false, []⟩]⟩]⟩

/-- The function of `sharedRow`. -/
def sharedRowFunction : Node :=
  ⟨.functionDeclaration, none, ⟨16, 31⟩, true, false, false,
    [⟨.identifier, some .name, ⟨25, 26⟩, true, false, false, []⟩,
      ⟨.other "formal_parameters", some .other, ⟨26, 28⟩, true, false, false, []⟩,
      ⟨.other "statement_block", some .body, ⟨29, 31⟩, true, false, false, []⟩]⟩

def sharedRowComment : Node := ⟨.comment, none, ⟨0, 8⟩, true, false, false, []⟩

def sharedRowRoot : Node :=
  ⟨.other "program", none, ⟨0, 31⟩, true, false, false,
    [sharedRowComment, sharedRowVariable, sharedRowFunction]⟩

/-- A variable is declared on the row of a doc comment, and a function on the next row. -/
def sharedRow : Source where
  path := "shared.js"
  text := "/** d */ var x;\nfunction f() \x7b\x7d"
  root := sharedRowRoot
  comments := sharedRowRoot.comments "/** d */ var x;\nfunction f() \x7b\x7d"

theorem sharedRow_variable_shares_a_row :
    Source.read true sharedRow.path sharedRow.text sharedRow.root = .ok sharedRow ∧
      sharedRow.root.nested sharedRow.text ∧ sharedRow.root.at? [2] = some sharedRowFunction ∧
      ∃ comment, sharedRow.root.NearestDoc sharedRow.text 16 comment ∧
        comment.Between sharedRowVariable sharedRowFunction ∧
        (Text.row sharedRow.text 9 = Text.row sharedRow.text comment.span.stop ∨
          Text.row sharedRow.text 15 = Text.row sharedRow.text 16) := by
  have parsed : Source.read true sharedRow.path sharedRow.text sharedRow.root =
      .ok sharedRow := rfl
  have nested : sharedRow.root.nested sharedRow.text := by decide
  have stands : sharedRow.root.at? [2] = some sharedRowFunction := rfl
  have attached : docFor? sharedRow.text sharedRow.comments sharedRowFunction =
      some "/** d */" := by decide +kernel
  obtain ⟨rule, rows⟩ := doc_is_attached_across_one_line_break parsed nested stands
  obtain ⟨comment, nearest, _, found⟩ := (rule "/** d */").mp attached
  obtain ⟨place, isComment⟩ := nearest.before.stands
  have only : (place, comment) ∈ [([0], sharedRowComment)] :=
    (sharedRow.root.mem_commentPlaces place comment).mpr isComment
  cases List.mem_singleton.mp only
  have between : sharedRowComment.Between sharedRowVariable sharedRowFunction := by decide
  rw [found] at attached
  exact ⟨parsed, nested, stands, _, nearest, between, rows _ nearest attached [1] _ rfl between⟩

theorem doc_is_attached_past_a_statement :
    Source.read true sharedRow.path sharedRow.text sharedRow.root = .ok sharedRow ∧
      sharedRow.root.at? [0] = some sharedRowComment ∧
      sharedRow.root.at? [1] = some sharedRowVariable ∧
      sharedRow.root.at? [2] = some sharedRowFunction ∧
      docFor? sharedRow.text sharedRow.comments sharedRowFunction =
        some (sharedRowComment.text sharedRow.text) ∧
      sharedRowComment.Between sharedRowVariable sharedRowFunction :=
  ⟨rfl, rfl, rfl, rfl, by decide +kernel, by decide⟩

end ScopeGraph
