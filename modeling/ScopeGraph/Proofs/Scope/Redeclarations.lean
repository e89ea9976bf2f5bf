import Mathlib.Data.List.Lex
import Mathlib.Data.List.MinMax
import ScopeGraph.Proofs.Scope.Namesakes
import ScopeGraph.Proofs.Scope.WellFormed

/-!
# Declarations that share a name

Of the declarations of a container that share a name, the one that is described last is kept.  In
the body of a function these are described as they stand in the text.  At file level, in the body of
a method and within one entry of a class body the deeper ones come later, wherever they stand.  So
the declaration that starts latest is kept exactly if no namesake met by the same walk lies deeper.
-/
set_option autoImplicit false

namespace ScopeGraph

open Syntax

/-! ## Places and the text -/

namespace Syntax.Node

mutual

/-- Every child has ended where a later one starts, at any depth. -/
def inSequence : Node → Bool
  | ⟨_, _, _, _, _, _, children⟩ => inSequenceAll children

def inSequenceAll : List Node → Bool
  | [] => true
  | node :: rest =>
    rest.all (fun later => node.span.stop ≤ later.span.start) && node.inSequence &&
      inSequenceAll rest

end

theorem inSequenceAll_iff (nodes : List Node) :
    inSequenceAll nodes ↔
      (nodes.Pairwise fun first second => first.span.stop ≤ second.span.start) ∧
        ∀ node ∈ nodes, node.inSequence := by
  induction nodes with
  | nil => simp [inSequenceAll]
  | cons node rest ih =>
      simp only [inSequenceAll, Bool.and_eq_true, List.all_eq_true, decide_eq_true_eq, ih,
        List.pairwise_cons, List.forall_mem_cons]
      tauto

theorem inSequence_iff (node : Node) :
    node.inSequence ↔
      (node.children.Pairwise fun first second => first.span.stop ≤ second.span.start) ∧
        ∀ child ∈ node.children, child.inSequence := by
  obtain ⟨⟩ := node
  exact inSequenceAll_iff _

/-- The spans of the tree are nested, and siblings follow one another. -/
structure LaidOut (text : String) (root : Node) : Prop where
  nested : root.nested text
  sequential : root.inSequence

/-- Of two nodes that stand apart, the first in document order has ended where the other starts. -/
theorem LaidOut.stop_le_start {text : String} {root first second : Node} {place other : Place}
    (laidOut : root.LaidOut text) (less : List.Lex (· < ·) place other)
    (apart : Place.Apart place other) (here : root.at? place = some first)
    (there : root.at? other = some second) : first.span.stop ≤ second.span.start := by
  obtain ⟨nested, sequential⟩ := laidOut
  induction less generalizing root with
  | nil => exact absurd List.nil_prefix apart.1
  | @cons i place other less ih =>
      obtain ⟨child, found, below⟩ := Option.bind_eq_some_iff.mp here
      obtain ⟨again, foundAgain, further⟩ := Option.bind_eq_some_iff.mp there
      obtain rfl : child = again := Option.some.inj (found.symm.trans foundAgain)
      have member := List.mem_of_getElem? found
      have inner := (((root.nested_iff text).mp nested).2 child member).2
      have ordered := (root.inSequence_iff.mp sequential).2 child member
      exact ih ((Place.apart_append [i] place other).mp apart) below further inner ordered
  | @rel i place j other less =>
      obtain ⟨child, found, below⟩ := Option.bind_eq_some_iff.mp here
      obtain ⟨later, foundLater, further⟩ := Option.bind_eq_some_iff.mp there
      obtain ⟨bound, isChild⟩ := List.getElem?_eq_some_iff.mp found
      obtain ⟨boundLater, isLater⟩ := List.getElem?_eq_some_iff.mp foundLater
      have siblings : child.span.stop ≤ later.span.start := by
        rw [← isChild, ← isLater]
        exact List.pairwise_iff_getElem.mp (root.inSequence_iff.mp sequential).1 i j _ _ less
      have children := ((root.nested_iff text).mp nested).2
      have left := nested_at? (children child (List.mem_of_getElem? found)).2 below
      have right := nested_at? (children later (List.mem_of_getElem? foundLater)).2 further
      calc first.span.stop ≤ child.span.stop := left.2.2
        _ ≤ later.span.start := siblings
        _ ≤ second.span.start := right.2.1

end Syntax.Node

/-- A declaration with a name takes up some text. -/
theorem Declaration.start_lt_stop {text name : String} {declaration : Declaration}
    (nested : declaration.node.nested text) (named : declaration.name? text = some name) :
    declaration.node.span.start < declaration.node.span.stop := by
  obtain ⟨found, filled⟩ := Option.filter_eq_some_iff.mp (declaredName?_of_name? named)
  obtain ⟨child, isName, rfl⟩ := Option.map_eq_some_iff.mp found
  have nameFilled : child.span.start < child.span.stop :=
    Text.start_lt_stop_of_slice_ne (of_decide_eq_true filled)
  have within := (((declaration.node.nested_iff text).mp nested).2 child
    (List.mem_of_find?_eq_some isName)).1
  obtain ⟨after, before⟩ := within
  omega

/-! ## The order of a walk -/

theorem DeclKind.WalksByDepth.symm {kind : DeclKind} {first second : Place}
    (walked : kind.WalksByDepth first second) : kind.WalksByDepth second first := by
  cases kind with
  | function => exact walked
  | method => exact walked
  | classDecl => exact Eq.symm walked

theorem Pass.pairwise_precedes_together (source : Source) (holder : Pass) :
    (holder.inner source).Pairwise fun first second =>
      Place.Precedes holder.Together first.place second.place := by
  refine List.Pairwise.imp_of_mem ?_ (holder.pairwise_precedes_inner source)
  intro first second firstMember secondMember before
  obtain ⟨below, _, here⟩ := holds_of_mem_inner source firstMember
  obtain ⟨further, _, there⟩ := holds_of_mem_inner source secondMember
  have firstBelow : first.place.drop holder.place.length = below := by rw [here, List.drop_left]
  have secondBelow : second.place.drop holder.place.length = further := by
    rw [there, List.drop_left]
  refine before.imp (And.imp_right fun less => ?_) (And.imp_right fun less => ?_)
  · rw [firstBelow, secondBelow] at less
    rw [here, there]
    exact less.append_left holder.place
  · rw [firstBelow, secondBelow] at less
    rw [here, there]
    exact List.Lex.append_left _ less holder.place

namespace Pass

def start (pass : Pass) : Nat := pass.declaration.node.span.start

def depth (pass : Pass) : Nat := pass.place.length

/-- The first declaration lies less deep and one walk by depth meets both, or it starts earlier. -/
def Before (together : Place → Place → Prop) (first second : Pass) : Prop :=
  (together first.place second.place ∧ first.depth < second.depth) ∨
    ((together first.place second.place → first.depth = second.depth) ∧
      first.start < second.start)

end Pass

namespace Source

variable {source : Source} {tally : Tally} {together : Place → Place → Prop} {passes : List Pass}
  {members : Members}

namespace Walks

theorem symm (walked : source.Walks tally together passes members) {first second : Place}
    (both : together first second) : together second first := by
  cases walked with
  | functions => exact both
  | classes => exact both
  | members handled => exact DeclKind.WalksByDepth.symm both

theorem pairwise_precedes (walked : source.Walks tally together passes members) :
    passes.Pairwise fun first second => Place.Precedes together first.place second.place := by
  have top : (source.topPasses tally).Pairwise fun first second =>
      Place.Precedes (fun _ _ => True) first.place second.place :=
    (source.pairwise_shortlex_topPasses tally).imp fun less => .inl ⟨trivial, less⟩
  cases walked with
  | functions => exact top.sublist List.filter_sublist
  | classes => exact top.sublist List.filter_sublist
  | members handled => exact Pass.pairwise_precedes_together source _

end Walks

/-- Document order is the order of the starts, if the first declaration has a name. -/
theorem start_lt_start (laidOut : source.root.LaidOut source.text) {first second : Pass}
    {name : String} (firstHandled : first ∈ source.passes tally)
    (secondHandled : second ∈ source.passes tally)
    (apart : Place.Apart first.place second.place)
    (named : first.declaration.name? source.text = some name)
    (less : List.Lex (· < ·) first.place second.place) : first.start < second.start := by
  have here := (source.handled_of_mem_passes firstHandled).at?_eq
  have there := (source.handled_of_mem_passes secondHandled).at?_eq
  have nested := (Node.nested_at? laidOut.nested here).1
  calc first.start < first.declaration.node.span.stop := Declaration.start_lt_stop nested named
    _ ≤ second.start := laidOut.stop_le_start less apart here there

namespace Walks

variable (walked : source.Walks tally together passes members)
  (laidOut : source.root.LaidOut source.text)
include walked laidOut

theorem before_of_named :
    passes.Pairwise fun first second =>
      ∀ name, first.declaration.name? source.text = some name → first.Before together second := by
  refine List.Pairwise.imp_of_mem ?_ (walked.pairwise_precedes.and walked.pairwise_apart)
  intro first second firstMember secondMember ⟨met, apart⟩ name named
  have earlier := start_lt_start laidOut (walked.mem_passes firstMember)
    (walked.mem_passes secondMember) apart named
  rcases met with ⟨both, less⟩ | ⟨separate, less⟩
  · rcases List.shortlex_def.mp less with shorter | ⟨level, less⟩
    · exact .inl ⟨both, shorter⟩
    · exact .inr ⟨fun _ => level, earlier less⟩
  · exact .inr ⟨fun both => absurd both separate, earlier less⟩

/-- No two declarations with names start at the same byte. -/
theorem start_ne_start {first second : Pass} {name : String}
    (firstMember : first ∈ Pass.namesakes source name passes)
    (secondMember : second ∈ Pass.namesakes source name passes) (differ : first ≠ second) :
    first.start ≠ second.start := by
  obtain ⟨firstInside, firstNamed⟩ := List.mem_filter.mp firstMember
  obtain ⟨secondInside, secondNamed⟩ := List.mem_filter.mp secondMember
  have firstHandled := walked.mem_passes firstInside
  have secondHandled := walked.mem_passes secondInside
  have : Std.Symm fun first second : Pass => Place.Apart first.place second.place :=
    ⟨fun _ _ => And.symm⟩
  have apart := walked.pairwise_apart.forall firstInside secondInside differ
  rcases lt_trichotomy first.place second.place with less | same | less
  · exact (start_lt_start laidOut firstHandled secondHandled apart
      (of_decide_eq_true firstNamed) less).ne
  · rw [same] at apart
    exact absurd List.prefix_rfl apart.1
  · exact (start_lt_start laidOut secondHandled firstHandled apart.symm
      (of_decide_eq_true secondNamed) less).ne'

theorem exists_latest {name : String} (declared : Pass.namesakes source name passes ≠ []) :
    ∃ latest ∈ Pass.namesakes source name passes,
      ∀ other ∈ Pass.namesakes source name passes, other = latest ∨ other.start < latest.start := by
  obtain ⟨latest, greatest⟩ : ∃ latest,
      latest ∈ (Pass.namesakes source name passes).argmax Pass.start :=
    Option.ne_none_iff_exists'.mp (mt List.argmax_eq_none.mp declared)
  have member := List.argmax_mem greatest
  refine ⟨latest, member, fun other otherMember => ?_⟩
  by_cases same : other = latest
  · exact .inl same
  · have le := List.le_of_mem_argmax otherMember greatest
    exact .inr (Nat.lt_of_le_of_ne le (walked.start_ne_start laidOut otherMember member same))

/-- Of the passes that are kept back, the last comes after all those with a name. -/
theorem eq_or_before_last {keeps : Pass → Bool} {last other : Pass} {name : String}
    (found : (passes.filter keeps).getLast? = some last)
    (member : other ∈ Pass.namesakes source name passes) (kept : keeps other) :
    other = last ∨ other.Before together last := by
  obtain ⟨front, parts⟩ := List.getLast?_eq_some_iff.mp found
  have ordered := (walked.before_of_named laidOut).filter keeps
  obtain ⟨inside, named⟩ := List.mem_filter.mp member
  have listed : other ∈ passes.filter keeps := List.mem_filter.mpr ⟨inside, kept⟩
  rw [parts] at ordered listed
  obtain ⟨_, _, across⟩ := List.pairwise_append.mp ordered
  rcases List.mem_append.mp listed with earlier | here
  · exact .inr (across other earlier last (List.mem_singleton.mpr rfl) name
      (of_decide_eq_true named))
  · exact .inl (List.mem_singleton.mp here)

/-- The last declaration of the name is kept, or else one without a name that comes later still and
is given this name. -/
theorem exists_kept {name : String} (declared : Pass.namesakes source name passes ≠ []) :
    ∃ kept ∈ Pass.namesakes source name passes,
      (∀ other ∈ Pass.namesakes source name passes,
        other = kept ∨ other.Before together kept) ∧
      (members.get? name = some (kept.descriptor source) ∨
        ∃ unnamed ∈ passes, unnamed.declaration.name? source.text = none ∧
          (unnamed.descriptor source).name = name ∧
          members.get? name = some (unnamed.descriptor source) ∧
          kept.Before together unnamed) := by
  have called : ∀ other ∈ Pass.namesakes source name passes,
      decide ((other.descriptor source).name = name) = true := by
    intro other member
    have named := of_decide_eq_true (List.mem_filter.mp member).2
    exact decide_eq_true (Pass.name_of_name? source named)
  obtain ⟨lastDeclared, foundDeclared⟩ :=
    Option.ne_none_iff_exists'.mp (mt List.getLast?_eq_none_iff.mp declared)
  have declaredMember := List.mem_of_getLast? foundDeclared
  have someCalled : passes.filter (fun pass => (pass.descriptor source).name = name) ≠ [] :=
    List.ne_nil_of_mem (List.mem_filter.mpr
      ⟨(List.mem_filter.mp declaredMember).1, called lastDeclared declaredMember⟩)
  obtain ⟨last, found⟩ :=
    Option.ne_none_iff_exists'.mp (mt List.getLast?_eq_none_iff.mp someCalled)
  obtain ⟨inside, isCalled⟩ := List.mem_filter.mp (List.mem_of_getLast? found)
  have lastName := of_decide_eq_true isCalled
  have entry : members.get? name = some (last.descriptor source) := by
    rw [walked.get?_eq, found]
    rfl
  have beforeLast : ∀ other ∈ Pass.namesakes source name passes,
      other = last ∨ other.Before together last := fun other member =>
    walked.eq_or_before_last laidOut found member (called other member)
  cases named : last.declaration.name? source.text with
  | some given =>
      have same : given = name := (Pass.name_of_name? source named).symm.trans lastName
      subst same
      exact ⟨last, List.mem_filter.mpr ⟨inside, decide_eq_true named⟩, beforeLast, .inl entry⟩
  | none =>
      refine ⟨lastDeclared, declaredMember, ?_, .inr ⟨last, inside, named, lastName, entry, ?_⟩⟩
      · intro other member
        exact walked.eq_or_before_last laidOut foundDeclared member (List.mem_filter.mp member).2
      · refine (beforeLast lastDeclared declaredMember).resolve_left ?_
        rintro rfl
        have hasName := of_decide_eq_true (List.mem_filter.mp declaredMember).2
        exact absurd (named.symm.trans hasName) nofun

end Walks
end Source

/-- In every container the declaration that starts latest among those that share a name is kept
exactly if none of them lies deeper that the same walk by depth meets.  A declaration without a name
may still come later and be given the name. -/
theorem latest_is_kept_unless_another_lies_deeper {source : Source} {tally : Tally}
    {together : Place → Place → Prop} {passes : List Pass} {members : Members} {name : String}
    (laidOut : source.root.LaidOut source.text)
    (walked : source.Walks tally together passes members)
    (declared : Pass.namesakes source name passes ≠ []) :
    let namesakes := Pass.namesakes source name passes
    ∃ kept ∈ namesakes, ∃ latest ∈ namesakes,
      (members.get? name = some (kept.descriptor source) ∨
        ∃ unnamed ∈ passes, unnamed.declaration.name? source.text = none ∧
          (unnamed.descriptor source).name = name ∧
          members.get? name = some (unnamed.descriptor source) ∧
          kept.Before together unnamed) ∧
      (∀ other ∈ namesakes, other = kept ∨ other.Before together kept) ∧
      (∀ other ∈ namesakes, other = latest ∨ other.start < latest.start) ∧
      (kept = latest ↔ ∀ other ∈ namesakes, together other.place latest.place →
        other.depth ≤ latest.depth) := by
  intro namesakes
  obtain ⟨kept, keptMember, beforeKept, entry⟩ := walked.exists_kept laidOut declared
  obtain ⟨latest, latestMember, startsBefore⟩ := walked.exists_latest laidOut declared
  refine ⟨kept, keptMember, latest, latestMember, entry, beforeKept, startsBefore, ?_, ?_⟩
  · intro same other member both
    subst same
    rcases beforeKept other member with same | ⟨_, shallower⟩ | ⟨level, _⟩
    · exact Nat.le_of_eq (congrArg Pass.depth same)
    · exact Nat.le_of_lt shallower
    · exact Nat.le_of_eq (level both)
  · intro noneDeeper
    rcases beforeKept latest latestMember with same | ⟨both, shallower⟩ | ⟨_, starts⟩
    · exact same.symm
    · have le := noneDeeper kept keptMember (walked.symm both)
      omega
    · rcases startsBefore kept keptMember with same | later
      · exact same
      · omega

/-- The tree of `function f() {}` at an offset. -/
def functionAt (start : Nat) : Node :=
  ⟨.functionDeclaration, none, ⟨start, start + 15⟩, true, false, false,
    [⟨.identifier, some .name, ⟨start + 9, start + 10⟩, true, false, false, []⟩,
      ⟨.other "formal_parameters", none, ⟨start + 10, start + 12⟩, true, false, false, []⟩,
      ⟨.other "statement_block", some .body, ⟨start + 13, start + 15⟩, true, false, false, []⟩]⟩

/-- A function `f` and after it another one in a block, in lines of their own. -/
def besideThenInBlock : Source where
  path := "app.js"
  text := "function f() \x7b\x7d\n\x7b function f() \x7b\x7d \x7d"
  root :=
    ⟨.other "program", none, ⟨0, 35⟩, true, false, false,
      [functionAt 0,
        ⟨.other "statement_block", none, ⟨16, 35⟩, true, false, false, [functionAt 18]⟩]⟩
  comments := []

theorem later_function_in_a_block_is_kept :
    let namesakes := Pass.namesakes besideThenInBlock "f"
      ((besideThenInBlock.topPasses .zero).filter (·.declaration.kind ≠ .classDecl))
    besideThenInBlock.root.LaidOut besideThenInBlock.text ∧ namesakes.length = 2 ∧
      ∃ kept ∈ namesakes,
        (besideThenInBlock.scope .zero).1.functions.get? "f" =
            some (kept.descriptor besideThenInBlock) ∧
          ∀ other ∈ namesakes, other = kept ∨ other.start < kept.start := by
  intro namesakes
  have laidOut : besideThenInBlock.root.LaidOut besideThenInBlock.text :=
    ⟨by decide +kernel, by decide +kernel⟩
  have two : namesakes.length = 2 := by decide +kernel
  have deeper : ∀ first ∈ namesakes, ∀ second ∈ namesakes, first.start < second.start →
      first.depth ≤ second.depth := by
    decide +kernel
  have named : ∀ pass ∈ besideThenInBlock.topPasses .zero,
      pass.declaration.name? besideThenInBlock.text ≠ none := by
    decide +kernel
  have declared : namesakes ≠ [] := List.ne_nil_of_length_eq_add_one two
  obtain ⟨kept, keptMember, latest, latestMember, entry, _, starts, same⟩ :=
    latest_is_kept_unless_another_lies_deeper laidOut Source.Walks.functions declared
  have isLatest : kept = latest := by
    refine same.mpr fun other member _ => ?_
    rcases starts other member with rfl | earlier
    · exact Nat.le_refl _
    · exact deeper other member latest latestMember earlier
  subst isLatest
  refine ⟨laidOut, two, kept, keptMember, ?_, starts⟩
  rcases entry with found | ⟨unnamed, inside, missing, _⟩
  · exact found
  · exact absurd missing (named unnamed (List.mem_filter.mp inside).1)

/-- The same two lines in the other order. -/
def inBlockThenBeside : Source where
  path := "app.js"
  text := "\x7b function f() \x7b\x7d \x7d\nfunction f() \x7b\x7d"
  root :=
    ⟨.other "program", none, ⟨0, 35⟩, true, false, false,
      [⟨.other "statement_block", none, ⟨0, 19⟩, true, false, false, [functionAt 2]⟩,
        functionAt 20]⟩
  comments := []

theorem earlier_function_in_a_block_is_kept :
    let namesakes := Pass.namesakes inBlockThenBeside "f"
      ((inBlockThenBeside.topPasses .zero).filter (·.declaration.kind ≠ .classDecl))
    ((inBlockThenBeside.scope .zero).1.functions.get? "f").map Descriptor.lineStart = some 1 ∧
      ∃ latest ∈ namesakes, (latest.descriptor inBlockThenBeside).lineStart = 2 ∧
        ∀ other ∈ namesakes, other.start ≤ latest.start := by
  decide +kernel

end ScopeGraph
