import Mathlib.Data.List.Pairwise
import ScopeGraph.Proofs.Scope.Passes

/-!
# Numbers of declarations without a name

A declaration without a name takes the next number of the run before anything inside of it is
described.  So the numbers of a declaration and of all that is nested in it are one block, the
blocks of a container follow each other in the order of its visit, and a run over many files uses
every number from zero on once.
-/
set_option autoImplicit false

namespace ScopeGraph

open Syntax

theorem Syntax.Node.pairwise_lex_placedSlots (node : Node) :
    node.placedSlots.Pairwise fun first second => List.Lex (· < ·) first.1 second.1 :=
  Node.pairwise_reachedBelow (fun _ => false) Node.isSlot node.children 0

/-! ## Declarations without a name -/

namespace Declaration

/-- A method of an object literal has no name, whatever its key is; any other declaration has none
if nothing but an empty text fills `name`. -/
def Unnamed (text : String) (declaration : Declaration) : Prop :=
  (declaration.kind ≠ .method ∧ declaration.node.kind = .methodDefinition) ∨
    ∀ name, declaration.node.child? .name = some name → name.text text = ""

theorem declaredName?_eq_none_iff (text : String) (node : Node) :
    node.declaredName? text = none ↔
      ∀ name, node.child? .name = some name → name.text text = "" := by
  rw [Node.declaredName?, Option.filter_eq_none_iff]
  simp

theorem name?_eq_none_iff (text : String) (declaration : Declaration) :
    declaration.name? text = none ↔ declaration.Unnamed text := by
  rw [Unnamed, ← declaredName?_eq_none_iff]
  by_cases inLiteral : declaration.node.kind = .methodDefinition
  · cases kind : declaration.kind <;> simp [name?, kind, inLiteral]
  · cases kind : declaration.kind <;> simp [name?, kind, inLiteral]

end Declaration

/-! ## The order of the visit -/

/-- What one walk meets `together` comes by depth, anything else in document order. -/
def Syntax.Place.Precedes (together : Place → Place → Prop) (first second : Place) : Prop :=
  (together first second ∧ List.Shortlex (· < ·) first second) ∨
    (¬ together first second ∧ List.Lex (· < ·) first second)

/-- One walk by depth meets both places below a declaration.  A function has no such walk, a method
has one, and a class has one for each entry of its body. -/
def DeclKind.WalksByDepth (kind : DeclKind) (first second : Place) : Prop :=
  match kind with
  | .function => False
  | .method => True
  | .classDecl => first.take 2 = second.take 2

namespace Declaration

/-- The order in which a declaration describes what it holds, by the places below its node: a
function in document order, a method by depth, a class from entry to entry of its body and by depth
inside of an entry. -/
def Precedes (kind : DeclKind) : Place → Place → Prop := Place.Precedes kind.WalksByDepth

theorem pairwise_shortlex_placedOfEntry (entry : Node) :
    (placedOfEntry entry).Pairwise fun first second =>
      List.Shortlex (· < ·) first.1 second.1 := by
  have below : (placedOfScopes entry.scopePlacesByDepth).Pairwise fun first second =>
      List.Shortlex (· < ·) first.1 second.1 :=
    List.pairwise_map.mpr entry.pairwise_scopePlacesByDepth
  unfold placedOfEntry
  split <;> first | exact below | simp

theorem pairwise_precedes_placedOfBody (kind : DeclKind) (body : Node) (i : Nat) :
    (placedOfBody kind body).Pairwise fun first second =>
      Precedes kind (i :: first.1) (i :: second.1) := by
  cases kind with
  | function =>
      refine List.pairwise_map.mpr (body.pairwise_scopePlaces.imp ?_)
      intro first second less
      exact .inr ⟨id, List.Lex.cons less⟩
  | method =>
      refine List.pairwise_map.mpr (body.pairwise_scopePlacesByDepth.imp ?_)
      intro first second less
      exact .inl ⟨trivial, less.append_left [i]⟩
  | classDecl =>
      refine List.pairwise_flatMap.mpr ⟨?_, ?_⟩
      · intro slot member
        obtain ⟨j, _, _, _, rfl⟩ := (body.mem_placedSlots slot).mp member
        refine List.pairwise_map.mpr ((pairwise_shortlex_placedOfEntry _).imp ?_)
        intro first second less
        exact .inl ⟨rfl, less.append_left [i, j]⟩
      · refine List.Pairwise.imp_of_mem ?_ body.pairwise_lex_placedSlots
        intro first second firstMember secondMember less left leftMember right rightMember
        obtain ⟨j, _, _, _, rfl⟩ := (body.mem_placedSlots first).mp firstMember
        obtain ⟨k, _, _, _, rfl⟩ := (body.mem_placedSlots second).mp secondMember
        obtain ⟨_, _, rfl⟩ := List.mem_map.mp leftMember
        obtain ⟨_, _, rfl⟩ := List.mem_map.mp rightMember
        have smaller : j < k := by simpa using less
        refine .inr ⟨?_, List.Lex.cons (List.Lex.rel smaller)⟩
        intro together
        have same : j = k := by simpa [DeclKind.WalksByDepth, Node.under] using together
        omega

theorem pairwise_precedes_placedInner (holder : Declaration) :
    holder.placedInner.Pairwise fun first second => Precedes holder.kind first.1 second.1 := by
  cases has : holder.node.child? .body with
  | none =>
      rw [placedInner_of_none has]
      exact List.Pairwise.nil
  | some body =>
      obtain ⟨i, isBody⟩ := (holder.node.child?_body_eq_some_iff body).mp has
      rw [placedInner_of_bodyAt isBody]
      exact List.pairwise_map.mpr (pairwise_precedes_placedOfBody holder.kind body i)

end Declaration

/-! ## Blocks of numbers -/

/-- The numbers from `first` on, up to the one before `next`. -/
structure Block (first : Nat) (numbers : List Nat) (next : Nat) : Prop where
  le : first ≤ next
  eq_range : numbers = List.range' first (next - first)

theorem Block.empty (first : Nat) : Block first [] first :=
  ⟨Nat.le_refl first, by rw [Nat.sub_self, List.range'_zero]⟩

theorem Block.append {first middle next : Nat} {front rear : List Nat}
    (left : Block first front middle) (right : Block middle rear next) :
    Block first (front ++ rear) next := by
  obtain ⟨leftLe, rfl⟩ := left
  obtain ⟨rightLe, rfl⟩ := right
  refine ⟨leftLe.trans rightLe, ?_⟩
  have start : middle = first + (middle - first) := by omega
  have length : next - first = (middle - first) + (next - middle) := by omega
  rw [length, ← List.range'_append_1, ← start]

namespace Tally

theorem anonymous_nameFor (tally : Tally) (kind : DeclKind) (name? : Option String) :
    (tally.nameFor kind name?).2.anonymous =
      tally.anonymous + if name?.isNone then 1 else 0 := by
  cases name? <;> rfl

end Tally

namespace Pass

variable (source : Source)

/-- The text gives no name to the declaration of the pass. -/
def isUnnamed (pass : Pass) : Bool := (pass.declaration.name? source.text).isNone

theorem name_of_unnamed {pass : Pass} (unnamed : pass.declaration.name? source.text = none) :
    (pass.descriptor source).name = (pass.tally.nextName pass.declaration.kind).1 := by
  rw [descriptor_eq, unnamed]
  rfl

/-- The numbers that passes take, in turn. -/
def numbers (passes : List Pass) : List Nat :=
  (passes.filter (isUnnamed source)).map fun pass => pass.tally.anonymous

/-- What the run has counted once all that is nested in the declaration is described. -/
def after (pass : Pass) : Tally := (pass.declaration.describe source pass.tally).2

/-- The block of each pass begins where that of the pass before it ends. -/
def Follow : Nat → List Pass → Nat → Prop
  | first, [], next => first = next
  | first, pass :: rest, next =>
    pass.tally.anonymous = first ∧ Follow (pass.after source).anonymous rest next

theorem numbers_append (first second : List Pass) :
    numbers source (first ++ second) = numbers source first ++ numbers source second := by
  simp [numbers]

/-- What a pass and the passes inside of it take. -/
def block (pass : Pass) : List Nat := numbers source (pass.all source)

theorem block_flatMap_of_follow {first next : Nat} {passes : List Pass}
    (follow : Follow source first passes next)
    (each : ∀ pass ∈ passes,
      Block pass.tally.anonymous (pass.block source) (pass.after source).anonymous) :
    Block first (numbers source (passes.flatMap (all source))) next := by
  induction passes generalizing first with
  | nil =>
      cases follow
      exact Block.empty _
  | cons pass rest ih =>
      obtain ⟨rfl, later⟩ := follow
      have here := each pass List.mem_cons_self
      have others := ih later fun other member => each other (List.mem_cons_of_mem pass member)
      rw [List.flatMap_cons, numbers_append]
      exact here.append others

theorem follow_inTurn (outer : Place) (placed : List (Place × Declaration)) (tally : Tally) :
    Follow source tally.anonymous (inTurn source outer placed tally)
      (Declaration.describeAll source (placed.map Prod.snd) tally).2.anonymous := by
  induction placed generalizing tally with
  | nil =>
      rw [List.map_nil, Declaration.describeAll]
      rfl
  | cons head rest ih =>
      rw [List.map_cons, Declaration.describeAll]
      exact ⟨rfl, ih _⟩

theorem follow_inner (pass : Pass) :
    Follow source (pass.named source).anonymous (pass.inner source)
      (pass.after source).anonymous := by
  have turn := follow_inTurn source pass.place pass.declaration.placedInner (pass.named source)
  rw [Declaration.map_snd_placedInner] at turn
  rw [after, Declaration.describe]
  exact turn

/-- A declaration without a name takes one number, any other none. -/
theorem block_self (pass : Pass) :
    Block pass.tally.anonymous (numbers source [pass]) (pass.named source).anonymous := by
  have count : (pass.named source).anonymous =
      pass.tally.anonymous + if pass.isUnnamed source then 1 else 0 :=
    pass.tally.anonymous_nameFor ..
  rw [count]
  refine ⟨Nat.le_add_right _ _, ?_⟩
  by_cases unnamed : pass.isUnnamed source
  · simp [numbers, unnamed]
  · simp [numbers, unnamed]

/-- The numbers of a declaration and of all that is nested in it are one block. -/
theorem block_all (pass : Pass) :
    Block pass.tally.anonymous (pass.block source) (pass.after source).anonymous := by
  induction pass using induction source with
  | step pass ih =>
      have inside := block_flatMap_of_follow source (pass.follow_inner source) ih
      have parts := numbers_append source [pass] ((pass.inner source).flatMap (all source))
      rw [block, all_eq, ← List.singleton_append, parts]
      exact (pass.block_self source).append inside

theorem pairwise_precedes_inner (pass : Pass) :
    (pass.inner source).Pairwise fun first second =>
      Declaration.Precedes pass.declaration.kind (first.place.drop pass.place.length)
        (second.place.drop pass.place.length) := by
  have below : (pass.declaration.placedInner.map (Node.under pass.place)).Pairwise
      fun first second => Declaration.Precedes pass.declaration.kind
        (first.1.drop pass.place.length) (second.1.drop pass.place.length) := by
    refine List.pairwise_map.mpr (pass.declaration.pairwise_precedes_placedInner.imp ?_)
    intro first second less
    rw [Node.under, Node.under, List.drop_left, List.drop_left]
    exact less
  rw [← map_inTurn source pass.place pass.declaration.placedInner (pass.named source),
    List.pairwise_map] at below
  exact below

/-! ## What is nested in a declaration -/

theorem mem_all_of_above_siblings {siblings : List Pass} {pass other : Pass}
    (apart : siblings.Pairwise fun first second => Place.Apart first.place second.place)
    (each : ∀ top ∈ siblings, pass ∈ top.all source → other ∈ top.all source →
      other ∈ pass.all source)
    (member : pass ∈ siblings.flatMap (all source))
    (otherMember : other ∈ siblings.flatMap (all source)) (above : pass.place <+: other.place) :
    other ∈ pass.all source := by
  obtain ⟨top, inside, within⟩ := List.mem_flatMap.mp member
  obtain ⟨otherTop, otherInside, otherWithin⟩ := List.mem_flatMap.mp otherMember
  by_cases same : top = otherTop
  · subst same
    exact each top inside within otherWithin
  · exfalso
    have : Std.Symm fun first second : Pass => Place.Apart first.place second.place :=
      ⟨fun _ _ here => ⟨here.2, here.1⟩⟩
    have here := apart.forall inside otherInside same
    have way := (place_le_of_mem_all source within).trans above
    have otherWay := place_le_of_mem_all source otherWithin
    rcases List.prefix_or_prefix_of_prefix way otherWay with first | second
    · exact here.1 first
    · exact here.2 second

theorem mem_all_of_above {top pass other : Pass} (member : pass ∈ top.all source)
    (otherMember : other ∈ top.all source) (above : pass.place <+: other.place) :
    other ∈ pass.all source := by
  induction top using induction source with
  | step top ih =>
      have whole := otherMember
      rw [all_eq] at member otherMember
      rcases List.mem_cons.mp member with rfl | below
      · exact whole
      · rcases List.mem_cons.mp otherMember with rfl | otherBelow
        · -- Nothing inside of a declaration stands above it.
          obtain ⟨held, inside, within⟩ := List.mem_flatMap.mp below
          obtain ⟨further, holds, place⟩ := holds_of_mem_inner source inside
          have short := ((place_le_of_mem_all source within).trans above).length_le
          rw [place, List.length_append] at short
          exact absurd (List.length_eq_zero_iff.mp (by omega)) holds.place_ne_nil
        · exact mem_all_of_above_siblings source (top.pairwise_apart_inner source) ih below
            otherBelow above

end Pass

/-! ## The numbers of a file -/

namespace Source

variable (source : Source)

/-- The places of the declarations without a name, in the order of their numbers. -/
def unnamedPlaces (tally : Tally) : List Place :=
  ((source.passes tally).filter (Pass.isUnnamed source)).map Pass.place

theorem nodup_unnamedPlaces (tally : Tally) : (source.unnamedPlaces tally).Nodup :=
  (List.filter_sublist.map Pass.place).nodup (source.nodup_places_passes tally)

theorem mem_unnamedPlaces_iff (tally : Tally) (place : Place) :
    place ∈ source.unnamedPlaces tally ↔
      ∃ declaration, source.root.Handled place declaration ∧ declaration.Unnamed source.text := by
  simp only [unnamedPlaces, List.mem_map, List.mem_filter, Pass.isUnnamed,
    Option.isNone_iff_eq_none, Declaration.name?_eq_none_iff]
  constructor
  · rintro ⟨pass, ⟨member, unnamed⟩, rfl⟩
    exact ⟨pass.declaration, source.handled_of_mem_passes member, unnamed⟩
  · rintro ⟨declaration, handled, unnamed⟩
    obtain ⟨pass, member, rfl, rfl⟩ := source.exists_pass_of_handled tally handled
    exact ⟨pass, ⟨member, unnamed⟩, rfl⟩

theorem follow_topPasses (tally : Tally) :
    Pass.Follow source tally.anonymous (source.topPasses tally)
      (source.scope tally).2.anonymous := by
  have turn := Pass.follow_inTurn source []
    (Declaration.placedOfScopes source.root.scopePlacesByDepth) tally
  rw [map_snd_placedDeclarations] at turn
  exact turn

theorem block_passes (tally : Tally) :
    Block tally.anonymous (Pass.numbers source (source.passes tally))
      (source.scope tally).2.anonymous :=
  Pass.block_flatMap_of_follow source (source.follow_topPasses tally)
    fun pass _ => pass.block_all source

theorem pairwise_shortlex_topPasses (tally : Tally) :
    (source.topPasses tally).Pairwise fun first second =>
      List.Shortlex (· < ·) first.place second.place := by
  have sorted : ((Declaration.placedOfScopes source.root.scopePlacesByDepth).map
      (Node.under [])).Pairwise fun first second => List.Shortlex (· < ·) first.1 second.1 :=
    List.pairwise_map.mpr (List.pairwise_map.mpr source.root.pairwise_scopePlacesByDepth)
  rw [← Pass.map_inTurn source [] _ tally, List.pairwise_map] at sorted
  exact sorted

theorem mem_all_iff_above {tally : Tally} {pass other : Pass} (member : pass ∈ source.passes tally)
    (otherMember : other ∈ source.passes tally) :
    other ∈ pass.all source ↔ pass.place <+: other.place := by
  refine ⟨Pass.place_le_of_mem_all source, fun above => ?_⟩
  exact Pass.mem_all_of_above_siblings source (source.pairwise_apart_topPasses tally)
    (fun top _ inside otherInside => Pass.mem_all_of_above source inside otherInside above)
    member otherMember above

theorem length_unnamedPlaces (tally : Tally) :
    (source.scope tally).2.anonymous = tally.anonymous + (source.unnamedPlaces tally).length := by
  have taken := source.block_passes tally
  have length := congrArg List.length taken.eq_range
  simp only [Pass.numbers, List.length_map, List.length_range'] at length
  rw [unnamedPlaces, List.length_map, length, Nat.add_sub_cancel' taken.le]

/-- How a run over one file numbers the declarations without a name. -/
structure Numbering (tally : Tally) : Prop where
  /-- Each declaration without a name is listed once. -/
  once : (source.unnamedPlaces tally).Nodup
  listed : ∀ place, place ∈ source.unnamedPlaces tally ↔
    ∃ declaration, source.root.Handled place declaration ∧ declaration.Unnamed source.text
  /-- Each of them takes one number, and its descriptor is named by it. -/
  count : (source.scope tally).2.anonymous = tally.anonymous + (source.unnamedPlaces tally).length
  name : ∀ pass ∈ source.passes tally, pass.declaration.Unnamed source.text →
    (pass.descriptor source).name =
      s!"{pass.declaration.kind.anonymousStem}_{pass.tally.anonymous}"
  /-- The numbers of a declaration and of all below its place are a block. -/
  nested : ∀ pass ∈ source.passes tally, ∀ other ∈ source.passes tally,
    other ∈ pass.all source ↔ pass.place <+: other.place
  block : ∀ pass ∈ source.passes tally,
    Block pass.tally.anonymous (pass.block source) (pass.after source).anonymous
  /-- At file level the blocks follow each other by depth. -/
  fileLevel : (source.topPasses tally).map (Pass.descriptor source) = (source.describeAll tally).1
  fileLevel_order : (source.topPasses tally).Pairwise fun first second =>
    List.Shortlex (· < ·) first.place second.place
  fileLevel_follow : Pass.Follow source tally.anonymous (source.topPasses tally)
    (source.scope tally).2.anonymous
  /-- Inside of a declaration they follow its own number in the order of its visit. -/
  inner : ∀ pass ∈ source.passes tally, (pass.descriptor source).members =
    Members.addAll [] ((pass.inner source).map (Pass.descriptor source))
  inner_order : ∀ pass ∈ source.passes tally, (pass.inner source).Pairwise fun first second =>
    Declaration.Precedes pass.declaration.kind (first.place.drop pass.place.length)
      (second.place.drop pass.place.length)
  inner_follow : ∀ pass ∈ source.passes tally,
    Pass.Follow source (pass.tally.anonymous + if pass.isUnnamed source then 1 else 0)
      (pass.inner source) (pass.after source).anonymous

theorem numbering (tally : Tally) : source.Numbering tally where
  once := source.nodup_unnamedPlaces tally
  listed := source.mem_unnamedPlaces_iff tally
  count := source.length_unnamedPlaces tally
  name := by
    intro pass _ unnamed
    have none := (Declaration.name?_eq_none_iff source.text pass.declaration).mpr unnamed
    exact Pass.name_of_unnamed source none
  nested := by
    intro pass member other otherMember
    exact source.mem_all_iff_above member otherMember
  block := fun pass _ => pass.block_all source
  fileLevel := source.map_descriptor_topPasses tally
  fileLevel_order := source.pairwise_shortlex_topPasses tally
  fileLevel_follow := source.follow_topPasses tally
  inner := fun pass _ => pass.members_descriptor source
  inner_order := fun pass _ => pass.pairwise_precedes_inner source
  inner_follow := by
    intro pass _
    have start := pass.follow_inner source
    rw [Pass.named, Tally.anonymous_nameFor] at start
    exact start

/-! ## The numbers of a run -/

/-- The scopes of files that one run goes through. -/
def scopes : List Source → Tally → List Scope × Tally
  | [], tally => ([], tally)
  | source :: rest, tally =>
    let first := source.scope tally
    let others := scopes rest first.2
    (first.1 :: others.1, others.2)

/-- The numbers that the run gives away, file by file. -/
def runNumbers : List Source → Tally → List Nat
  | [], _ => []
  | source :: rest, tally =>
    Pass.numbers source (source.passes tally) ++ runNumbers rest (source.scope tally).2

theorem block_runNumbers (sources : List Source) (tally : Tally) :
    Block tally.anonymous (runNumbers sources tally) (scopes sources tally).2.anonymous := by
  induction sources generalizing tally with
  | nil => exact Block.empty tally.anonymous
  | cons source rest ih => exact (source.block_passes tally).append (ih (source.scope tally).2)

end Source

/-- A run over files gives the numbers from zero on to the declarations without a name, each number
once.  In each file they are given in blocks, one for each declaration with all that is nested in
it, in the order in which the declarations are visited. -/
theorem unnamed_declarations_are_numbered_in_turn :
    (∀ sources : List Source,
      Source.runNumbers sources .zero =
        List.range (Source.scopes sources .zero).2.anonymous) ∧
      ∀ (source : Source) (tally : Tally), source.Numbering tally := by
  refine ⟨?_, Source.numbering⟩
  intro sources
  rw [(Source.block_runNumbers sources .zero).eq_range, List.range_eq_range']
  rfl

end ScopeGraph
