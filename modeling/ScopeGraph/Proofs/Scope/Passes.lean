import Mathlib.Data.List.Nodup
import ScopeGraph.Proofs.Listing
import ScopeGraph.Proofs.Scope.Placement
import ScopeGraph.Scope.Extract

/-!
# The passes of an extraction

An extraction describes one declaration after the other.  A pass is one such description: the
declaration, its place in the tree and what the run had counted when it began.  The passes of a run
are listed here with every declaration before the ones it holds.  They are the handled declarations,
each once, and every descriptor of the scope is from one of them.
-/
set_option autoImplicit false

namespace ScopeGraph

open Syntax

structure Pass where
  place : Place
  declaration : Declaration
  tally : Tally

namespace Declaration

theorem weight_le_of_mem {declaration : Declaration} {declarations : List Declaration}
    (member : declaration ∈ declarations) : declaration.weight ≤ weightAll declarations := by
  induction declarations with
  | nil => cases member
  | cons head rest ih =>
      simp only [weightAll]
      rcases List.mem_cons.mp member with same | later
      · subst same
        omega
      · have := ih later
        omega

theorem weight_lt_of_mem_inner {holder held : Declaration} (member : held ∈ holder.inner) :
    held.weight < holder.weight :=
  Nat.lt_of_le_of_lt (weight_le_of_mem member) holder.weightAll_inner_lt

end Declaration

namespace Pass

variable (source : Source)

def descriptor (pass : Pass) : Descriptor := (pass.declaration.describe source pass.tally).1

/-- The declarations with their places below `outer`, described in turn. -/
def inTurn (outer : Place) : List (Place × Declaration) → Tally → List Pass
  | [], _ => []
  | (place, declaration) :: rest, tally =>
    ⟨outer ++ place, declaration, tally⟩ ::
      inTurn outer rest (declaration.describe source tally).2

/-- The count once the declaration has its name. -/
def named (pass : Pass) : Tally :=
  (pass.tally.nameFor pass.declaration.kind (pass.declaration.name? source.text)).2

/-- The passes of what the declaration directly holds. -/
def inner (pass : Pass) : List Pass :=
  inTurn source pass.place pass.declaration.placedInner (pass.named source)

theorem map_inTurn (outer : Place) (placed : List (Place × Declaration)) (tally : Tally) :
    (inTurn source outer placed tally).map (fun pass => (pass.place, pass.declaration)) =
      placed.map (Node.under outer) := by
  induction placed generalizing tally with
  | nil => rfl
  | cons head rest ih => simp only [inTurn, List.map_cons, ih, Node.under]

theorem map_descriptor_inTurn (outer : Place) (placed : List (Place × Declaration))
    (tally : Tally) :
    (inTurn source outer placed tally).map (descriptor source) =
      (Declaration.describeAll source (placed.map Prod.snd) tally).1 := by
  induction placed generalizing tally with
  | nil =>
      rw [List.map_nil, Declaration.describeAll]
      rfl
  | cons head rest ih =>
      rw [List.map_cons, Declaration.describeAll, inTurn, List.map_cons, ih]
      rfl

theorem mem_inTurn_iff (outer place : Place) (declaration : Declaration)
    (placed : List (Place × Declaration)) (tally : Tally) :
    (∃ pass ∈ inTurn source outer placed tally,
        pass.place = place ∧ pass.declaration = declaration) ↔
      ∃ inside, (inside, declaration) ∈ placed ∧ place = outer ++ inside := by
  rw [← Declaration.mem_map_under, ← map_inTurn source outer placed tally, List.mem_map]
  simp only [Prod.mk.injEq]

theorem holds_of_mem_inner {pass held : Pass} (member : held ∈ pass.inner source) :
    ∃ further, pass.declaration.Holds further held.declaration ∧
      held.place = pass.place ++ further := by
  obtain ⟨further, inside, place⟩ := (mem_inTurn_iff source pass.place held.place
    held.declaration pass.declaration.placedInner (pass.named source)).mp ⟨held, member, rfl, rfl⟩
  exact ⟨further, (Declaration.mem_placedInner ..).mp inside, place⟩

theorem weight_lt_of_mem_inner {pass held : Pass} (member : held ∈ pass.inner source) :
    held.declaration.weight < pass.declaration.weight := by
  obtain ⟨further, holds, _⟩ := holds_of_mem_inner source member
  have inside := (Declaration.mem_inner_iff pass.declaration held.declaration).mpr ⟨further, holds⟩
  exact Declaration.weight_lt_of_mem_inner inside

/-- A pass and all passes of what the declaration holds, at any depth. -/
def all (pass : Pass) : List Pass :=
  pass :: (pass.inner source).attach.flatMap fun held => all held.1
termination_by pass.declaration.weight
decreasing_by exact weight_lt_of_mem_inner source held.2

theorem all_eq (pass : Pass) :
    pass.all source = pass :: (pass.inner source).flatMap (all source) := by
  rw [all]
  congr 1
  simp [List.flatMap_def]

theorem induction {motive : Pass → Prop}
    (step : ∀ pass, (∀ held ∈ pass.inner source, motive held) → motive pass) :
    ∀ pass, motive pass := by
  intro pass
  induction size : pass.declaration.weight using Nat.strongRecOn generalizing pass with
  | ind bound ih =>
      apply step
      intro held member
      have smaller := weight_lt_of_mem_inner source member
      exact ih held.declaration.weight (by omega) held rfl

theorem self_mem_all (pass : Pass) : pass ∈ pass.all source := by
  rw [all_eq]
  exact List.mem_cons_self

theorem inner_mem_all {pass middle held : Pass} (member : middle ∈ pass.all source)
    (inside : held ∈ middle.inner source) : held ∈ pass.all source := by
  induction pass using induction source with
  | step pass ih =>
      rw [all_eq] at member ⊢
      apply List.mem_cons_of_mem
      rcases List.mem_cons.mp member with same | below
      · subst same
        exact List.mem_flatMap.mpr ⟨held, inside, held.self_mem_all source⟩
      · obtain ⟨direct, directMember, within⟩ := List.mem_flatMap.mp below
        exact List.mem_flatMap.mpr ⟨direct, directMember, ih direct directMember within⟩

theorem held_of_mem_all {pass other : Pass} (member : other ∈ pass.all source) :
    other = pass ∨ ∃ holder ∈ pass.all source, other ∈ holder.inner source := by
  induction pass using induction source with
  | step pass ih =>
      rw [all_eq] at member ⊢
      rcases List.mem_cons.mp member with same | below
      · exact .inl same
      · right
        obtain ⟨held, inside, within⟩ := List.mem_flatMap.mp below
        rcases ih held inside within with same | ⟨holder, deeper, holds⟩
        · subst same
          exact ⟨pass, List.mem_cons_self, inside⟩
        · have lower := List.mem_flatMap.mpr ⟨held, inside, deeper⟩
          exact ⟨holder, List.mem_cons_of_mem _ lower, holds⟩

theorem place_le_of_mem_all {pass other : Pass} (member : other ∈ pass.all source) :
    pass.place <+: other.place := by
  induction pass using induction source with
  | step pass ih =>
      rw [all_eq] at member
      rcases List.mem_cons.mp member with same | below
      · subst same
        exact List.prefix_rfl
      · obtain ⟨held, inside, within⟩ := List.mem_flatMap.mp below
        obtain ⟨further, _, place⟩ := holds_of_mem_inner source inside
        have later := ih held inside within
        rw [place] at later
        exact (List.prefix_append _ _).trans later

/-! ## Each declaration once -/

theorem pairwise_inTurn {related : Place → Place → Prop} (outer : Place)
    {placed : List (Place × Declaration)} (tally : Tally)
    (under : (placed.map (Node.under outer)).Pairwise fun first second =>
      related first.1 second.1) :
    (inTurn source outer placed tally).Pairwise fun first second =>
      related first.place second.place := by
  rw [← map_inTurn source outer placed tally, List.pairwise_map] at under
  exact under

theorem pairwise_apart_inTurn (outer : Place) {placed : List (Place × Declaration)} (tally : Tally)
    (apart : placed.Pairwise fun first second => Place.Apart first.1 second.1) :
    (inTurn source outer placed tally).Pairwise fun first second =>
      Place.Apart first.place second.place :=
  pairwise_inTurn source outer tally (Declaration.pairwise_apart_under outer apart)

theorem pairwise_apart_inner (pass : Pass) :
    (pass.inner source).Pairwise fun first second => Place.Apart first.place second.place :=
  pairwise_apart_inTurn source pass.place _ pass.declaration.pairwise_apart_placedInner

theorem nodup_places_flatMap_all {passes : List Pass}
    (each : ∀ pass ∈ passes, ((pass.all source).map place).Nodup)
    (apart : passes.Pairwise fun first second => Place.Apart first.place second.place) :
    ((passes.flatMap (all source)).map place).Nodup := by
  rw [List.map_flatMap, List.nodup_flatMap]
  refine ⟨each, apart.imp ?_⟩
  intro first second here
  refine List.disjoint_left.mpr ?_
  intro shared left right
  obtain ⟨leftPass, leftMember, rfl⟩ := List.mem_map.mp left
  obtain ⟨rightPass, rightMember, same⟩ := List.mem_map.mp right
  have firstAbove := place_le_of_mem_all source leftMember
  have secondAbove := place_le_of_mem_all source rightMember
  rw [same] at secondAbove
  -- A place in both parts is below both passes, and one of them would be above the other.
  rcases List.prefix_or_prefix_of_prefix firstAbove secondAbove with above | above
  · exact here.1 above
  · exact here.2 above

theorem nodup_places_all (pass : Pass) : ((pass.all source).map place).Nodup := by
  induction pass using induction source with
  | step pass ih =>
      have below := nodup_places_flatMap_all source ih (pass.pairwise_apart_inner source)
      rw [all_eq, List.map_cons]
      refine List.nodup_cons.mpr ⟨?_, below⟩
      intro again
      obtain ⟨other, lower, same⟩ := List.mem_map.mp again
      obtain ⟨held, inside, within⟩ := List.mem_flatMap.mp lower
      obtain ⟨further, holds, place⟩ := holds_of_mem_inner source inside
      have above := place_le_of_mem_all source within
      rw [same, place] at above
      have short := above.length_le
      rw [List.length_append] at short
      exact holds.place_ne_nil (List.length_eq_zero_iff.mp (by omega))

theorem handled_of_mem_all {root : Node} {pass other : Pass}
    (handled : root.Handled pass.place pass.declaration) (member : other ∈ pass.all source) :
    root.Handled other.place other.declaration := by
  induction pass using induction source with
  | step pass ih =>
      rw [all_eq] at member
      rcases List.mem_cons.mp member with same | below
      · rw [same]
        exact handled
      · obtain ⟨held, inside, within⟩ := List.mem_flatMap.mp below
        obtain ⟨further, holds, place⟩ := holds_of_mem_inner source inside
        refine ih held inside ?_ within
        rw [place]
        exact .held handled holds

/-! ## Calls without a name -/

theorem unresolved_nameFor (tally : Tally) (kind : DeclKind) (name? : Option String) :
    (tally.nameFor kind name?).2.unresolved = tally.unresolved := by
  cases name? <;> rfl

/-- The calls without a name of a list of passes. -/
def unresolved (passes : List Pass) : Nat :=
  (passes.map fun pass => pass.declaration.unresolvedCalls source).sum

theorem unresolved_append (first second : List Pass) :
    unresolved source (first ++ second) = unresolved source first + unresolved source second := by
  simp [unresolved]

theorem unresolved_describeAll (outer : Place) (placed : List (Place × Declaration)) (tally : Tally)
    (each : ∀ pass ∈ inTurn source outer placed tally,
      (pass.declaration.describe source pass.tally).2.unresolved =
        pass.tally.unresolved + unresolved source (pass.all source)) :
    (Declaration.describeAll source (placed.map Prod.snd) tally).2.unresolved =
      tally.unresolved +
        unresolved source ((inTurn source outer placed tally).flatMap (all source)) := by
  induction placed generalizing tally with
  | nil =>
      rw [List.map_nil, Declaration.describeAll]
      rfl
  | cons head rest ih =>
      have here := each _ List.mem_cons_self
      have later := ih (head.2.describe source tally).2 fun pass member =>
        each pass (List.mem_cons_of_mem _ member)
      rw [List.map_cons, Declaration.describeAll, inTurn, List.flatMap_cons, unresolved_append]
      dsimp only at here later ⊢
      omega

theorem unresolved_describe (pass : Pass) :
    (pass.declaration.describe source pass.tally).2.unresolved =
      pass.tally.unresolved + unresolved source (pass.all source) := by
  induction pass using induction source with
  | step pass ih =>
      have below := unresolved_describeAll source pass.place pass.declaration.placedInner
        (pass.named source) ih
      have start : (pass.named source).unresolved = pass.tally.unresolved := unresolved_nameFor ..
      have whole : unresolved source (pass.all source) =
          pass.declaration.unresolvedCalls source +
            unresolved source ((pass.inner source).flatMap (all source)) := by
        rw [all_eq]
        simp [unresolved]
      rw [Declaration.map_snd_placedInner, start] at below
      rw [Declaration.describe, whole]
      simp only [Tally.addUnresolved, inner] at below ⊢
      change (Declaration.describeAll source pass.declaration.inner
        (pass.named source)).2.unresolved + pass.declaration.unresolvedCalls source = _
      omega

end Pass

/-! ## The passes of a file -/

namespace Source

variable (source : Source)

/-- The passes of the declarations at file level. -/
def topPasses (tally : Tally) : List Pass :=
  Pass.inTurn source [] (Declaration.placedOfScopes source.root.scopePlacesByDepth) tally

/-- All passes of a run over the file. -/
def passes (tally : Tally) : List Pass := (source.topPasses tally).flatMap (Pass.all source)

theorem map_snd_placedDeclarations :
    (Declaration.placedOfScopes source.root.scopePlacesByDepth).map Prod.snd =
      source.declarations := by
  rw [Declaration.map_snd_placedOfScopes, Node.map_snd_scopePlacesByDepth]
  rfl

theorem map_descriptor_topPasses (tally : Tally) :
    (source.topPasses tally).map (Pass.descriptor source) = (source.describeAll tally).1 := by
  rw [topPasses, Pass.map_descriptor_inTurn, map_snd_placedDeclarations]
  rfl

theorem mem_topPasses_iff (tally : Tally) (place : Place) (declaration : Declaration) :
    (∃ pass ∈ source.topPasses tally, pass.place = place ∧ pass.declaration = declaration) ↔
      ∃ node, source.root.Frontier place node ∧ declaration = .ofScope node := by
  rw [topPasses, Pass.mem_inTurn_iff]
  simp only [List.nil_append, exists_eq_right', Declaration.mem_placedOfScopes,
    Node.mem_scopePlacesByDepth]

theorem top_mem_passes {tally : Tally} {pass : Pass} (top : pass ∈ source.topPasses tally) :
    pass ∈ source.passes tally :=
  List.mem_flatMap.mpr ⟨pass, top, pass.self_mem_all source⟩

theorem inner_mem_passes {tally : Tally} {pass held : Pass} (member : pass ∈ source.passes tally)
    (inside : held ∈ pass.inner source) : held ∈ source.passes tally := by
  obtain ⟨top, topMember, below⟩ := List.mem_flatMap.mp member
  exact List.mem_flatMap.mpr ⟨top, topMember, Pass.inner_mem_all source below inside⟩

theorem pairwise_apart_topPasses (tally : Tally) :
    (source.topPasses tally).Pairwise fun first second =>
      Place.Apart first.place second.place :=
  Pass.pairwise_apart_inTurn source [] tally
    (Declaration.pairwise_apart_placedOfScopes source.root.pairwise_apart_scopePlacesByDepth)

theorem nodup_places_passes (tally : Tally) : ((source.passes tally).map Pass.place).Nodup :=
  Pass.nodup_places_flatMap_all source (fun pass _ => pass.nodup_places_all source)
    (source.pairwise_apart_topPasses tally)

theorem handled_of_mem_passes {tally : Tally} {pass : Pass} (member : pass ∈ source.passes tally) :
    source.root.Handled pass.place pass.declaration := by
  obtain ⟨top, topMember, below⟩ := List.mem_flatMap.mp member
  obtain ⟨node, reached, declared⟩ := (source.mem_topPasses_iff tally top.place
    top.declaration).mp ⟨top, topMember, rfl, rfl⟩
  refine Pass.handled_of_mem_all source ?_ below
  rw [declared]
  exact .fileLevel reached

theorem exists_pass_of_handled {place : Place} {declaration : Declaration} (tally : Tally)
    (handled : source.root.Handled place declaration) :
    ∃ pass ∈ source.passes tally, pass.place = place ∧ pass.declaration = declaration := by
  induction handled with
  | fileLevel reached =>
      obtain ⟨pass, top, same⟩ := (source.mem_topPasses_iff tally _ _).mpr ⟨_, reached, rfl⟩
      exact ⟨pass, source.top_mem_passes top, same⟩
  | @held place further holder held outer holds ih =>
      obtain ⟨pass, member, rfl, rfl⟩ := ih
      have placed := (Declaration.mem_placedInner pass.declaration further held).mpr holds
      obtain ⟨inner, inside, same⟩ := (Pass.mem_inTurn_iff source pass.place (pass.place ++ further)
        held pass.declaration.placedInner (pass.named source)).mpr ⟨further, placed, rfl⟩
      exact ⟨inner, source.inner_mem_passes member inside, same⟩

theorem unresolved_scope (tally : Tally) :
    (source.scope tally).2.unresolved =
      tally.unresolved + Pass.unresolved source (source.passes tally) := by
  have counted := Pass.unresolved_describeAll source []
    (Declaration.placedOfScopes source.root.scopePlacesByDepth) tally
    (fun pass _ => pass.unresolved_describe source)
  rw [map_snd_placedDeclarations] at counted
  exact counted

end Source

/-! ## Descriptors come from passes -/

/-- The scope holds the descriptor, at any depth. -/
inductive Scope.Has (scope : Scope) : Descriptor → Prop where
  | function {name : String} {descriptor : Descriptor}
      (held : (name, descriptor) ∈ scope.functions) : Has scope descriptor
  | classDecl {name : String} {descriptor : Descriptor}
      (held : (name, descriptor) ∈ scope.classes) : Has scope descriptor
  | member {owner descriptor : Descriptor} {name : String} (outer : Has scope owner)
      (held : (name, descriptor) ∈ owner.members) : Has scope descriptor

theorem Members.mem_addAll {descriptors : List Descriptor} {name : String}
    {descriptor : Descriptor} (member : (name, descriptor) ∈ Members.addAll [] descriptors) :
    name = descriptor.name ∧ descriptor ∈ descriptors := by
  rcases Listing.mem_setAll member with added | old
  · obtain ⟨found, inside, same⟩ := List.mem_map.mp added
    cases same
    exact ⟨rfl, inside⟩
  · cases old

theorem Pass.descriptor_eq (source : Source) (pass : Pass) :
    pass.descriptor source = pass.declaration.descriptor source
      (pass.tally.nameFor pass.declaration.kind (pass.declaration.name? source.text)).1
      ((pass.inner source).map (Pass.descriptor source)) := by
  rw [inner, map_descriptor_inTurn, Declaration.map_snd_placedInner, descriptor,
    Declaration.describe]
  rfl

theorem Pass.members_descriptor (source : Source) (pass : Pass) :
    (pass.descriptor source).members =
      Members.addAll [] ((pass.inner source).map (Pass.descriptor source)) := by
  rw [descriptor_eq]
  rfl

/-- A member of a descriptor is under its own name and from one of the inner passes. -/
theorem Pass.of_mem_members {source : Source} {pass : Pass} {name : String}
    {descriptor : Descriptor} (held : (name, descriptor) ∈ (pass.descriptor source).members) :
    name = descriptor.name ∧ ∃ inner ∈ pass.inner source, descriptor = inner.descriptor source := by
  rw [members_descriptor] at held
  obtain ⟨key, inside⟩ := Members.mem_addAll held
  obtain ⟨inner, member, same⟩ := List.mem_map.mp inside
  exact ⟨key, inner, member, same.symm⟩

theorem Source.exists_pass_of_has {source : Source} {tally : Tally} {descriptor : Descriptor}
    (has : (source.scope tally).1.Has descriptor) :
    ∃ pass ∈ source.passes tally, descriptor = pass.descriptor source := by
  have top : ∀ found ∈ (source.describeAll tally).1,
      ∃ pass ∈ source.passes tally, found = pass.descriptor source := by
    intro found described
    rw [← source.map_descriptor_topPasses] at described
    obtain ⟨pass, member, same⟩ := List.mem_map.mp described
    exact ⟨pass, source.top_mem_passes member, same.symm⟩
  induction has with
  | function held => exact top _ (List.mem_filter.mp (Members.mem_addAll held).2).1
  | classDecl held => exact top _ (List.mem_filter.mp (Members.mem_addAll held).2).1
  | member outer held ih =>
      obtain ⟨pass, member, same⟩ := ih
      rw [same] at held
      obtain ⟨_, inner, inside, found⟩ := Pass.of_mem_members held
      exact ⟨inner, source.inner_mem_passes member inside, found⟩

end ScopeGraph
