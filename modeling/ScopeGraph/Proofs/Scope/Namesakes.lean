import ScopeGraph.Proofs.Scope.Numbering
import ScopeGraph.Proofs.Scope.Traversal

/-!
# Made-up names and their namesakes

Made-up names never repeat, for no two declarations without a name take the same number.  But the
text may give such a name to a declaration of the same container.  Then the two share one entry, and
of all the namesakes only the last one is left.
-/
set_option autoImplicit false

namespace ScopeGraph

open Syntax

/-! ## Made-up names differ -/

theorem toString_nat_inj {first second : Nat} (same : toString first = toString second) :
    first = second := by
  have digits := congrArg (fun text => Nat.ofDigitChars 10 text.toList 0) same
  simpa [Nat.toString_eq_ofList_toDigits] using digits

theorem DeclKind.anonymousStem_cases (kind : DeclKind) :
    kind.anonymousStem = "anonymous_class" ∨ kind.anonymousStem = "anonymous_function" := by
  cases kind <;> simp [anonymousStem]

theorem Tally.nextName_inj {first second : Tally} {kind other : DeclKind}
    (same : (first.nextName kind).1 = (second.nextName other).1) :
    first.anonymous = second.anonymous := by
  have classes : (toString "anonymous_class").toList =
      "anonymous_".toList ++ 'c' :: "lass".toList := by decide
  have functions : (toString "anonymous_function").toList =
      "anonymous_".toList ++ 'f' :: "unction".toList := by decide
  have texts := congrArg String.toList same
  apply toString_nat_inj
  apply String.toList_injective
  -- The two stems part at the letter after their common start, and behind equal stems only the
  -- digits are left.
  rcases kind.anonymousStem_cases with stem | stem <;>
    rcases other.anonymousStem_cases with otherStem | otherStem <;>
    simp only [nextName, stem, otherStem, String.toList_append, classes, functions] at texts
  · simpa using texts
  · simp at texts
  · simp at texts
  · simpa using texts

namespace Pass

variable (source : Source)

/-- The passes of the declarations to which the text gives the name. -/
def namesakes (name : String) (passes : List Pass) : List Pass :=
  passes.filter (·.declaration.name? source.text = some name)

theorem name_of_name? {pass : Pass} {name : String}
    (named : pass.declaration.name? source.text = some name) :
    (pass.descriptor source).name = name := by
  rw [descriptor_eq, named]
  rfl

theorem kind_descriptor (pass : Pass) :
    (pass.descriptor source).kind = pass.declaration.kind := by
  rw [descriptor_eq]
  rfl

end Pass

/-- Within a file no two declarations without a name are called the same. -/
theorem Source.eq_of_unnamed_of_name {source : Source} {tally : Tally} {first second : Pass}
    (firstMember : first ∈ source.passes tally) (secondMember : second ∈ source.passes tally)
    (firstUnnamed : first.declaration.name? source.text = none)
    (secondUnnamed : second.declaration.name? source.text = none)
    (same : (first.descriptor source).name = (second.descriptor source).name) : first = second := by
  rw [Pass.name_of_unnamed source firstUnnamed, Pass.name_of_unnamed source secondUnnamed] at same
  have numbers : (Pass.numbers source (source.passes tally)).Nodup := by
    rw [(source.block_passes tally).eq_range]
    exact List.nodup_range'
  refine List.inj_on_of_nodup_map numbers ?_ ?_ (Tally.nextName_inj same)
  · exact List.mem_filter.mpr ⟨firstMember, by simp [Pass.isUnnamed, firstUnnamed]⟩
  · exact List.mem_filter.mpr ⟨secondMember, by simp [Pass.isUnnamed, secondUnnamed]⟩

/-! ## Containers -/

/-- Below the declaration of the pass one walk by depth meets both places. -/
def Pass.Together (pass : Pass) (first second : Place) : Prop :=
  pass.declaration.kind.WalksByDepth (first.drop pass.place.length)
    (second.drop pass.place.length)

/-- The container is filled by the passes, in this order, and one walk by depth meets those that are
`together`.  At file level functions and classes have a container each, and every handled
declaration has one for what it holds. -/
inductive Source.Walks (source : Source) (tally : Tally) :
    (Place → Place → Prop) → List Pass → Members → Prop where
  | functions : Walks source tally (fun _ _ => True)
      ((source.topPasses tally).filter (·.declaration.kind ≠ .classDecl))
      (source.scope tally).1.functions
  | classes : Walks source tally (fun _ _ => True)
      ((source.topPasses tally).filter (·.declaration.kind = .classDecl))
      (source.scope tally).1.classes
  | members {pass : Pass} (handled : pass ∈ source.passes tally) :
      Walks source tally pass.Together (pass.inner source) (pass.descriptor source).members

/-- The container is filled by the passes, in this order. -/
def Source.Fills (source : Source) (tally : Tally) (passes : List Pass) (members : Members) :
    Prop :=
  ∃ together, source.Walks tally together passes members

theorem Source.filter_describeAll (source : Source) (tally : Tally) (keeps : DeclKind → Bool) :
    (source.describeAll tally).1.filter (keeps ·.kind) =
      ((source.topPasses tally).filter (keeps ·.declaration.kind)).map
        (Pass.descriptor source) := by
  rw [← source.map_descriptor_topPasses, List.filter_map]
  congr 2
  funext pass
  exact congrArg keeps (pass.kind_descriptor source)

namespace Source.Walks

variable {source : Source} {tally : Tally} {together : Place → Place → Prop} {passes : List Pass}
  {members : Members}

theorem members_eq (walked : source.Walks tally together passes members) :
    members = Members.addAll [] (passes.map (Pass.descriptor source)) := by
  cases walked with
  | functions =>
      exact congrArg (Members.addAll []) (source.filter_describeAll tally (· ≠ .classDecl))
  | classes =>
      exact congrArg (Members.addAll []) (source.filter_describeAll tally (· = .classDecl))
  | members handled => exact Pass.members_descriptor source _

/-- Of all who are called the same the last one is left. -/
theorem get?_eq (walked : source.Walks tally together passes members) (name : String) :
    members.get? name =
      (passes.filter fun pass => (pass.descriptor source).name = name).getLast?.map
        (Pass.descriptor source) := by
  have last := (Members.extendedBy_addAll [] (passes.map (Pass.descriptor source))).last name
  rw [walked.members_eq, last, List.filter_map, List.getLast?_map]
  exact Option.or_none

theorem mem_passes (walked : source.Walks tally together passes members) {pass : Pass}
    (inside : pass ∈ passes) : pass ∈ source.passes tally := by
  cases walked with
  | functions => exact source.top_mem_passes (List.mem_filter.mp inside).1
  | classes => exact source.top_mem_passes (List.mem_filter.mp inside).1
  | members handled => exact source.inner_mem_passes handled inside

theorem pairwise_apart (walked : source.Walks tally together passes members) :
    passes.Pairwise fun first second => Place.Apart first.place second.place := by
  have top := source.pairwise_apart_topPasses tally
  cases walked with
  | functions => exact top.sublist List.filter_sublist
  | classes => exact top.sublist List.filter_sublist
  | members handled => exact Pass.pairwise_apart_inner source _

theorem nodup (walked : source.Walks tally together passes members) : passes.Nodup := by
  refine walked.pairwise_apart.imp ?_
  rintro first second ⟨above, _⟩ rfl
  exact above List.prefix_rfl

section Unnamed

variable {before after : List Pass} {pass : Pass}

theorem mem_passes_of_beside
    (walked : source.Walks tally together (before ++ pass :: after) members)
    {other : Pass} (beside : other ∈ before ++ after) : other ∈ source.passes tally := by
  apply walked.mem_passes
  rw [List.mem_append, List.mem_cons]
  exact (List.mem_append.mp beside).imp_right .inr

/-- Beside a declaration without a name only a declared name can be the same. -/
theorem name_eq_iff (walked : source.Walks tally together (before ++ pass :: after) members)
    (unnamed : pass.declaration.name? source.text = none) {other : Pass}
    (beside : other ∈ before ++ after) :
    (other.descriptor source).name = (pass.descriptor source).name ↔
      other.declaration.name? source.text = some (pass.descriptor source).name := by
  cases declared : other.declaration.name? source.text with
  | some name => rw [Pass.name_of_name? source declared, Option.some.injEq]
  | none =>
      refine iff_of_false ?_ nofun
      intro same
      have member : pass ∈ source.passes tally := walked.mem_passes (by simp)
      have one := eq_of_unnamed_of_name (walked.mem_passes_of_beside beside) member declared unnamed
        same
      rw [one] at beside
      exact (List.nodup_middle.mp walked.nodup).notMem beside

theorem filter_name_eq (walked : source.Walks tally together (before ++ pass :: after) members)
    (unnamed : pass.declaration.name? source.text = none) {others : List Pass}
    (beside : ∀ other ∈ others, other ∈ before ++ after) :
    others.filter (fun other => (other.descriptor source).name = (pass.descriptor source).name) =
      Pass.namesakes source (pass.descriptor source).name others := by
  refine List.filter_congr ?_
  intro other member
  exact decide_eq_decide.mpr (walked.name_eq_iff unnamed (beside other member))

/-- Of all who share a made-up name the last one is left. -/
theorem get?_name (walked : source.Walks tally together (before ++ pass :: after) members)
    (unnamed : pass.declaration.name? source.text = none) :
    members.get? (pass.descriptor source).name =
      some (((Pass.namesakes source (pass.descriptor source).name after).getLast?.getD
        pass).descriptor source) := by
  have later := walked.filter_name_eq unnamed fun other => List.mem_append_right before
  rw [walked.get?_eq]
  simp only [List.filter_append, List.filter_cons, decide_true, if_true, later,
    List.getLast?_append, List.getLast?_cons, Option.some_or, Option.map_some]

theorem forall_name_ne_iff (walked : source.Walks tally together (before ++ pass :: after) members)
    (unnamed : pass.declaration.name? source.text = none) :
    (∀ other ∈ before ++ after, (other.descriptor source).name ≠ (pass.descriptor source).name) ↔
      Pass.namesakes source (pass.descriptor source).name (before ++ after) = [] := by
  rw [← walked.filter_name_eq unnamed fun _ => id, List.filter_eq_nil_iff]
  simp only [decide_eq_true_eq, ne_eq]

end Unnamed
end Source.Walks

/-- Every pass fills a container. -/
theorem Source.Fills.of_mem_passes {source : Source} {tally : Tally} {pass : Pass}
    (handled : pass ∈ source.passes tally) :
    ∃ before after members, source.Fills tally (before ++ pass :: after) members := by
  have placed : ∃ passes members, source.Fills tally passes members ∧ pass ∈ passes := by
    obtain ⟨top, topMember, below⟩ := List.mem_flatMap.mp handled
    rcases Pass.held_of_mem_all source below with same | ⟨holder, within, held⟩
    · subst same
      by_cases isClass : pass.declaration.kind = .classDecl
      · exact ⟨_, _, ⟨_, .classes⟩, List.mem_filter.mpr ⟨topMember, by simpa using isClass⟩⟩
      · exact ⟨_, _, ⟨_, .functions⟩, List.mem_filter.mpr ⟨topMember, by simpa using isClass⟩⟩
    · exact ⟨_, _, ⟨_, .members (List.mem_flatMap.mpr ⟨top, topMember, within⟩)⟩, held⟩
  obtain ⟨passes, members, filled, inside⟩ := placed
  obtain ⟨before, after, rfl⟩ := List.append_of_mem inside
  exact ⟨before, after, members, filled⟩

/-- A declaration without a name has an entry of its own exactly where the text gives the made-up
name to none of its neighbours; otherwise the entry is that of the last who is called so. -/
theorem made_up_name_is_kept_unless_declared {source : Source} {tally : Tally} {pass : Pass}
    (handled : pass ∈ source.passes tally) (unnamed : pass.declaration.Unnamed source.text) :
    let name := (pass.descriptor source).name
    (∃ before after members, source.Fills tally (before ++ pass :: after) members) ∧
      ∀ before after members, source.Fills tally (before ++ pass :: after) members →
        ((members.get? name = some (pass.descriptor source) ∧
            ∀ other ∈ before ++ after, (other.descriptor source).name ≠ name) ↔
          Pass.namesakes source name (before ++ after) = []) ∧
        members.get? name =
          some (((Pass.namesakes source name after).getLast?.getD pass).descriptor source) := by
  intro name
  refine ⟨Source.Fills.of_mem_passes handled, ?_⟩
  rintro before after members ⟨together, walked⟩
  rw [← Declaration.name?_eq_none_iff] at unnamed
  have entry := walked.get?_name unnamed
  have others := walked.forall_name_ne_iff unnamed
  refine ⟨⟨fun own => others.mp own.2, fun none => ⟨?_, others.mpr none⟩⟩, entry⟩
  have noneLater : Pass.namesakes source name after = [] := by
    rw [Pass.namesakes, List.filter_append, List.append_eq_nil_iff] at none
    exact none.2
  rw [entry, noneLater]
  rfl

/-- A function that holds one without a name and then one called `anonymous_function_` and a
digit. -/
def calledByNumber (text : String) : Source where
  path := "app.js"
  text := text
  root :=
    ⟨.other "program", none, ⟨0, 65⟩, true, false, false,
      [⟨.functionDeclaration, none, ⟨0, 65⟩, true, false, false,
        [⟨.identifier, some .name, ⟨9, 10⟩, true, false, false, []⟩,
          ⟨.other "formal_parameters", none, ⟨10, 12⟩, true, false, false, []⟩,
          ⟨.other "statement_block", some .body, ⟨13, 65⟩, true, false, false,
            [⟨.expressionStatement, none, ⟨15, 28⟩, true, false, false,
              [⟨.callExpression, none, ⟨15, 27⟩, true, false, false,
                [⟨.parenthesizedExpression, some .function, ⟨15, 25⟩, true, false, false,
                    [⟨.arrowFunction, none, ⟨16, 24⟩, true, false, false,
                      [⟨.other "formal_parameters", none, ⟨16, 18⟩, true, false, false, []⟩,
                        ⟨.other "statement_block", some .body, ⟨22, 24⟩, true, false, false,
                          []⟩]⟩]⟩,
                  ⟨.other "arguments", none, ⟨25, 27⟩, true, false, false, []⟩]⟩]⟩,
              ⟨.functionDeclaration, none, ⟨29, 63⟩, true, false, false,
                [⟨.identifier, some .name, ⟨38, 58⟩, true, false, false, []⟩,
                  ⟨.other "formal_parameters", none, ⟨58, 60⟩, true, false, false, []⟩,
                  ⟨.other "statement_block", some .body, ⟨61, 63⟩, true, false, false,
                    []⟩]⟩]⟩]⟩]⟩
  comments := []

def freeNumber : Source := calledByNumber
  "function f() \x7b (() => \x7b\x7d)(); function anonymous_function_1() \x7b\x7d \x7d"

def takenNumber : Source := calledByNumber
  "function f() \x7b (() => \x7b\x7d)(); function anonymous_function_0() \x7b\x7d \x7d"

theorem made_up_name_is_kept_beside_another_number :
    ∃ pass ∈ freeNumber.passes .zero, pass.declaration.Unnamed freeNumber.text ∧
      ∃ before after members, freeNumber.Fills .zero (before ++ pass :: after) members ∧
        members.get? "anonymous_function_0" = some (pass.descriptor freeNumber) := by
  obtain ⟨pass, handled, unnamed, name⟩ : ∃ pass ∈ freeNumber.passes .zero,
      pass.declaration.name? freeNumber.text = none ∧
      (pass.descriptor freeNumber).name = "anonymous_function_0" := by
    decide +kernel
  have undeclared : Pass.namesakes freeNumber "anonymous_function_0"
      (freeNumber.passes .zero) = [] := by
    rw [← List.isEmpty_iff]
    decide +kernel
  rw [Declaration.name?_eq_none_iff] at unnamed
  obtain ⟨⟨before, after, members, together, walked⟩, kept⟩ :=
    made_up_name_is_kept_unless_declared handled unnamed
  have own := (kept before after members ⟨together, walked⟩).1.mpr
  rw [name] at own
  refine ⟨pass, handled, unnamed, before, after, members, ⟨together, walked⟩, (own ?_).1⟩
  refine List.filter_eq_nil_iff.mpr ?_
  intro other beside
  exact List.filter_eq_nil_iff.mp undeclared other (walked.mem_passes_of_beside beside)

theorem made_up_name_is_lost_to_the_declared_one :
    ∃ holder ∈ takenNumber.passes .zero, ∃ held ∈ holder.inner takenNumber,
      held.declaration.name? takenNumber.text = none ∧
      ∀ member ∈ (holder.descriptor takenNumber).members,
        member.2.code ≠ (held.descriptor takenNumber).code := by
  decide +kernel

end ScopeGraph
