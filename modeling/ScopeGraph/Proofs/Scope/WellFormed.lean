import ScopeGraph.Proofs.Scope.CallChain
import ScopeGraph.Proofs.Scope.Passes
import ScopeGraph.Proofs.Text.Slice

/-!
# Well-formed scopes

What every descriptor of an extracted scope satisfies, however deep it stands.  Each descriptor is
that of a pass, so it is enough to look at one pass and the passes inside of it.  Lines and texts of
members are parts of those of their owner because the spans of the tree are nested.
-/
set_option autoImplicit false

namespace ScopeGraph

open Syntax

namespace Syntax.Node

mutual

/-- Every node covers a span of the text, from character to character, and its children cover parts
of that span. -/
def nested (text : String) : Node → Bool
  | ⟨_, _, span, _, _, _, children⟩ =>
    (Text.cut text.toList span).isSome && nestedWithin text span children

def nestedWithin (text : String) (outer : Span) : List Node → Bool
  | [] => true
  | node :: rest =>
    decide (node.span.Within outer) && node.nested text && nestedWithin text outer rest

end

theorem nestedWithin_iff (text : String) (outer : Span) (nodes : List Node) :
    nestedWithin text outer nodes ↔ ∀ node ∈ nodes, node.span.Within outer ∧ node.nested text := by
  induction nodes with
  | nil => simp [nestedWithin]
  | cons node rest ih => simp [nestedWithin, ih]

theorem nested_iff (text : String) (node : Node) :
    node.nested text ↔ (Text.cut text.toList node.span).isSome ∧
      ∀ child ∈ node.children, child.span.Within node.span ∧ child.nested text := by
  obtain ⟨kind, field, span, named, faulty, flagged, children⟩ := node
  rw [nested, Bool.and_eq_true, nestedWithin_iff]

theorem nested_at? {text : String} {node target : Node} {place : Place} (nested : node.nested text)
    (stands : node.at? place = some target) :
    target.nested text ∧ target.span.Within node.span := by
  induction place generalizing node with
  | nil =>
      cases stands
      exact ⟨nested, Span.Within.refl _⟩
  | cons i place ih =>
      obtain ⟨child, found, below⟩ := Option.bind_eq_some_iff.mp stands
      obtain ⟨within, childNested⟩ :=
        ((node.nested_iff text).mp nested).2 child (List.mem_of_getElem? found)
      obtain ⟨targetNested, inside⟩ := ih childNested below
      exact ⟨targetNested, inside.trans within⟩

end Syntax.Node

/-! ## Well-formedness -/

/-- A descriptor from the file at `path`, with the members it owns. -/
structure Descriptor.WellFormed (path : String) (owner : Descriptor) : Prop where
  name_ne_empty : owner.name ≠ ""
  sourcePath_eq : owner.sourcePath = path
  lines : 1 ≤ owner.lineStart ∧ owner.lineStart ≤ owner.lineEnd
  chains_ne_nil : ∀ chain ∈ owner.chains, chain.segments ≠ []
  chains_differ : owner.chains.Pairwise fun first second => ¬ first.segments.Perm second.segments
  class_calls_nothing : owner.kind = .classDecl → owner.chains = []
  member_key : ∀ key member, (key, member) ∈ owner.members → key = member.name
  method_in_class : ∀ key member, (key, member) ∈ owner.members → member.kind = .method →
    owner.kind = .classDecl
  others_hold_scopes : owner.kind ≠ .classDecl → ∀ key member, (key, member) ∈ owner.members →
    member.kind = .function ∨ member.kind = .classDecl
  member_lines : ∀ key member, (key, member) ∈ owner.members →
    owner.lineStart ≤ member.lineStart ∧ member.lineEnd ≤ owner.lineEnd
  member_code : ∀ key member, (key, member) ∈ owner.members →
    ∃ before after, owner.code = before ++ member.code ++ after

/-- A scope of the file at `path`.  At file level there are functions and classes only, each under
its name; below, every descriptor is well formed. -/
structure Scope.WellFormed (path : String) (scope : Scope) : Prop where
  sourcePath_eq : scope.sourcePath = path
  functions : ∀ key descriptor, (key, descriptor) ∈ scope.functions →
    key = descriptor.name ∧ descriptor.kind = .function
  classes : ∀ key descriptor, (key, descriptor) ∈ scope.classes →
    key = descriptor.name ∧ descriptor.kind = .classDecl
  descriptors : ∀ descriptor, scope.Has descriptor → descriptor.WellFormed path

/-! ## One declaration -/

theorem Tally.nextName_ne_empty (tally : Tally) (kind : DeclKind) :
    (tally.nextName kind).1 ≠ "" := by
  intro empty
  have length := congrArg String.length empty
  simp [nextName] at length

namespace Declaration

theorem declaredName?_of_name? {text name : String} {declaration : Declaration}
    (found : declaration.name? text = some name) :
    declaration.node.declaredName? text = some name := by
  unfold name? at found
  split at found
  · exact found
  · split at found
    · cases found
    · exact found
  · split at found
    · cases found
    · exact found

theorem name?_ne_empty {text name : String} {declaration : Declaration}
    (found : declaration.name? text = some name) : name ≠ "" := by
  have kept := (Option.filter_eq_some_iff.mp (declaredName?_of_name? found)).2
  simpa using kept

theorem nameFor_ne_empty (declaration : Declaration) (text : String) (tally : Tally) :
    (tally.nameFor declaration.kind (declaration.name? text)).1 ≠ "" := by
  cases found : declaration.name? text with
  | none => exact tally.nextName_ne_empty declaration.kind
  | some name => exact name?_ne_empty found

variable (source : Source)

theorem chains_ne_nil (declaration : Declaration) :
    ∀ chain ∈ declaration.chains source, chain.segments ≠ [] := by
  intro chain member
  unfold chains at member
  split at member
  · have collected := (CallChain.unique_sublist _).subset member
    obtain ⟨path, kept, rfl⟩ := List.mem_map.mp collected
    simpa using (List.mem_filter.mp kept).2
  · cases member

theorem pairwise_chains (declaration : Declaration) :
    (declaration.chains source).Pairwise fun first second =>
      ¬ first.segments.Perm second.segments := by
  unfold chains
  split
  · exact CallChain.pairwise_unique _
  · exact List.Pairwise.nil

theorem chains_of_class {declaration : Declaration} (isClass : declaration.kind = .classDecl) :
    declaration.chains source = [] := by
  rw [chains, body?, isClass]

theorem Holds.kind_of_method {holder held : Declaration} {place : Place}
    (holds : holder.Holds place held) (isMethod : held.kind = .method) :
    holder.kind = .classDecl := by
  cases holds with
  | scope isBody noClass reached => exact absurd isMethod (kind_ofScope_ne_method _)
  | entry isBody isClass found isSlot declared => exact isClass

end Declaration

/-! ## One pass -/

namespace Pass

variable {source : Source} {pass : Pass}

theorem kind_of_mem_members {key : String} {member : Descriptor}
    (held : (key, member) ∈ (pass.descriptor source).members) (isMethod : member.kind = .method) :
    (pass.descriptor source).kind = .classDecl := by
  obtain ⟨_, inner, inside, rfl⟩ := of_mem_members held
  obtain ⟨further, holds, _⟩ := holds_of_mem_inner source inside
  rw [descriptor_eq] at isMethod ⊢
  exact holds.kind_of_method isMethod

theorem within_of_mem_members {key : String} {member : Descriptor}
    (nested : pass.declaration.node.nested source.text)
    (held : (key, member) ∈ (pass.descriptor source).members) :
    ∃ inner : Pass, member = inner.descriptor source ∧
      inner.declaration.node.span.Within pass.declaration.node.span := by
  obtain ⟨_, inner, inside, same⟩ := of_mem_members held
  obtain ⟨further, holds, _⟩ := holds_of_mem_inner source inside
  exact ⟨inner, same, (Node.nested_at? nested holds.at?_eq).2⟩

theorem wellFormed_descriptor (nested : pass.declaration.node.nested source.text) :
    (pass.descriptor source).WellFormed source.path := by
  have covered := ((pass.declaration.node.nested_iff source.text).mp nested).1
  constructor
  case name_ne_empty =>
    rw [descriptor_eq]
    exact pass.declaration.nameFor_ne_empty source.text pass.tally
  case sourcePath_eq =>
    rw [descriptor_eq]
    rfl
  case lines =>
    have ordered := Text.row_mono source.text (Text.start_le_stop_of_cut covered)
    rw [descriptor_eq]
    exact ⟨Nat.le_add_left 1 _, Nat.succ_le_succ ordered⟩
  case chains_ne_nil =>
    rw [descriptor_eq]
    exact pass.declaration.chains_ne_nil source
  case chains_differ =>
    rw [descriptor_eq]
    exact pass.declaration.pairwise_chains source
  case class_calls_nothing =>
    rw [descriptor_eq]
    exact Declaration.chains_of_class source
  case member_key =>
    intro key member held
    exact (of_mem_members held).1
  case method_in_class =>
    intro key member held isMethod
    exact kind_of_mem_members held isMethod
  case others_hold_scopes =>
    intro noClass key member held
    cases kind : member.kind with
    | function => exact Or.inl rfl
    | classDecl => exact Or.inr rfl
    | method => exact absurd (kind_of_mem_members held kind) noClass
  case member_lines =>
    intro key member held
    obtain ⟨inner, rfl, within⟩ := within_of_mem_members nested held
    rw [descriptor_eq, descriptor_eq]
    exact ⟨Nat.succ_le_succ (Text.row_mono source.text within.1),
      Nat.succ_le_succ (Text.row_mono source.text within.2)⟩
  case member_code =>
    intro key member held
    obtain ⟨inner, rfl, within⟩ := within_of_mem_members nested held
    rw [descriptor_eq, descriptor_eq]
    exact Text.slice_within within covered

end Pass

/-! ## The scope of a file -/

theorem Source.kind_of_mem_describeAll {source : Source} {tally : Tally} {descriptor : Descriptor}
    (described : descriptor ∈ (source.describeAll tally).1) : descriptor.kind ≠ .method := by
  rw [← source.map_descriptor_topPasses] at described
  obtain ⟨pass, member, rfl⟩ := List.mem_map.mp described
  obtain ⟨node, _, declared⟩ := (source.mem_topPasses_iff tally pass.place pass.declaration).mp
    ⟨pass, member, rfl, rfl⟩
  rw [Pass.descriptor_eq]
  change pass.declaration.kind ≠ .method
  rw [declared]
  exact Declaration.kind_ofScope_ne_method node

/-- The scope of a file whose tree has nested spans is well formed, whatever the run has counted
before. -/
theorem extracted_scope_is_wellFormed (source : Source) (tally : Tally)
    (nested : source.root.nested source.text) :
    (source.scope tally).1.WellFormed source.path := by
  constructor
  case sourcePath_eq => rfl
  case functions =>
    intro key descriptor held
    obtain ⟨same, kept⟩ := Members.mem_addAll held
    obtain ⟨described, noClass⟩ := List.mem_filter.mp kept
    refine ⟨same, ?_⟩
    have noMethod := Source.kind_of_mem_describeAll described
    cases kind : descriptor.kind with
    | function => rfl
    | classDecl => simp [kind] at noClass
    | method => exact absurd kind noMethod
  case classes =>
    intro key descriptor held
    obtain ⟨same, kept⟩ := Members.mem_addAll held
    exact ⟨same, by simpa using (List.mem_filter.mp kept).2⟩
  case descriptors =>
    intro descriptor has
    obtain ⟨pass, member, rfl⟩ := Source.exists_pass_of_has has
    have stands := (source.handled_of_mem_passes member).at?_eq
    exact Pass.wellFormed_descriptor (Node.nested_at? nested stands).1

/-- `class Ä`, its name two bytes long, has a method that holds a function with a call. -/
def twoLevels : Source where
  path := "lib/two.js"
  text := "class Ä \x7b\n  m() \x7b () => f(); \x7d\n\x7d"
  root :=
    ⟨.other "program", none, ⟨0, 33⟩, true, false, false,
      [⟨.classDeclaration, none, ⟨0, 33⟩, true, false, false,
        [⟨.identifier, some .name, ⟨6, 8⟩, true, false, false, []⟩,
          ⟨.other "class_body", some .body, ⟨9, 33⟩, true, false, false,
            [⟨.methodDefinition, none, ⟨13, 31⟩, true, false, false,
              [⟨.propertyIdentifier, some .name, ⟨13, 14⟩, true, false, false, []⟩,
                ⟨.other "formal_parameters", none, ⟨14, 16⟩, true, false, false, []⟩,
                ⟨.other "statement_block", some .body, ⟨17, 31⟩, true, false, false,
                  [⟨.expressionStatement, none, ⟨19, 29⟩, true, false, false,
                    [⟨.arrowFunction, none, ⟨19, 28⟩, true, false, false,
                      [⟨.other "formal_parameters", none, ⟨19, 21⟩, true, false, false, []⟩,
                        ⟨.callExpression, some .body, ⟨25, 28⟩, true, false, false,
                          [⟨.identifier, some .function, ⟨25, 26⟩, true, false, false, []⟩,
                            ⟨.other "arguments", none, ⟨26, 28⟩, true, false, false,
                              []⟩]⟩]⟩]⟩]⟩]⟩]⟩]⟩]⟩
  comments := []

theorem scope_of_twoLevels_is_wellFormed :
    twoLevels.root.nested twoLevels.text ∧
      (twoLevels.scope ⟨4, 2⟩).1.WellFormed twoLevels.path := by
  have nested : twoLevels.root.nested twoLevels.text := by decide
  exact ⟨nested, extracted_scope_is_wellFormed twoLevels ⟨4, 2⟩ nested⟩

end ScopeGraph
