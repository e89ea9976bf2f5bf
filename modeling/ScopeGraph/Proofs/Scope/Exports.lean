import ScopeGraph.Proofs.Scope.Attribution
import ScopeGraph.Proofs.Scope.ExportBindings
import ScopeGraph.Proofs.Scope.Traversal

/-!
# Exports are of the file level

The loop that describes the declarations of a file records its exports as well.  The statements it
records are those that no scope encloses, by depth and then by position; each name stands in the
table once, where it was first bound and with its last binding.  Two files that are alike outside of
bodies have the same table, unless a name that is read holds a body itself.
-/
set_option autoImplicit false

namespace ScopeGraph

open Syntax

/-! ## The statements -/

namespace Syntax.Node

/-- No scope is above the place. -/
def Outside (root : Node) (place : Place) : Prop :=
  ∀ above rest scope, place = above ++ rest → rest ≠ [] → root.at? above = some scope →
    ¬ scope.isScope

/-- A token or a comment: it has no parts and is no statement that may export. -/
def isToken (node : Node) : Bool := node.children.isEmpty && node.nodeClass ≠ .exportLike

mutual

/-- Below the node all are slots, tokens or comments. -/
def slotsOnly : Node → Bool
  | ⟨_, _, _, _, _, _, children⟩ => slotsOnlyAll children

def slotsOnlyAll : List Node → Bool
  | [] => true
  | child :: rest => (child.isSlot || child.isToken) && child.slotsOnly && slotsOnlyAll rest

end

/-- The statements that may export and that no scope encloses, by depth and then by position. -/
structure ListsStatements (root : Node) (placed : List (Place × Node)) : Prop where
  ordered : placed.Pairwise fun first second => List.Shortlex (· < ·) first.1 second.1
  mem_iff : ∀ place node, (place, node) ∈ placed ↔
    Leads (fun _ => true) root place node ∧ root.Outside place ∧
      (node.kind = .exportStatement ∨ node.kind = .expressionStatement)
  mem_iff_at? : root.slotsOnly → ∀ place node, (place, node) ∈ placed ↔
    root.at? place = some node ∧ root.Outside place ∧
      (node.kind = .exportStatement ∨ node.kind = .expressionStatement)

theorem Reaches.through_all {enters follows : Node → Bool} {node target : Node} {place : Place}
    (reaches : Reaches enters follows node place target) :
    Reaches (fun _ => true) follows node place target := by
  induction reaches with
  | here node => exact .here node
  | child _ found followed _ ih => exact .child rfl found followed ih

theorem leads_isOpen_iff {root node : Node} {place : Place} :
    Leads isOpen root place node ↔
      Leads (fun _ => true) root place node ∧ root.Outside place := by
  constructor
  · intro leads
    refine ⟨leads.through_all, ?_⟩
    rintro above rest scope rfl proper stands
    simpa [isOpen] using leads.entered_on_way proper stands
  · rintro ⟨reached, outside⟩
    refine reached.of_entered ?_
    intro above rest scope parts proper stands
    simpa [isOpen] using outside above rest scope parts proper stands

theorem slotsOnlyAll_iff (children : List Node) :
    slotsOnlyAll children ↔
      ∀ child ∈ children, (child.isSlot ∨ child.isToken) ∧ child.slotsOnly := by
  induction children with
  | nil => simp [slotsOnlyAll]
  | cons child rest ih => simp [slotsOnlyAll, ih, and_assoc]

theorem slotsOnly_iff (node : Node) :
    node.slotsOnly ↔
      ∀ child ∈ node.children, (child.isSlot ∨ child.isToken) ∧ child.slotsOnly := by
  obtain ⟨⟩ := node
  exact slotsOnlyAll_iff _

theorem leads_of_at? {root node : Node} {place : Place} (only : root.slotsOnly)
    (stands : root.at? place = some node) (exports : node.nodeClass = .exportLike) :
    Leads (fun _ => true) root place node := by
  induction place generalizing root with
  | nil =>
      cases stands
      exact .here node
  | cons i rest ih =>
      obtain ⟨child, found, below⟩ := Option.bind_eq_some_iff.mp stands
      obtain ⟨isSlot | isToken, onlyBelow⟩ :=
        (slotsOnly_iff root).mp only child (List.mem_of_getElem? found)
      · exact .child rfl found isSlot (ih onlyBelow below)
      · -- A token is no such statement, and nothing stands below it.
        simp only [Node.isToken, Bool.and_eq_true, List.isEmpty_iff, decide_eq_true_eq] at isToken
        obtain ⟨empty, differs⟩ := isToken
        cases rest with
        | nil =>
            cases below
            exact absurd exports differs
        | cons j rest => simp [at?, empty] at below

theorem nodeClass_eq_exportLike_iff (node : Node) :
    node.nodeClass = .exportLike ↔
      node.kind = .exportStatement ∨ node.kind = .expressionStatement := by
  rw [nodeClass]
  cases node.kind <;> simp [NodeClass.ofKind]

/-- The statements of the file level that may export, with their places. -/
def exportPlaces (root : Node) : List (Place × Node) :=
  (root.placesByDepth isOpen).filter (·.2.nodeClass = .exportLike)

theorem mem_exportPlaces (root : Node) (place : Place) (node : Node) :
    (place, node) ∈ root.exportPlaces ↔
      Leads (fun _ => true) root place node ∧ root.Outside place ∧
        (node.kind = .exportStatement ∨ node.kind = .expressionStatement) := by
  rw [exportPlaces, List.mem_filter, mem_placesByDepth, mem_reached, decide_eq_true_eq,
    nodeClass_eq_exportLike_iff, ← and_assoc]
  exact and_congr_left' leads_isOpen_iff

theorem listsStatements_exportPlaces (root : Node) : root.ListsStatements root.exportPlaces where
  ordered := (pairwise_placesByDepth isOpen root).filter _
  mem_iff := root.mem_exportPlaces
  mem_iff_at? only place node := by
    rw [mem_exportPlaces]
    refine and_congr_left ?_
    rintro ⟨_, exports⟩
    refine ⟨Reaches.at?_eq, fun stands => leads_of_at? only stands ?_⟩
    exact (nodeClass_eq_exportLike_iff node).mpr exports

end Syntax.Node

theorem Source.map_snd_exportPlaces (source : Source) :
    source.root.exportPlaces.map Prod.snd = source.exportStatements := by
  rw [exportStatements, ← Node.map_snd_placesByDepth, List.filter_map]
  rfl

/-! ## The loop -/

namespace Source

variable (source : Source)

/-- Describes scopes and records exports, each where it is met. -/
def meetAll (state : (Container × Tally) × ExportTable) (node : Node) :
    (Container × Tally) × ExportTable :=
  (source.meet state.1 node,
    if node.nodeClass = .exportLike then ExportTable.record source.text state.2 node else state.2)

/-- One walk over the file fills its containers and its table. -/
def walkFile (tally : Tally) : (Container × Tally) × ExportTable :=
  Node.drainQueue Node.isOpen source.meetAll [source.root] ((.file [] [], tally), [])

theorem foldl_meetAll (nodes : List Node) (state : Container × Tally) (table : ExportTable) :
    nodes.foldl source.meetAll (state, table) =
      (nodes.foldl source.meet state,
        ExportTable.recordAll source.text table
          (nodes.filter (·.nodeClass = .exportLike))) := by
  induction nodes generalizing state table with
  | nil => rfl
  | cons node rest ih =>
      rw [List.foldl_cons, meetAll, ih, List.foldl_cons]
      by_cases exports : node.nodeClass = .exportLike
      · simp [exports, ExportTable.recordAll]
      · simp [exports]

theorem walkFile_eq (tally : Tally) :
    source.walkFile tally =
      ((.file (source.scope tally).1.functions (source.scope tally).1.classes,
        (source.scope tally).2), (source.scope tally).1.exports) := by
  -- The two parts of the state do not meet, so the walk is two walks over the same nodes.
  rw [walkFile, Node.drainQueue_root, foldl_meetAll, ← Node.drainQueue_root]
  exact congrArg (·, source.exportTable) (source.walkQueue_root_eq_scope tally)

end Source

/-! ## The table -/

namespace ExportTable

/-- Each bound name once, where it is first bound and with its last binding. -/
structure Lists (table : ExportTable) (bindings : List (String × ExportBinding)) : Prop where
  once : table.names.Nodup
  first : table.names = (bindings.map Prod.fst).eraseDups
  last : ∀ name, table.get? name = (bindings.filter (·.1 = name)).getLast?.map Prod.snd

theorem recordAll_eq_setAll (text : String) (table : ExportTable) (statements : List Node) :
    recordAll text table statements =
      Listing.setAll table (statements.flatMap (Node.exportBindings text)) := by
  rw [Listing.setAll, List.foldl_flatMap]
  rfl

theorem lists_setAll (bindings : List (String × ExportBinding)) :
    Lists (Listing.setAll [] bindings) bindings where
  once := Listing.nodup_names_setAll [] bindings List.nodup_nil
  first := by
    rw [Listing.names_setAll]
    simp [Listing.names]
  last name := by
    rw [Listing.get?_setAll]
    simp [Listing.get?]

end ExportTable

theorem Source.lists_exportTable (source : Source) :
    source.exportTable.Lists
      (source.exportStatements.flatMap (Node.exportBindings source.text)) := by
  rw [exportTable, ExportTable.recordAll_eq_setAll]
  exact ExportTable.lists_setAll _

/-! ## Alike files -/

namespace Source

variable {source other : Source}

theorem exportStatements_alike (same : source.root.Alike source.text other.text other.root) :
    List.Forall₂ (Node.Alike source.text other.text) source.exportStatements
      other.exportStatements := by
  refine List.rel_filter ?_ same.byDepth
  intro node node' here
  simp only [here.nodeClass_eq]

theorem exportTable_eq (same : source.root.Alike source.text other.text other.root)
    (plain : ∀ statement ∈ source.exportStatements,
      Node.Plain (statement.namesRead source.text)) :
    source.exportTable = other.exportTable := by
  have bindings := Node.Alike.flatMap_exportBindings_eq (exportStatements_alike same) plain
  rw [exportTable, exportTable, ExportTable.recordAll_eq_setAll, ExportTable.recordAll_eq_setAll,
    bindings]

end Source

/-- The walk over a file records the statements that no scope encloses, and the table tells nothing
about what stands in bodies, unless a name that is read holds one. -/
theorem exports_are_of_the_file_level (source other : Source) (tally otherTally : Tally) :
    let scope := (source.scope tally).1
    source.walkFile tally =
        ((.file scope.functions scope.classes, (source.scope tally).2), scope.exports) ∧
      (∃ placed, source.root.ListsStatements placed ∧
        scope.exports = ExportTable.recordAll source.text [] (placed.map Prod.snd) ∧
        scope.exports.Lists
          ((placed.map Prod.snd).flatMap (Node.exportBindings source.text))) ∧
      (source.root.Alike source.text other.text other.root →
        (∀ statement ∈ source.exportStatements,
          Node.Plain (statement.namesRead source.text)) →
        scope.exports = (other.scope otherTally).1.exports) := by
  refine ⟨source.walkFile_eq tally, ⟨source.root.exportPlaces, ?_, ?_, ?_⟩, ?_⟩
  · exact source.root.listsStatements_exportPlaces
  · rw [source.map_snd_exportPlaces]
    rfl
  · rw [source.map_snd_exportPlaces]
    exact source.lists_exportTable
  · exact Source.exportTable_eq

/-- A function that is exported as `f`, with what stands in its body. -/
def assignsFunction (text : String) (stop : Nat) (inside : List Node) : Source where
  path := "lib.js"
  text := text
  root :=
    ⟨.other "program", none, ⟨0, stop + 1⟩, true, false, false,
      [⟨.expressionStatement, none, ⟨0, stop + 1⟩, true, false, false,
        [⟨.assignmentExpression, none, ⟨0, stop⟩, true, false, false,
          [⟨.memberExpression, some .left, ⟨0, 9⟩, true, false, false,
              [⟨.identifier, some .object, ⟨0, 7⟩, true, false, false, []⟩,
                ⟨.propertyIdentifier, some .property, ⟨8, 9⟩, true, false, false, []⟩]⟩,
            ⟨.arrowFunction, some .right, ⟨12, stop⟩, true, false, false,
              [⟨.other "formal_parameters", none, ⟨12, 14⟩, true, false, false, []⟩,
                ⟨.other "statement_block", some .body, ⟨18, stop⟩, true, false, false,
                  inside⟩]⟩]⟩]⟩]⟩
  comments := []

def emptyBody : Source := assignsFunction "exports.f = () => \x7b\x7d;" 20 []

/-- The body exports `g` in its turn. -/
def exportingBody : Source :=
  assignsFunction "exports.f = () => \x7b exports.g = 1; \x7d;" 36
    [⟨.expressionStatement, none, ⟨20, 34⟩, true, false, false,
      [⟨.assignmentExpression, none, ⟨20, 33⟩, true, false, false,
        [⟨.memberExpression, some .left, ⟨20, 29⟩, true, false, false,
            [⟨.identifier, some .object, ⟨20, 27⟩, true, false, false, []⟩,
              ⟨.propertyIdentifier, some .property, ⟨28, 29⟩, true, false, false, []⟩]⟩,
          ⟨.other "number", some .right, ⟨32, 33⟩, true, false, false, []⟩]⟩]⟩]

theorem exportingBody_exports_as_emptyBody :
    exportingBody.root.Alike exportingBody.text emptyBody.text emptyBody.root ∧
      (exportingBody.scope .zero).1.exports = (emptyBody.scope .zero).1.exports ∧
      (emptyBody.scope .zero).1.exports.names = ["f"] := by
  have same : exportingBody.root.Alike exportingBody.text emptyBody.text emptyBody.root := by
    decide +kernel
  have plain : ∀ statement ∈ exportingBody.exportStatements,
      ∀ name ∈ statement.namesRead exportingBody.text, name.holdsBody = false := by
    decide +kernel
  have equal := (exports_are_of_the_file_level exportingBody emptyBody .zero .zero).2.2 same plain
  exact ⟨same, equal, by decide +kernel⟩

/-- An object with one method is exported, and the key of the method is the result of a function
that is called at once. -/
def computedKey (text : String) (shift : Nat) (inside : List Node) : Source where
  path := "lib.js"
  text := text
  root :=
    ⟨.other "program", none, ⟨0, shift + 41⟩, true, false, false,
      [⟨.expressionStatement, none, ⟨0, shift + 41⟩, true, false, false,
        [⟨.assignmentExpression, none, ⟨0, shift + 40⟩, true, false, false,
          [⟨.memberExpression, some .left, ⟨0, 14⟩, true, false, false,
              [⟨.identifier, some .object, ⟨0, 6⟩, true, false, false, []⟩,
                ⟨.propertyIdentifier, some .property, ⟨7, 14⟩, true, false, false, []⟩]⟩,
            ⟨.object, some .right, ⟨17, shift + 40⟩, true, false, false,
              [⟨.methodDefinition, none, ⟨19, shift + 38⟩, true, false, false,
                [⟨.other "computed_property_name", some .name, ⟨19, shift + 33⟩, true, false, false,
                    [⟨.callExpression, none, ⟨20, shift + 32⟩, true, false, false,
                      [⟨.parenthesizedExpression, some .function, ⟨20, shift + 30⟩, true, false,
                          false,
                          [⟨.arrowFunction, none, ⟨21, shift + 29⟩, true, false, false,
                            [⟨.other "formal_parameters", none, ⟨21, 23⟩, true, false, false, []⟩,
                              ⟨.other "statement_block", some .body, ⟨27, shift + 29⟩, true, false,
                                false, inside⟩]⟩]⟩,
                        ⟨.other "arguments", none, ⟨shift + 30, shift + 32⟩, true, false, false,
                          []⟩]⟩]⟩,
                  ⟨.other "formal_parameters", none, ⟨shift + 33, shift + 35⟩, true, false, false,
                    []⟩,
                  ⟨.other "statement_block", some .body, ⟨shift + 36, shift + 38⟩, true, false,
                    false, []⟩]⟩]⟩]⟩]⟩]⟩
  comments := []

def idleKey : Source :=
  computedKey "module.exports = \x7b [(() => \x7b\x7d)()]() \x7b\x7d \x7d;" 0 []

def callingKey : Source :=
  computedKey "module.exports = \x7b [(() => \x7b a(); \x7d)()]() \x7b\x7d \x7d;" 6
    [⟨.expressionStatement, none, ⟨29, 33⟩, true, false, false,
      [⟨.callExpression, none, ⟨29, 32⟩, true, false, false,
        [⟨.identifier, some .function, ⟨29, 30⟩, true, false, false, []⟩,
          ⟨.other "arguments", none, ⟨30, 32⟩, true, false, false, []⟩]⟩]⟩]

theorem computed_key_exports_its_body :
    idleKey.root.Alike idleKey.text callingKey.text callingKey.root ∧
      (idleKey.scope .zero).1.exports.names = ["[(() => \x7b\x7d)()]"] ∧
      (callingKey.scope .zero).1.exports.names = ["[(() => \x7b a(); \x7d)()]"] := by
  decide +kernel

end ScopeGraph
