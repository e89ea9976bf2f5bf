import Mathlib.Tactic.ByContra
import ScopeGraph.Proofs.Scope.Exports

/-!
# The mark of the default export

Statements write bindings in several ways.  A default clause marks its binding and names it
`default`; an assignment compares the name; the names of a declaration or of a list are never
marked.  In the table the last writer of a name decides, so the binding of `default` is marked
exactly if its last writer neither declares nor lists it.
-/
set_option autoImplicit false

namespace ScopeGraph

open Syntax

/-! ## One statement -/

/-- The binding is marked exactly if its name is `default`. -/
def ExportBinding.MarkedBy (name : String) (binding : ExportBinding) : Prop :=
  binding.isDefault = true ↔ name = "default"

theorem ExportBinding.markedBy_assigned (name : String) (local? : Option String) :
    (assigned name local?).MarkedBy name := by
  simp [MarkedBy, assigned]

namespace Syntax.Node

/-- The statement exports what it declares or lists, and there is no default clause. -/
def listsNames (statement : Node) : Bool :=
  statement.kind = .exportStatement && !statement.hasDefaultToken

variable {text : String} {name : String} {binding : ExportBinding}

theorem unmarked_of_declared {declaration : Node}
    (member : (name, binding) ∈ declaration.declaredBindings text) : binding.isDefault = false := by
  unfold declaredBindings at member
  split at member
  · cases List.mem_singleton.mp member
    rfl
  · obtain ⟨declarator, _, named⟩ := List.mem_filterMap.mp member
    obtain ⟨identifier, _, found⟩ := Option.bind_eq_some_iff.mp named
    obtain ⟨_, _, same⟩ := Option.map_eq_some_iff.mp found
    cases same
    rfl

theorem unmarked_of_listed {statement : Node}
    (member : (name, binding) ∈ statement.clauseBindings text) : binding.isDefault = false := by
  obtain ⟨clause, _, inside⟩ := List.mem_flatMap.mp member
  obtain ⟨specifier, _, found⟩ := List.mem_filterMap.mp inside
  obtain ⟨_, _, same⟩ := Option.map_eq_some_iff.mp found
  cases same
  rfl

theorem marked_of_exportStatement {statement : Node}
    (member : (name, binding) ∈ statement.exportStatementBindings text) :
    binding.isDefault = true ↔ name = "default" ∧ statement.hasDefaultToken = true := by
  unfold exportStatementBindings at member
  split at member
  · next hasDefault =>
      cases List.mem_singleton.mp member
      simp [hasDefault]
  · next noDefault =>
      have unmarked : binding.isDefault = false := by
        split at member
        · exact unmarked_of_declared member
        · exact unmarked_of_listed member
      simp [unmarked, noDefault]

theorem markedBy_of_objectEntry {entry : Node}
    (found : entry.objectEntryBinding? text = some (name, binding)) : binding.MarkedBy name := by
  unfold objectEntryBinding? at found
  split at found
  · cases found
    exact ExportBinding.markedBy_assigned _ _
  · obtain ⟨key, _, bound⟩ := Option.bind_eq_some_iff.mp found
    split at bound
    · cases bound
      exact ExportBinding.markedBy_assigned _ _
    · cases bound
  · obtain ⟨key, _, same⟩ := Option.map_eq_some_iff.mp found
    cases same
    exact ExportBinding.markedBy_assigned _ _
  · cases found

theorem markedBy_of_assignment {object right : Node} {property : String}
    (member : (name, binding) ∈ object.assignmentBindings text property right) :
    binding.MarkedBy name := by
  unfold assignmentBindings at member
  split at member
  · cases List.mem_singleton.mp member
    exact ExportBinding.markedBy_assigned _ _
  · split at member
    · obtain ⟨entry, _, found⟩ := List.mem_filterMap.mp member
      exact markedBy_of_objectEntry found
    · cases member

theorem markedBy_of_expressionStatement {statement : Node}
    (member : (name, binding) ∈ statement.expressionStatementBindings text) :
    binding.MarkedBy name := by
  unfold expressionStatementBindings at member
  split at member
  · cases member
  · split at member
    · cases member
    · split at member
      · split at member
        · cases member
        · split at member
          · exact markedBy_of_assignment member
          · cases member
      · cases member

/-- A binding is marked exactly if its name is `default` and the statement does not just list it. -/
theorem isDefault_iff {statement : Node}
    (member : (name, binding) ∈ statement.exportBindings text) :
    binding.isDefault = true ↔ name = "default" ∧ statement.listsNames = false := by
  unfold exportBindings at member
  split at member
  · next kind =>
      have marked := marked_of_exportStatement member
      simpa [listsNames, kind] using marked
  · next kind =>
      have marked := markedBy_of_expressionStatement member
      simpa [listsNames, kind, ExportBinding.MarkedBy] using marked
  · cases member

/-- The statement binds the name. -/
def Binds (text : String) (name : String) (statement : Node) : Prop :=
  name ∈ (statement.exportBindings text).map Prod.fst

end Syntax.Node

/-! ## Statement after statement -/

/-- The statement binds the name, and none after it does. -/
structure LastWriter (text : String) (statements : List Node) (name : String) (statement : Node) :
    Prop where
  binds : statement.Binds text name
  last : ∃ before after, statements = before ++ statement :: after ∧
    ∀ later ∈ after, ¬ later.Binds text name

namespace ExportTable

variable (text : String) (table : ExportTable)

theorem get?_recordAll_of_not_binds {statements : List Node} {name : String}
    (free : ∀ statement ∈ statements, ¬ statement.Binds text name) :
    (recordAll text table statements).get? name = table.get? name := by
  induction statements generalizing table with
  | nil => rfl
  | cons statement rest ih =>
      obtain ⟨here, later⟩ := List.forall_mem_cons.mp free
      calc (recordAll text (record text table statement) rest).get? name
          = (record text table statement).get? name := ih _ later
        _ = table.get? name := Listing.get?_setAll_of_not_mem table here

variable {text}

theorem get?_of_lastWriter {statements : List Node} {name : String} {statement : Node}
    (writer : LastWriter text statements name statement) :
    ∃ binding, (recordAll text table statements).get? name = some binding ∧
      (name, binding) ∈ statement.exportBindings text := by
  obtain ⟨binds, before, after, rfl, free⟩ := writer
  obtain ⟨binding, found, member⟩ :=
    Listing.get?_setAll_of_mem (recordAll text table before) binds
  refine ⟨binding, ?_, member⟩
  rw [recordAll, List.foldl_append, List.foldl_cons, ← found]
  exact get?_recordAll_of_not_binds text _ free

theorem exists_lastWriter {statements : List Node} {name : String}
    (bound : ∃ statement ∈ statements, statement.Binds text name) :
    ∃ statement, LastWriter text statements name statement := by
  induction statements with
  | nil => simp at bound
  | cons head rest ih =>
      by_cases later : ∃ statement ∈ rest, statement.Binds text name
      · obtain ⟨statement, binds, before, after, rfl, free⟩ := ih later
        exact ⟨statement, binds, head :: before, after, rfl, free⟩
      · have here : head.Binds text name := by simpa [later] using bound
        refine ⟨head, here, [], rest, rfl, fun statement member binds => ?_⟩
        exact later ⟨statement, member, binds⟩

theorem nodup_names_recordAll (statements : List Node) :
    (recordAll text [] statements).names.Nodup := by
  rw [recordAll_eq_setAll]
  exact Listing.nodup_names_setAll [] _ List.nodup_nil

/-- The last writer of a name made the binding that stands in the table. -/
theorem written_by_lastWriter {statements : List Node} {name : String} {binding : ExportBinding}
    (entry : (name, binding) ∈ recordAll text [] statements) :
    ∃ statement, LastWriter text statements name statement ∧
      (name, binding) ∈ statement.exportBindings text := by
  have found := (Listing.get?_eq_some_iff_mem (nodup_names_recordAll statements) ..).mpr entry
  have bound : ∃ statement ∈ statements, statement.Binds text name := by
    by_contra free
    rw [get?_recordAll_of_not_binds text [] fun statement member binds =>
      free ⟨statement, member, binds⟩] at found
    cases found
  obtain ⟨statement, writer⟩ := exists_lastWriter bound
  obtain ⟨last, written, member⟩ := get?_of_lastWriter [] writer
  obtain rfl : last = binding := Option.some.inj (written.symm.trans found)
  exact ⟨statement, writer, member⟩

end ExportTable

/-- A binding is marked if it is that of `default` and its last writer is not a list of names or a
declaration.  So the marks tell the default exports exactly if none of these wrote `default`
last. -/
theorem default_is_marked_unless_listed (text : String) (statements : List Node) :
    let table := ExportTable.recordAll text [] statements
    (∀ name binding, (name, binding) ∈ table →
      ∃ statement, LastWriter text statements name statement ∧
        (name, binding) ∈ statement.exportBindings text ∧
        (binding.isDefault = true ↔ name = "default" ∧ statement.listsNames = false)) ∧
    ((∀ name binding, (name, binding) ∈ table → (binding.isDefault = true ↔ name = "default")) ↔
      ∀ statement, LastWriter text statements "default" statement →
        statement.listsNames = false) := by
  intro table
  refine ⟨?_, ?_, ?_⟩
  · intro name binding entry
    obtain ⟨statement, writer, member⟩ := ExportTable.written_by_lastWriter entry
    exact ⟨statement, writer, member, Node.isDefault_iff member⟩
  · intro consistent statement writer
    obtain ⟨binding, found, member⟩ := ExportTable.get?_of_lastWriter [] writer
    have entry : ("default", binding) ∈ table :=
      (Listing.get?_eq_some_iff_mem (ExportTable.nodup_names_recordAll statements) ..).mp found
    have marked := (consistent "default" binding entry).mpr rfl
    exact ((Node.isDefault_iff member).mp marked).2
  · intro unlisted name binding entry
    obtain ⟨statement, writer, member⟩ := ExportTable.written_by_lastWriter entry
    rw [Node.isDefault_iff member]
    refine ⟨And.left, ?_⟩
    rintro rfl
    exact ⟨rfl, unlisted statement writer⟩

/-- The statement `exports.default = y;` at the start of a text. -/
def assignsDefault : Node :=
  ⟨.expressionStatement, none, ⟨0, 20⟩, true, false, false,
    [⟨.assignmentExpression, none, ⟨0, 19⟩, true, false, false,
      [⟨.memberExpression, some .left, ⟨0, 15⟩, true, false, false,
          [⟨.identifier, some .object, ⟨0, 7⟩, true, false, false, []⟩,
            ⟨.propertyIdentifier, some .property, ⟨8, 15⟩, true, false, false, []⟩]⟩,
        ⟨.identifier, some .right, ⟨18, 19⟩, true, false, false, []⟩]⟩]⟩

/-- The statement `export { x as default };` after it. -/
def listsDefault : Node :=
  ⟨.exportStatement, none, ⟨21, 45⟩, true, false, false,
    [⟨.exportClause, none, ⟨28, 44⟩, true, false, false,
      [⟨.exportSpecifier, none, ⟨30, 42⟩, true, false, false,
        [⟨.identifier, some .name, ⟨30, 31⟩, true, false, false, []⟩,
          ⟨.identifier, some .alias, ⟨35, 42⟩, true, false, false, []⟩]⟩]⟩]⟩

def twoDefaults : Source where
  path := "src/app.js"
  text := "exports.default = y; export \x7b x as default \x7d;"
  root := ⟨.other "program", none, ⟨0, 45⟩, true, false, false, [assignsDefault, listsDefault]⟩
  comments := []

theorem assigned_default_is_marked :
    let statements := [listsDefault, assignsDefault]
    ("default", ⟨true, some "y"⟩) ∈ ExportTable.recordAll twoDefaults.text [] statements ∧
      (∃ statement, LastWriter twoDefaults.text statements "default" statement ∧
        statement.listsNames = false) ∧
      ∀ statement, LastWriter twoDefaults.text statements "default" statement →
        statement.listsNames = false := by
  intro statements
  have table : ExportTable.recordAll twoDefaults.text [] statements =
      [("default", ⟨true, some "y"⟩)] := by
    decide +kernel
  have entry : ("default", ⟨true, some "y"⟩) ∈
      ExportTable.recordAll twoDefaults.text [] statements := by
    rw [table]
    exact List.mem_singleton.mpr rfl
  obtain ⟨written, consistent⟩ := default_is_marked_unless_listed twoDefaults.text statements
  obtain ⟨statement, writer, _, marked⟩ := written _ _ entry
  refine ⟨entry, ⟨statement, writer, (marked.mp rfl).2⟩, consistent.mp ?_⟩
  intro name binding member
  rw [table] at member
  cases List.mem_singleton.mp member
  decide

theorem listed_default_is_unmarked :
    twoDefaults.exportTable =
        ExportTable.recordAll twoDefaults.text [] [assignsDefault, listsDefault] ∧
      twoDefaults.exportTable = [("default", ⟨false, some "x"⟩)] := by
  decide +kernel

end ScopeGraph
