import ScopeGraph.Proofs.Syntax.Bodies
import ScopeGraph.Scope.Exports

/-!
# What alike statements export

The bindings of a statement come from what stands outside of bodies.  Most of them are read from
identifiers.  The names listed by `namesRead` are taken over whatever they are made of, and where
one of them holds a body, as the computed key of an exported method may, its text is as long as that
body.
Alike statements without such a name make the same bindings.
-/
set_option autoImplicit false

namespace ScopeGraph.Syntax.Node

/-! ## The names that are read -/

/-- What an export statement declares, or the value that it makes the default. -/
def declared? (statement : Node) : Option Node :=
  (statement.child? .declaration).or (statement.child? .value)

/-- The name of what is made the default, unless that is an identifier itself. -/
def defaultNames (value : Node) : List Node :=
  if value.kind = .identifier then [] else (value.child? .name).toList

/-- The specifiers of the export clauses of a statement. -/
def specifiers (statement : Node) : List Node :=
  (statement.namedChildren.filter (·.kind = .exportClause)).flatMap fun clause =>
    clause.namedChildren.filter (·.kind = .exportSpecifier)

/-- A specifier without a name is passed over, with its alias. -/
def specifierNames (specifier : Node) : List Node :=
  (specifier.child? .name).toList.flatMap fun name => name :: (specifier.child? .alias).toList

def exportedNames (statement : Node) : List Node :=
  if statement.hasDefaultToken then statement.declared?.toList.flatMap defaultNames
  else
    match statement.child? .declaration with
    | some declaration => (declaration.child? .name).toList
    | none => statement.specifiers.flatMap specifierNames

/-- The parts of `object.property = right`. -/
structure Assignment where
  object : Node
  property : Node
  right : Node

/-- The assignment that an expression statement begins with, if it is one to a member. -/
def assignment? (statement : Node) : Option Assignment :=
  statement.namedChildren.head?.bind fun assignment =>
    if assignment.kind ≠ .assignmentExpression then none
    else
      (assignment.child? .left).bind fun left =>
        (assignment.child? .right).bind fun right =>
          if left.kind ≠ .memberExpression then none
          else
            (left.child? .object).bind fun object =>
              (left.child? .property).map fun property => ⟨object, property, right⟩

section NamesRead
variable (text : String)

/-- The property of `module.a`, which is compared with `exports`. -/
def moduleProperties (node : Node) : List Node :=
  if node.kind = .memberExpression ∧ (node.child? .object).bind (identifier? text) = some "module"
  then (node.child? .property).toList
  else []

def methodNames (object : Node) : List Node :=
  (object.namedChildren.filter (·.kind = .methodDefinition)).filterMap (child? .name)

/-- The property is read where the object is `exports`, `module.exports` or `module`, and methods
are read in an object that is assigned to `module.exports`. -/
def Assignment.names (assignment : Assignment) : List Node :=
  assignment.object.moduleProperties text ++
    if isExportsObject text assignment.object then [assignment.property]
    else if identifier? text assignment.object = some "module" then
      assignment.property ::
        if assignment.property.text text = "exports" ∧ assignment.right.kind = .object then
          assignment.right.methodNames
        else []
    else []

/-- The names whose text a statement exports or compares, of whatever kind they are. -/
def namesRead (statement : Node) : List Node :=
  match statement.kind with
  | .exportStatement => statement.exportedNames
  | .expressionStatement => statement.assignment?.toList.flatMap (Assignment.names text)
  | _ => []

end NamesRead

/-- No body is read with the names. -/
def Plain (names : List Node) : Prop := ∀ name ∈ names, name.holdsBody = false

theorem expressionStatementBindings_eq_assignment? (text : String) (statement : Node) :
    expressionStatementBindings text statement =
      match statement.assignment? with
      | none => []
      | some assignment =>
        assignmentBindings text assignment.object (assignment.property.text text)
          assignment.right := by
  unfold expressionStatementBindings assignment?
  cases statement.namedChildren with
  | nil => rfl
  | cons assignment rest =>
      by_cases assigns : assignment.kind = .assignmentExpression
      · cases hasLeft : assignment.child? .left with
        | none => simp [assigns, hasLeft]
        | some left =>
            cases hasRight : assignment.child? .right with
            | none => simp [assigns, hasLeft, hasRight]
            | some right =>
                by_cases member : left.kind = .memberExpression
                · cases hasObject : left.child? .object <;>
                    cases hasProperty : left.child? .property <;>
                      simp [assigns, hasLeft, hasRight, member, hasObject, hasProperty]
                · simp [assigns, hasLeft, hasRight, member]
      · simp [assigns]

/-- The parts of the assignments are alike. -/
structure Assignment.Alike (text other : String) (first second : Assignment) : Prop where
  object : Node.Alike text other first.object second.object
  property : Node.Alike text other first.property second.property
  right : Node.Alike text other first.right second.right

namespace Alike

variable {text other : String} {first second : Node}

/-! ## Reading children -/

theorem bind_child? {γ : Type} {field : Field} {read read' : Node → Option γ}
    (same : Alike text other first second) (noBody : field ≠ .body)
    (agree : ∀ child child', first.child? field = some child → Alike text other child child' →
      read child = read' child') :
    (first.child? field).bind read = (second.child? field).bind read' := by
  rcases same.child?_cases field noBody with ⟨missing, missing'⟩ | ⟨child, child', has, has', here⟩
  · rw [missing, missing']
    rfl
  · rw [has, has']
    exact agree child child' has here

theorem map_child? {γ : Type} {field : Field} {read read' : Node → γ}
    (same : Alike text other first second) (noBody : field ≠ .body)
    (agree : ∀ child child', first.child? field = some child → Alike text other child child' →
      read child = read' child') :
    (first.child? field).map read = (second.child? field).map read' := by
  rw [Option.map_eq_bind, Option.map_eq_bind]
  refine same.bind_child? noBody fun child child' has here => ?_
  exact congrArg some (agree child child' has here)

theorem rel_bind_child? {α β : Type} {related : α → β → Prop} {field : Field}
    {read : Node → Option α} {read' : Node → Option β} (same : Alike text other first second)
    (noBody : field ≠ .body)
    (agree : ∀ child child', Alike text other child child' →
      Option.Rel related (read child) (read' child')) :
    Option.Rel related ((first.child? field).bind read) ((second.child? field).bind read') := by
  rcases same.child?_cases field noBody with ⟨missing, missing'⟩ | ⟨child, child', has, has', here⟩
  · rw [missing, missing']
    exact .none
  · rw [has, has']
    exact agree child child' here

theorem filterMap_eq {γ : Type} {nodes nodes' : List Node} {read read' : Node → Option γ}
    (same : List.Forall₂ (Alike text other) nodes nodes')
    (agree : ∀ node ∈ nodes, ∀ node', Alike text other node node' → read node = read' node') :
    nodes.filterMap read = nodes'.filterMap read' := by
  induction same with
  | nil => rfl
  | @cons node node' rest rest' here _ ih =>
      rw [List.filterMap_cons, List.filterMap_cons, agree node List.mem_cons_self node' here,
        ih fun other member => agree other (List.mem_cons_of_mem _ member)]

theorem flatMap_alike {nodes nodes' : List Node} {parts : Node → List Node}
    (same : List.Forall₂ (Alike text other) nodes nodes')
    (each : ∀ node ∈ nodes, ∀ node', Alike text other node node' →
      List.Forall₂ (Alike text other) (parts node) (parts node')) :
    List.Forall₂ (Alike text other) (nodes.flatMap parts) (nodes'.flatMap parts) := by
  induction same with
  | nil => exact .nil
  | @cons node node' rest rest' here _ ih =>
      rw [List.flatMap_cons, List.flatMap_cons]
      refine List.rel_append (each node List.mem_cons_self node' here) (ih ?_)
      exact fun other member => each other (List.mem_cons_of_mem _ member)

theorem identifier?_eq (same : Alike text other first second) :
    identifier? text first = identifier? other second := by
  unfold identifier?
  rw [← same.kind_eq]
  split
  · next isIdentifier =>
    rw [same.text_eq_of_isIdentifier (by rw [isIdentifier]; rfl)]
  · rfl

theorem hasDefaultToken_eq (same : Alike text other first second) (isOpen : first.isOpen) :
    first.hasDefaultToken = second.hasDefaultToken := by
  have tokens := same.filter_open isOpen (fun child => !child.named && child.kind = .default)
    fun child child' here => by rw [here.named_eq, here.kind_eq]
  rw [Bool.eq_iff_iff, hasDefaultToken, hasDefaultToken, List.any_eq_true, List.any_eq_true,
    ← List.length_filter_pos_iff, ← List.length_filter_pos_iff, tokens.length_eq]

theorem moduleName_eq (same : Alike text other first second) (plain : first.holdsBody = false) :
    moduleName text first = moduleName other second := by
  rw [moduleName, moduleName, same.text_eq plain]

theorem map_text_child? {field : Field} (same : Alike text other first second)
    (noBody : field ≠ .body) (plain : Plain (first.child? field).toList) :
    (first.child? field).map (Node.text text) = (second.child? field).map (Node.text other) := by
  refine same.map_child? noBody fun child child' has here => ?_
  exact here.text_eq (plain child (by simp [has]))

/-! ## Export statements -/

theorem localName_eq (same : Alike text other first second) (plain : Plain first.defaultNames) :
    (if first.kind = .identifier then some (first.text text)
      else (first.child? .name).map (Node.text text)) =
      if second.kind = .identifier then some (second.text other)
      else (second.child? .name).map (Node.text other) := by
  rw [← same.kind_eq]
  split
  · next isIdentifier => rw [same.text_eq_of_isIdentifier (by rw [isIdentifier]; rfl)]
  · next noIdentifier =>
    rw [defaultNames, if_neg noIdentifier] at plain
    exact same.map_text_child? nofun plain

theorem defaultLocal?_eq (same : Alike text other first second)
    (plain : Plain (first.declared?.toList.flatMap defaultNames)) :
    defaultLocal? text first = defaultLocal? other second := by
  unfold defaultLocal?
  unfold declared? at plain
  rcases same.child?_cases .declaration nofun with
    ⟨missing, missing'⟩ | ⟨child, child', has, has', here⟩
  · rw [missing, Option.none_or] at plain
    rw [missing, missing', Option.none_or, Option.none_or]
    refine same.bind_child? nofun fun child child' has here => here.localName_eq ?_
    rwa [has, Option.toList_some, List.flatMap_singleton] at plain
  · rw [has, Option.some_or, Option.toList_some, List.flatMap_singleton] at plain
    rw [has, has', Option.some_or, Option.some_or]
    exact here.localName_eq plain

theorem declaredBindings_eq (same : Alike text other first second)
    (plain : Plain (first.child? .name).toList) :
    declaredBindings text first = declaredBindings other second := by
  unfold declaredBindings
  rcases same.child?_cases .name nofun with ⟨missing, missing'⟩ | ⟨name, name', has, has', here⟩
  · -- A declaration without a name may be a scope, but no body is a declarator.
    rw [missing, missing']
    refine filterMap_eq same.declarators fun declarator _ declarator' alike => ?_
    refine alike.bind_child? nofun fun name name' _ here => ?_
    rw [here.identifier?_eq]
  · have equal := here.text_eq (plain name (by simp [has]))
    rw [has, has']
    simp only [equal]

theorem specifierBinding?_eq (same : Alike text other first second)
    (plain : Plain first.specifierNames) :
    specifierBinding? text first = specifierBinding? other second := by
  refine same.map_child? nofun fun name name' has here => ?_
  rw [specifierNames, has, Option.toList_some, List.flatMap_singleton] at plain
  obtain ⟨plainName, plainAlias⟩ := List.forall_mem_cons.mp plain
  have aliases : (first.child? .alias).map (moduleName text) =
      (second.child? .alias).map (moduleName other) := by
    refine same.map_child? nofun fun child child' has here => here.moduleName_eq ?_
    exact plainAlias child (by simp [has])
  rw [aliases, here.moduleName_eq plainName]

theorem isOpen_of_kind {node : Node} {kind : Kind} (is : node.kind = kind)
    (isOpen : (NodeClass.ofKind kind).isScope = false) : node.isOpen := by
  rw [Node.isOpen, isScope, nodeClass, is, isOpen]
  rfl

theorem specifiers_alike (same : Alike text other first second) (isOpen : first.isOpen) :
    List.Forall₂ (Alike text other) first.specifiers second.specifiers := by
  refine flatMap_alike (filter_kind .exportClause (same.namedChildren isOpen)) ?_
  intro clause member clause' here
  have kind : clause.kind = .exportClause := by simpa using (List.mem_filter.mp member).2
  exact filter_kind .exportSpecifier (here.namedChildren (isOpen_of_kind kind rfl))

theorem clauseBindings_eq_specifiers (source : String) (statement : Node) :
    clauseBindings source statement =
      statement.specifiers.filterMap (specifierBinding? source) := by
  rw [specifiers, List.filterMap_flatMap]
  rfl

theorem clauseBindings_eq (same : Alike text other first second) (isOpen : first.isOpen)
    (plain : Plain (first.specifiers.flatMap specifierNames)) :
    clauseBindings text first = clauseBindings other second := by
  rw [clauseBindings_eq_specifiers, clauseBindings_eq_specifiers]
  refine filterMap_eq (same.specifiers_alike isOpen) fun specifier member specifier' here => ?_
  refine here.specifierBinding?_eq fun name inside => plain name ?_
  exact List.mem_flatMap.mpr ⟨specifier, member, inside⟩

theorem exportStatementBindings_eq (same : Alike text other first second)
    (kind : first.kind = .exportStatement) (plain : Plain first.exportedNames) :
    exportStatementBindings text first = exportStatementBindings other second := by
  have isOpen := isOpen_of_kind kind rfl
  unfold exportStatementBindings
  unfold exportedNames at plain
  rw [← same.hasDefaultToken_eq isOpen]
  by_cases isDefault : first.hasDefaultToken
  · rw [if_pos isDefault] at plain
    rw [if_pos isDefault, if_pos isDefault, same.defaultLocal?_eq plain]
  · rw [if_neg isDefault] at plain
    rw [if_neg isDefault, if_neg isDefault]
    rcases same.child?_cases .declaration nofun with
      ⟨missing, missing'⟩ | ⟨child, child', has, has', here⟩
    · rw [missing] at plain
      rw [missing, missing']
      exact same.clauseBindings_eq isOpen plain
    · rw [has] at plain
      rw [has, has']
      exact here.declaredBindings_eq plain

/-! ## Assignments -/

theorem isModuleExports_eq (same : Alike text other first second) (property : String) :
    isModuleExports text first property = isModuleExports other second property := by
  rw [isModuleExports, isModuleExports, same.identifier?_eq]

theorem isExportsObject_eq (same : Alike text other first second)
    (plain : Plain (first.moduleProperties text)) :
    isExportsObject text first = isExportsObject other second := by
  unfold isExportsObject
  rw [← same.kind_eq]
  split
  · next isIdentifier => rw [same.text_eq_of_isIdentifier (by rw [isIdentifier]; rfl)]
  · next isMember =>
    rcases same.child?_cases .object nofun with
      ⟨missing, missing'⟩ | ⟨object, object', has, has', objects⟩
    · rw [missing, missing']
    rcases same.child?_cases .property nofun with
      ⟨missing, missing'⟩ | ⟨property, property', hasToo, hasToo', properties⟩
    · rw [missing, missing', has, has']
    rw [has, has', hasToo, hasToo']
    dsimp only
    rw [← objects.isModuleExports_eq]
    by_cases isModule : identifier? text object = some "module"
    · rw [moduleProperties, if_pos ⟨isMember, by rw [has]; exact isModule⟩, hasToo] at plain
      rw [properties.text_eq (plain property List.mem_cons_self)]
    · simp [isModuleExports, isModule]
  · rfl

theorem objectEntryBinding?_eq (same : Alike text other first second)
    (plain : first.kind = .methodDefinition → Plain (first.child? .name).toList) :
    objectEntryBinding? text first = objectEntryBinding? other second := by
  unfold objectEntryBinding?
  rw [← same.kind_eq]
  split
  · next shorthand =>
    rw [same.text_eq_of_isIdentifier (by rw [shorthand]; rfl)]
  · refine same.bind_child? nofun fun key key' _ here => ?_
    rw [← here.kind_eq]
    split
    · next isKey =>
      have identifier : key.kind.isIdentifier := by
        rcases Bool.or_eq_true_iff.mp isKey with is | is <;> rw [of_decide_eq_true is] <;> rfl
      have value : (first.child? .value).bind (identifier? text) =
          (second.child? .value).bind (identifier? other) :=
        same.bind_child? nofun fun _ _ _ value => value.identifier?_eq
      rw [here.text_eq_of_isIdentifier identifier, value]
    · rfl
  · next isMethod =>
    refine same.map_child? nofun fun key key' has here => ?_
    rw [here.text_eq (plain isMethod key (by simp [has]))]
  · rfl

theorem objectBindings_eq (same : Alike text other first second) (isObject : first.kind = .object)
    (plain : Plain first.methodNames) :
    first.namedChildren.filterMap (objectEntryBinding? text) =
      second.namedChildren.filterMap (objectEntryBinding? other) := by
  refine filterMap_eq (same.namedChildren (isOpen_of_kind isObject rfl)) ?_
  intro entry member entry' here
  refine here.objectEntryBinding?_eq fun isMethod name inside => plain name ?_
  refine List.mem_filterMap.mpr ⟨entry, ?_, Option.mem_toList.mp inside⟩
  exact List.mem_filter.mpr ⟨member, decide_eq_true isMethod⟩

theorem assignmentBindings_eq {assignment assignment' : Assignment}
    (same : assignment.Alike text other assignment') (plain : Plain (assignment.names text)) :
    assignmentBindings text assignment.object (assignment.property.text text) assignment.right =
      assignmentBindings other assignment'.object (assignment'.property.text other)
        assignment'.right := by
  obtain ⟨plainCompared, plainNames⟩ := List.forall_mem_append.mp plain
  have isExports := same.object.isExportsObject_eq plainCompared
  unfold assignmentBindings
  rw [← isExports, ← same.object.isModuleExports_eq, ← same.right.kind_eq,
    ← same.right.identifier?_eq]
  by_cases exports : isExportsObject text assignment.object
  · rw [if_pos exports] at plainNames
    rw [if_pos exports, if_pos exports,
      same.property.text_eq (plainNames _ List.mem_cons_self)]
  · rw [if_neg exports] at plainNames
    rw [if_neg exports, if_neg exports]
    by_cases isModule : identifier? text assignment.object = some "module"
    · rw [if_pos isModule] at plainNames
      obtain ⟨plainProperty, plainMethods⟩ := List.forall_mem_cons.mp plainNames
      rw [← same.property.text_eq plainProperty]
      by_cases assigned : assignment.property.text text = "exports" ∧
          assignment.right.kind = .object
      · rw [if_pos assigned] at plainMethods
        simp only [isModuleExports, isModule, assigned, decide_true, Bool.and_self, if_true]
        exact same.right.objectBindings_eq assigned.2 plainMethods
      · have nothing : ¬ (isModuleExports text assignment.object (assignment.property.text text) &&
            decide (assignment.right.kind = .object)) := by
          simpa [isModuleExports, isModule] using assigned
        rw [if_neg nothing, if_neg nothing]
    · simp [isModuleExports, isModule]

theorem rel_assignment? (same : Alike text other first second) (isOpen : first.isOpen) :
    Option.Rel (Assignment.Alike text other) first.assignment? second.assignment? := by
  have listed := same.namedChildren isOpen
  unfold assignment?
  generalize first.namedChildren = children at listed ⊢
  generalize second.namedChildren = children' at listed ⊢
  cases listed with
  | nil => exact .none
  | @cons assignment assignment' rest rest' here _ =>
      simp only [List.head?_cons, Option.bind_some, ← here.kind_eq]
      split
      · exact .none
      refine here.rel_bind_child? nofun fun left left' lefts => ?_
      refine here.rel_bind_child? nofun fun right right' rights => ?_
      rw [← lefts.kind_eq]
      split
      · exact .none
      refine lefts.rel_bind_child? nofun fun object object' objects => ?_
      rw [Option.map_eq_bind, Option.map_eq_bind]
      refine lefts.rel_bind_child? nofun fun property property' properties => ?_
      exact .some ⟨objects, properties, rights⟩

theorem expressionStatementBindings_eq (same : Alike text other first second)
    (kind : first.kind = .expressionStatement)
    (plain : Plain (first.assignment?.toList.flatMap (Assignment.names text))) :
    expressionStatementBindings text first = expressionStatementBindings other second := by
  have parts := same.rel_assignment? (isOpen_of_kind kind rfl)
  rw [expressionStatementBindings_eq_assignment?, expressionStatementBindings_eq_assignment?]
  generalize first.assignment? = assignment? at parts plain ⊢
  generalize second.assignment? = assignment?' at parts ⊢
  cases parts with
  | none => rfl
  | some here =>
      rw [Option.toList_some, List.flatMap_singleton] at plain
      exact assignmentBindings_eq here plain

theorem exportBindings_eq (same : Alike text other first second)
    (plain : Plain (first.namesRead text)) :
    exportBindings text first = exportBindings other second := by
  unfold exportBindings
  unfold namesRead at plain
  rw [← same.kind_eq]
  cases kind : first.kind <;> simp only [kind] at plain ⊢
  case exportStatement => exact same.exportStatementBindings_eq kind plain
  case expressionStatement => exact same.expressionStatementBindings_eq kind plain

theorem flatMap_exportBindings_eq {statements statements' : List Node}
    (same : List.Forall₂ (Alike text other) statements statements')
    (plain : ∀ statement ∈ statements, Plain (statement.namesRead text)) :
    statements.flatMap (exportBindings text) = statements'.flatMap (exportBindings other) := by
  induction same with
  | nil => rw [List.flatMap_nil, List.flatMap_nil]
  | @cons statement statement' rest rest' here _ ih =>
      have first := here.exportBindings_eq (plain statement List.mem_cons_self)
      have later := ih fun next member => plain next (List.mem_cons_of_mem _ member)
      rw [List.flatMap_cons, List.flatMap_cons, first, later]

end Alike
end ScopeGraph.Syntax.Node
