import ScopeGraph.Listing
import ScopeGraph.Scope.Calls
import ScopeGraph.Syntax.NodeClass

/-!
# Exports

A statement exports names by declaration (`export function f`), by a list of specifiers
(`export { a as b }`), as the default (`export default f`), or by assignment to `exports.name`,
`module.exports.name` or `module.exports`.  A later binding of a name replaces an earlier one.
-/
set_option autoImplicit false

namespace ScopeGraph

open Syntax

structure ExportBinding where
  isDefault : Bool
  /-- The local name it is bound to, if that is a plain name. -/
  local? : Option String
  deriving DecidableEq, Repr

abbrev ExportTable := Listing ExportBinding

namespace ExportBinding

def plain (localName : String) : ExportBinding := ⟨false, some localName⟩

/-- The binding of an assigned name; `default` marks the default export. -/
def assigned (exported : String) (local? : Option String) : ExportBinding :=
  ⟨exported = "default", local?⟩

end ExportBinding

namespace Syntax.Node
variable (source : String)

def identifier? (node : Node) : Option String :=
  if node.kind = .identifier then some (node.text source) else none

def hasDefaultToken (node : Node) : Bool :=
  node.children.any fun child => !child.named && child.kind = .default

/-- A name in a specifier may be quoted. -/
def moduleName (node : Node) : String :=
  trimEnds (fun c => c = '"' || c = '\'') (node.text source)

/-- The local name of a default export. -/
def defaultLocal? (statement : Node) : Option String :=
  ((statement.child? .declaration).or (statement.child? .value)).bind fun value =>
    if value.kind = .identifier then some (value.text source)
    else (value.child? .name).map (text source)

def declaredBindings (declaration : Node) : List (String × ExportBinding) :=
  match declaration.child? .name with
  | some name => [(name.text source, .plain (name.text source))]
  | none =>
    (declaration.namedChildren.filter (·.kind = .variableDeclarator)).filterMap fun declarator =>
      (declarator.child? .name).bind fun name =>
        (identifier? source name).map fun text => (text, .plain text)

def specifierBinding? (specifier : Node) : Option (String × ExportBinding) :=
  (specifier.child? .name).map fun name =>
    let localName := moduleName source name
    (((specifier.child? .alias).map (moduleName source)).getD localName, .plain localName)

def clauseBindings (statement : Node) : List (String × ExportBinding) :=
  (statement.namedChildren.filter (·.kind = .exportClause)).flatMap fun clause =>
    (clause.namedChildren.filter (·.kind = .exportSpecifier)).filterMap (specifierBinding? source)

def exportStatementBindings (statement : Node) : List (String × ExportBinding) :=
  if statement.hasDefaultToken then
    [("default", ⟨true, defaultLocal? source statement⟩)]
  else
    match statement.child? .declaration with
    | some declaration => declaredBindings source declaration
    | none => clauseBindings source statement

/-- The node is `module.exports`, given its object and its property. -/
def isModuleExports (object : Node) (property : String) : Bool :=
  identifier? source object = some "module" && property = "exports"

/-- The node is `exports` or `module.exports`. -/
def isExportsObject (node : Node) : Bool :=
  match node.kind with
  | .identifier => node.text source = "exports"
  | .memberExpression =>
    match node.child? .object, node.child? .property with
    | some object, some property => isModuleExports source object (property.text source)
    | _, _ => false
  | _ => false

def objectEntryBinding? (entry : Node) : Option (String × ExportBinding) :=
  match entry.kind with
  | .shorthandPropertyIdentifier =>
    let name := entry.text source
    some (name, .assigned name (some name))
  | .pair =>
    (entry.child? .key).bind fun key =>
      if key.kind = .propertyIdentifier || key.kind = .identifier then
        let name := key.text source
        some (name, .assigned name ((entry.child? .value).bind (identifier? source)))
      else none
  | .methodDefinition =>
    (entry.child? .name).map fun key => (key.text source, .assigned (key.text source) none)
  | _ => none

/-- The bindings of `left.object.property = right`. -/
def assignmentBindings (object : Node) (property : String) (right : Node) :
    List (String × ExportBinding) :=
  if isExportsObject source object then
    [(property, .assigned property (identifier? source right))]
  else if isModuleExports source object property && right.kind = .object then
    right.namedChildren.filterMap (objectEntryBinding? source)
  else []

def expressionStatementBindings (statement : Node) : List (String × ExportBinding) :=
  match statement.namedChildren with
  | [] => []
  | assignment :: _ =>
    if assignment.kind ≠ .assignmentExpression then []
    else
      match assignment.child? .left, assignment.child? .right with
      | some left, some right =>
        if left.kind ≠ .memberExpression then []
        else
          match left.child? .object, left.child? .property with
          | some object, some property =>
            assignmentBindings source object (property.text source) right
          | _, _ => []
      | _, _ => []

def exportBindings (statement : Node) : List (String × ExportBinding) :=
  match statement.kind with
  | .exportStatement => exportStatementBindings source statement
  | .expressionStatement => expressionStatementBindings source statement
  | _ => []

end Syntax.Node

namespace ExportTable

def record (source : String) (table : ExportTable) (statement : Node) : ExportTable :=
  Listing.setAll table (statement.exportBindings source)

def recordAll (source : String) (table : ExportTable) (statements : List Node) : ExportTable :=
  statements.foldl (record source) table

end ExportTable
end ScopeGraph
