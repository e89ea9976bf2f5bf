/-!
# Kinds of syntax nodes

The grammar of JavaScript has some two hundred kinds of nodes; the extraction tells apart the ones
listed here and treats the rest alike.  A field is the role that a node plays in its parent.
-/
set_option autoImplicit false

namespace ScopeGraph.Syntax

inductive Kind where
  | comment
  | functionDeclaration
  | generatorFunctionDeclaration
  | functionExpression
  | function
  | generatorFunction
  | arrowFunction
  | methodDefinition
  | classDeclaration
  | classExpression
  | fieldDefinition
  | classStaticBlock
  | exportStatement
  | exportClause
  | exportSpecifier
  | expressionStatement
  | assignmentExpression
  | variableDeclarator
  | callExpression
  | memberExpression
  | subscriptExpression
  | sequenceExpression
  | parenthesizedExpression
  | identifier
  | propertyIdentifier
  | shorthandPropertyIdentifier
  | this
  | object
  | pair
  | default
  | other (name : String)
  deriving DecidableEq, Repr

namespace Kind

def name : Kind → String
  | comment => "comment"
  | functionDeclaration => "function_declaration"
  | generatorFunctionDeclaration => "generator_function_declaration"
  | functionExpression => "function_expression"
  | function => "function"
  | generatorFunction => "generator_function"
  | arrowFunction => "arrow_function"
  | methodDefinition => "method_definition"
  | classDeclaration => "class_declaration"
  | classExpression => "class"
  | fieldDefinition => "field_definition"
  | classStaticBlock => "class_static_block"
  | exportStatement => "export_statement"
  | exportClause => "export_clause"
  | exportSpecifier => "export_specifier"
  | expressionStatement => "expression_statement"
  | assignmentExpression => "assignment_expression"
  | variableDeclarator => "variable_declarator"
  | callExpression => "call_expression"
  | memberExpression => "member_expression"
  | subscriptExpression => "subscript_expression"
  | sequenceExpression => "sequence_expression"
  | parenthesizedExpression => "parenthesized_expression"
  | identifier => "identifier"
  | propertyIdentifier => "property_identifier"
  | shorthandPropertyIdentifier => "shorthand_property_identifier"
  | this => "this"
  | object => "object"
  | pair => "pair"
  | default => "default"
  | other name => name

/-- The kinds that have a name of their own. -/
def known : List Kind :=
  [comment, functionDeclaration, generatorFunctionDeclaration, functionExpression, function,
    generatorFunction, arrowFunction, methodDefinition, classDeclaration, classExpression,
    fieldDefinition, classStaticBlock, exportStatement, exportClause, exportSpecifier,
    expressionStatement, assignmentExpression, variableDeclarator, callExpression,
    memberExpression, subscriptExpression, sequenceExpression, parenthesizedExpression,
    identifier, propertyIdentifier, shorthandPropertyIdentifier, this, object, pair, default]

def ofName (text : String) : Kind := (known.find? (·.name = text)).getD (other text)

end Kind

inductive Field where
  | name
  | body
  | function
  | object
  | property
  | index
  | declaration
  | value
  | alias
  | left
  | right
  | key
  | other
  deriving DecidableEq, Repr

def Field.ofName : String → Field
  | "name" => .name
  | "body" => .body
  | "function" => .function
  | "object" => .object
  | "property" => .property
  | "index" => .index
  | "declaration" => .declaration
  | "value" => .value
  | "alias" => .alias
  | "left" => .left
  | "right" => .right
  | "key" => .key
  | _ => .other

end ScopeGraph.Syntax
