import ScopeGraph.Graph.MergeOp
import ScopeGraph.Json.Strings

/-!
# Merges as Cypher statements

Labels, tags and field names stand in the statement between backticks, a backtick inside of them
written twice.  All other data is in the parameters.
-/
set_option autoImplicit false

namespace ScopeGraph

inductive CypherValue where
  | text (value : String)
  | properties (value : Properties)
  deriving DecidableEq

structure CypherStatement where
  text : String
  parameters : Dictionary CypherValue
  deriving DecidableEq

namespace Cypher

def quoteChars : List Char → List Char
  | [] => []
  | c :: rest => if c = '`' then '`' :: '`' :: quoteChars rest else c :: quoteChars rest

def quote (identifier : String) : String :=
  String.ofList ('`' :: quoteChars identifier.toList ++ ['`'])

def parameterName (variableName : String) (index : Nat) : String := s!"{variableName}{index}"

/-- The fields of a key, each asked for by the parameter of its position. -/
def fieldPatterns (variableName : String) (fields : List (String × String)) : List String :=
  fields.mapIdx fun index field =>
    quote field.1 ++ ": $" ++ parameterName variableName index

/-- `(variable:Label {field: $variable0, ...})` -/
def nodePattern (variableName : String) (key : NodeKey) : String :=
  "(" ++ variableName ++ ":" ++ quote key.label.name ++ " \x7b" ++
    ", ".intercalate (fieldPatterns variableName key.fields) ++ "\x7d)"

def keyParameters (variableName : String) (key : NodeKey) : List (String × CypherValue) :=
  key.fields.mapIdx fun index field => (parameterName variableName index, .text field.2)

def ofMerge : MergeOp → CypherStatement
  | .node merge =>
    let tag := (merge.tag?.map fun tag => " SET n:" ++ quote tag).getD ""
    { text := "MERGE " ++ nodePattern "n" merge.key ++ tag ++ " SET n += $props"
      parameters :=
        Dictionary.ofList
          (keyParameters "n" merge.key ++ [("props", .properties merge.properties)]) }
  | .relationship merge =>
    { text := "MERGE " ++ nodePattern "a" merge.source ++ " MERGE " ++
        nodePattern "b" merge.target ++ " MERGE (a)-[r:" ++ quote merge.kind.name ++
        "]->(b) SET r += $props"
      parameters :=
        Dictionary.ofList (keyParameters "a" merge.source ++ keyParameters "b" merge.target ++
          [("props", .properties merge.properties)]) }

end Cypher

namespace CypherValue

def toJson : CypherValue → Json
  | text value => .string value
  | properties value => value.toJson

end CypherValue

namespace CypherStatement

def parametersJson (statement : CypherStatement) : Json :=
  .object (statement.parameters.entries.map fun entry => (entry.1, entry.2.toJson))

def toJson (statement : CypherStatement) : Json :=
  .object [("statement", .string statement.text), ("parameters", statement.parametersJson)]

/-- The statements of one transaction. -/
def payload (statements : List CypherStatement) : Json :=
  .object [("statements", .array (statements.map toJson))]

end CypherStatement
end ScopeGraph
