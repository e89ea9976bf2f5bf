import ScopeGraph.Graph.Content

/-!
# Graph content as text

A heading, then one line for each node and each relationship in their order.  A line is a JSON
object of strings.
-/
set_option autoImplicit false

namespace ScopeGraph

def Label.ofName? (name : String) : Option Label := Label.all.find? (·.name = name)

def RelKind.ofName? (name : String) : Option RelKind := RelKind.all.find? (·.name = name)

namespace NodeRow

def nameEntries : NameCell → List (String × String)
  | .absent => []
  | .text name => [("name", name)]
  | .unreadable => [("unreadable", "")]

def toProperties (row : NodeRow) : Properties :=
  Dictionary.ofList
    ([("label", row.label.name), ("key", row.key), ("properties", row.properties)] ++
      nameEntries row.name ++ (row.tag?.map fun tag => ("tag", tag)).toList)

def ofProperties? (line : Properties) : Option NodeRow := do
  let label ← (line.get? "label").bind Label.ofName?
  let key ← line.get? "key"
  let properties ← line.get? "properties"
  let name : NameCell :=
    if (line.get? "unreadable").isSome then .unreadable else .ofOption (line.get? "name")
  return { label, key, name, tag? := line.get? "tag", properties }

end NodeRow

namespace RelRow

def toProperties (row : RelRow) : Properties :=
  Dictionary.ofList
    [("from", row.source), ("kind", row.kind.name), ("to", row.target),
     ("properties", row.properties)]

def ofProperties? (line : Properties) : Option RelRow := do
  let source ← line.get? "from"
  let kind ← (line.get? "kind").bind RelKind.ofName?
  let target ← line.get? "to"
  let properties ← line.get? "properties"
  return { source, kind, target, properties }

end RelRow

namespace Content

def heading : String := "property graph, version 1"

def toText (content : Content) : String :=
  let lines :=
    content.nodes.map (·.toProperties.toText) ++ content.relationships.map (·.toProperties.toText)
  String.join ((heading :: lines).map (· ++ "\n"))

/-- Puts the row of a line behind the others. -/
def addLine? (content : Content) (line : Properties) : Option Content :=
  match RelRow.ofProperties? line, NodeRow.ofProperties? line with
  | some row, _ => some { content with relationships := content.relationships ++ [row] }
  | none, some row => some { content with nodes := content.nodes ++ [row] }
  | none, none => none

def ofText? (text : String) : Option Content :=
  match text.splitOn "\n" with
  | first :: lines =>
    if first = heading then
      (lines.filter (· ≠ "")).foldlM (fun content line =>
        (Properties.ofText? line).bind content.addLine?) empty
    else none
  | [] => none

end Content
end ScopeGraph
