import ScopeGraph.Graph.Content
import ScopeGraph.Report.Table

/-!
# Statistics of a graph
-/
set_option autoImplicit false

namespace ScopeGraph

structure Stats where
  nodes : Nat
  relationships : Nat
  byLabel : List (Label × Nat)
  byKind : List (RelKind × Nat)
  deriving DecidableEq, Repr

namespace Stats

def ofContent (content : Content) : Stats where
  nodes := content.nodeCount none
  relationships := content.relationshipCount none
  byLabel := Label.all.map fun label => (label, content.nodeCount (some label))
  byKind := RelKind.all.map fun kind => (kind, content.relationshipCount (some kind))

def display (stats : Stats) : String :=
  let labels := stats.byLabel.map fun entry => s!"    {entry.1.name}: {entry.2}\n"
  let kinds := stats.byKind.map fun entry => s!"    {entry.1.name}: {entry.2}\n"
  s!"Graph Statistics:\n  Nodes: {stats.nodes}\n" ++ String.join labels ++
    s!"  Relationships: {stats.relationships}\n" ++ String.join kinds

def rows (stats : Stats) : List Table.Row :=
  ⟨"Nodes", toString stats.nodes⟩ ::
    stats.byLabel.map (fun entry => ⟨"  " ++ entry.1.name, toString entry.2⟩) ++
    ⟨"Relationships", toString stats.relationships⟩ ::
    stats.byKind.map (fun entry => ⟨"  " ++ entry.1.name, toString entry.2⟩)

def table (stats : Stats) : String := Table.draw stats.rows

def toJson (stats : Stats) : Json :=
  .object
    [("nodes", .number stats.nodes),
     ("relationships", .number stats.relationships),
     ("nodes_by_label",
       .array (stats.byLabel.map fun entry => .array [.string entry.1.title, .number entry.2])),
     ("relationships_by_kind",
       .array (stats.byKind.map fun entry => .array [.string entry.1.name, .number entry.2]))]

end Stats
end ScopeGraph
