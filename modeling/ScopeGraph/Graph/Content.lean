import ScopeGraph.Error
import ScopeGraph.Graph.MergeOp
import ScopeGraph.Json.Strings

/-!
# Content of a property graph

The content lists the nodes and the relationships in the order in which they came.  A node is found
by the canonical text of its key, a relationship by its two ends and its kind.  Merging replaces
properties and keeps a tag where none is given; it never takes anything away.
-/
set_option autoImplicit false

namespace ScopeGraph

/-- The name column of a node. -/
inductive NameCell where
  | absent
  | text (name : String)
  /-- A value that is no text. -/
  | unreadable
  deriving DecidableEq, Repr

structure NodeRow where
  label : Label
  /-- The canonical text of the key. -/
  key : String
  name : NameCell
  tag? : Option String
  /-- A JSON object of strings. -/
  properties : String
  deriving DecidableEq, Repr

structure RelRow where
  /-- Key of the node that the relationship leaves. -/
  source : String
  kind : RelKind
  /-- Key of the node that it enters. -/
  target : String
  properties : String
  deriving DecidableEq, Repr

structure Content where
  nodes : List NodeRow
  relationships : List RelRow
  deriving DecidableEq, Repr

namespace NameCell

def ofOption : Option String → NameCell
  | none => absent
  | some name => text name

def read : NameCell → Except Error (Option String)
  | absent => .ok none
  | text name => .ok (some name)
  | unreadable => .error .storage

end NameCell

namespace NodeRow

def ofMerge (merge : NodeMerge) : NodeRow where
  label := merge.key.label
  key := merge.key.canonical
  name := .ofOption merge.key.name?
  tag? := merge.tag?
  properties := merge.properties.toText

/-- A node that is known by its key alone. -/
def ofKey (key : NodeKey) : NodeRow := ofMerge ⟨key, none, key.dictionary⟩

def update (merge : NodeMerge) (row : NodeRow) : NodeRow :=
  { row with tag? := merge.tag?.or row.tag?, properties := merge.properties.toText }

/-- Updates the row with the key of the merge, or adds one. -/
def mergeInto (merge : NodeMerge) : List NodeRow → List NodeRow
  | [] => [ofMerge merge]
  | row :: rest =>
    if row.key = merge.key.canonical then row.update merge :: rest
    else row :: mergeInto merge rest

/-- Adds a row for a key that has none. -/
def ensure (key : NodeKey) : List NodeRow → List NodeRow
  | [] => [ofKey key]
  | row :: rest => if row.key = key.canonical then row :: rest else row :: ensure key rest

end NodeRow

namespace RelRow

def ofMerge (merge : RelMerge) : RelRow where
  source := merge.source.canonical
  kind := merge.kind
  target := merge.target.canonical
  properties := merge.properties.toText

/-- The row stands for the relationship of the merge. -/
def Matches (merge : RelMerge) (row : RelRow) : Prop :=
  row.source = merge.source.canonical ∧ row.kind = merge.kind ∧ row.target = merge.target.canonical

instance (merge : RelMerge) (row : RelRow) : Decidable (Matches merge row) :=
  inferInstanceAs (Decidable (_ ∧ _ ∧ _))

def mergeInto (merge : RelMerge) : List RelRow → List RelRow
  | [] => [ofMerge merge]
  | row :: rest =>
    if Matches merge row then { row with properties := merge.properties.toText } :: rest
    else row :: mergeInto merge rest

end RelRow

namespace Content

def empty : Content := ⟨[], []⟩

def merge (content : Content) : MergeOp → Content
  | .node merge => { content with nodes := NodeRow.mergeInto merge content.nodes }
  | .relationship merge =>
    { nodes := NodeRow.ensure merge.target (NodeRow.ensure merge.source content.nodes)
      relationships := RelRow.mergeInto merge content.relationships }

def mergeAll (content : Content) (ops : List MergeOp) : Content := ops.foldl merge content

/-! ## Questions -/

def node? (content : Content) (key : String) : Option NodeRow :=
  content.nodes.find? (·.key = key)

/-- The properties of a node, if there is one with this key. -/
def properties? (content : Content) (key : NodeKey) : Except Error (Option Properties) :=
  match content.node? key.canonical with
  | none => .ok none
  | some row =>
    match Properties.ofText? row.properties with
    | some properties => .ok (some properties)
    | none => .error .serialization

/-- The names of the nodes with a label, in order of their characters. -/
def names (content : Content) (label : Label) : Except Error (List String) :=
  ((content.nodes.filter (·.label = label)).mapM fun row => NameCell.read row.name).map
    fun cells => (cells.filterMap id).mergeSort

/-- The names at both ends of the relationships of a kind; an end without a name counts as
nameless. -/
def namePairs (content : Content) (kind : RelKind) : Except Error (List (String × String)) :=
  (content.relationships.filter (·.kind = kind)).mapM fun row => do
    let source ← nameOf row.source
    let target ← nameOf row.target
    return (source, target)
where
  nameOf (key : String) : Except Error String :=
    match content.node? key with
    | some row => (NameCell.read row.name).map (·.getD "")
    | none => .ok ""

def nodeCount (content : Content) : Option Label → Nat
  | none => content.nodes.length
  | some label => content.nodes.countP (·.label = label)

def relationshipCount (content : Content) : Option RelKind → Nat
  | none => content.relationships.length
  | some kind => content.relationships.countP (·.kind = kind)

end Content
end ScopeGraph
