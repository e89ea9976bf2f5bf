import ScopeGraph.Proofs.Graph.Key
import ScopeGraph.Proofs.Graph.Writes
import ScopeGraph.Proofs.Json.ReadBack
import ScopeGraph.Store.Database

/-!
# What merges do to the properties of nodes

A merge of a node replaces the properties of that node, and they can be asked for as they were
given.  A merge of a relationship makes nodes of those ends that are none yet, each with the fields
of its key as properties.  Neither changes what is answered about any other node.
-/
set_option autoImplicit false

namespace ScopeGraph

open GraphStore (call)

namespace Content

/-! ## Finding nodes -/

theorem node?_merge_node (content : Content) (merge : NodeMerge) (name : String) :
    (content.merge (.node merge)).node? name =
      if merge.key.canonical = name then
        some ((content.node? name).elim (NodeRow.ofMerge merge) (NodeRow.update merge))
      else content.node? name := by
  rw [node?, nodes_merge]
  exact (NodeRow.write merge).lookup_into name content.nodes

theorem find?_ensure (key : NodeKey) (name : String) (rows : List NodeRow) :
    (NodeRow.ensure key rows).find? (·.key = name) =
      (rows.find? (·.key = name)).or
        (if key.canonical = name then some (NodeRow.ofKey key) else none) := by
  rw [NodeRow.ensure_eq_into]
  refine ((NodeRow.touch key).lookup_into name rows).trans ?_
  change (if key.canonical = name then
      some ((rows.find? (·.key = name)).elim (NodeRow.ofKey key) id)
    else rows.find? (·.key = name)) = _
  cases rows.find? (·.key = name) <;> by_cases here : key.canonical = name <;> simp [here]

/-- A node that is there stays as it is. -/
theorem node?_merge_relationship (content : Content) (merge : RelMerge) (name : String) :
    (content.merge (.relationship merge)).node? name =
      ((content.node? name).or
        (if merge.source.canonical = name then some (NodeRow.ofKey merge.source) else none)).or
        (if merge.target.canonical = name then some (NodeRow.ofKey merge.target) else none) := by
  simp only [node?, Content.merge, find?_ensure]

/-! ## Asking for properties -/

theorem properties?_of_row {content : Content} {key : NodeKey} {row : NodeRow}
    {properties : Properties} (found : content.node? key.canonical = some row)
    (text : row.properties = properties.toText) :
    content.properties? key = .ok (some properties) := by
  simp only [properties?, found, text, Properties.ofText?_toText]

theorem properties?_eq_ok_none_iff (content : Content) (key : NodeKey) :
    content.properties? key = .ok none ↔ content.node? key.canonical = none := by
  rw [properties?]
  cases content.node? key.canonical with
  | none => simp
  | some row => cases read : Properties.ofText? row.properties <;> simp [read]

theorem properties?_congr {first second : Content} {key : NodeKey}
    (same : first.node? key.canonical = second.node? key.canonical) :
    first.properties? key = second.properties? key := by
  simp only [properties?, same]

theorem properties?_merge_node (content : Content) (merge : NodeMerge) (key : NodeKey) :
    (content.merge (.node merge)).properties? key =
      if key.canonical = merge.key.canonical then .ok (some merge.properties)
      else content.properties? key := by
  have found := content.node?_merge_node merge key.canonical
  by_cases here : key.canonical = merge.key.canonical
  · rw [if_pos here.symm] at found
    rw [if_pos here]
    -- The row may be new or an old one: its properties are those of the merge.
    refine properties?_of_row found ?_
    cases content.node? key.canonical <;> rfl
  · rw [if_neg fun same => here same.symm] at found
    rw [if_neg here]
    exact properties?_congr found

theorem properties?_merge_relationship_old (content : Content) (merge : RelMerge) {key : NodeKey}
    (old : content.properties? key ≠ .ok none) :
    (content.merge (.relationship merge)).properties? key = content.properties? key := by
  apply properties?_congr
  rw [Ne, properties?_eq_ok_none_iff] at old
  obtain ⟨row, found⟩ := Option.ne_none_iff_exists'.mp old
  rw [node?_merge_relationship, found]
  rfl

theorem properties?_merge_relationship_aside (content : Content) (merge : RelMerge)
    {key : NodeKey} (source : key.canonical ≠ merge.source.canonical)
    (target : key.canonical ≠ merge.target.canonical) :
    (content.merge (.relationship merge)).properties? key = content.properties? key := by
  apply properties?_congr
  rw [node?_merge_relationship, if_neg source.symm, if_neg target.symm, Option.or_none,
    Option.or_none]

/-- An end that is new has the fields of its key.  The ends may have the same key, with its fields
in another order. -/
theorem properties?_merge_relationship_new (content : Content) (merge : RelMerge) {key : NodeKey}
    (isEnd : key ∈ [merge.source, merge.target]) (new : content.properties? key = .ok none) :
    (content.merge (.relationship merge)).properties? key = .ok (some key.dictionary) := by
  rw [properties?_eq_ok_none_iff] at new
  have found := content.node?_merge_relationship merge key.canonical
  rw [new, Option.none_or] at found
  by_cases first : merge.source.canonical = key.canonical
  · rw [if_pos first, Option.some_or] at found
    obtain ⟨_, fields⟩ := (NodeKey.canonical_eq_iff _ _).mp first
    rw [← fields]
    exact properties?_of_row found rfl
  · have second : key = merge.target := by
      rcases List.mem_pair.mp isEnd with rfl | same
      · exact absurd rfl first
      · exact same
    subst second
    rw [if_neg first, Option.none_or, if_pos rfl] at found
    exact properties?_of_row found rfl

end Content

/-! ## Open databases -/

namespace Database

theorem call_merge_of_isOpen {database : Database} (isOpen : database.isOpen = true)
    (op : MergeOp) :
    (call (.merge op) database).result = .ok () ∧
      (call (.merge op) database).state.isOpen = true ∧
      (call (.merge op) database).state.content = database.content.merge op := by
  obtain ⟨committed, working?, _⟩ := database
  cases isOpen
  cases working? <;> exact ⟨rfl, rfl, rfl⟩

theorem ask_of_isOpen {α : Type} {database : Database} (isOpen : database.isOpen = true)
    (question : Content → Except Error α) : database.ask question = question database.content :=
  if_pos isOpen

end Database

/-- What is answered about the properties of nodes after a merge into an open database.  A key with
the canonical text of a merged node has exactly the merged properties, and other keys have what they
had.  A relationship changes nothing about nodes that were there or are none of its ends; an end
that was not there has exactly the fields of its key. -/
theorem merged_properties_are_answered (database : Database) (isOpen : database.isOpen = true) :
    (∀ merge : NodeMerge,
      let reply := call (.merge (.node merge)) database
      reply.result = .ok () ∧
        ∀ key : NodeKey, reply.state.ask (·.properties? key) =
          if key.canonical = merge.key.canonical then .ok (some merge.properties)
          else database.ask (·.properties? key)) ∧
    ∀ merge : RelMerge,
      let reply := call (.merge (.relationship merge)) database
      reply.result = .ok () ∧
        (∀ key : NodeKey, database.ask (·.properties? key) ≠ .ok none ∨
            (key.canonical ≠ merge.source.canonical ∧ key.canonical ≠ merge.target.canonical) →
          reply.state.ask (·.properties? key) = database.ask (·.properties? key)) ∧
        ∀ key ∈ [merge.source, merge.target], database.ask (·.properties? key) = .ok none →
          ∃ properties, reply.state.ask (·.properties? key) = .ok (some properties) ∧
            ∀ field, properties.get? field = key.value? field := by
  constructor
  · intro merge reply
    obtain ⟨result, stillOpen, content⟩ := Database.call_merge_of_isOpen isOpen (.node merge)
    refine ⟨result, fun key => ?_⟩
    rw [Database.ask_of_isOpen isOpen, Database.ask_of_isOpen stillOpen, content]
    exact database.content.properties?_merge_node merge key
  · intro merge reply
    obtain ⟨result, stillOpen, content⟩ :=
      Database.call_merge_of_isOpen isOpen (.relationship merge)
    simp only [reply, Database.ask_of_isOpen isOpen, Database.ask_of_isOpen stillOpen, content]
    refine ⟨result, ?_, ?_⟩
    · rintro key (old | ⟨source, target⟩)
      · exact database.content.properties?_merge_relationship_old merge old
      · exact database.content.properties?_merge_relationship_aside merge source target
    · intro key isEnd new
      have stored := database.content.properties?_merge_relationship_new merge isEnd new
      exact ⟨key.dictionary, stored, key.get?_dictionary⟩

/-- Quotes, backslashes and control characters come back, and the ends of a relationship may be one
node with its fields in two orders. -/
theorem properties_of_one_callee_are_answered :
    let key : NodeKey := ⟨.callee, [("name", "run"), ("path", "src/app.js")]⟩
    let turned : NodeKey := ⟨.callee, [("path", "src/app.js"), ("name", "run")]⟩
    let properties : Properties := .ofList [("\"a\\", "\x00\n\x1f"), ("", "\\u0000é")]
    let database : Database := ⟨.empty, some .empty, true⟩
    database.isOpen = true ∧
      (call (.merge (.node ⟨key, none, properties⟩)) database).state.ask (·.properties? turned) =
        .ok (some properties) ∧
      database.ask (·.properties? key) = .ok none ∧
      ∃ stored, (call (.merge (.relationship ⟨turned, .calls, key, properties⟩)) database).state.ask
          (·.properties? key) = .ok (some stored) ∧
        ∀ field, stored.get? field = key.value? field := by
  intro key turned properties database
  have same : turned.canonical = key.canonical :=
    (NodeKey.canonical_eq_iff turned key).mpr ⟨rfl, by decide⟩
  obtain ⟨nodes, relationships⟩ := merged_properties_are_answered database rfl
  refine ⟨rfl, ?_, rfl, ?_⟩
  · have answer := (nodes ⟨key, none, properties⟩).2 turned
    rwa [if_pos same] at answer
  · exact (relationships ⟨turned, .calls, key, properties⟩).2.2 key (by simp) rfl

end ScopeGraph
