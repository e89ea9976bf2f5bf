import ScopeGraph.Graph.Cypher
import ScopeGraph.Proofs.Graph.Key

/-!
# Statements keep the operation and hide its data

A reader of identifiers undoes the doubling of backticks, so the text of a statement shows labels,
kind, tag and field names of its operation and nothing else of it.  A reader of parameters finds
each value of the operation under a parameter of its own.  Together they give the operation back.
-/
set_option autoImplicit false

namespace ScopeGraph

theorem RelKind.name_inj {first second : RelKind} (same : first.name = second.name) :
    first = second := by
  cases first <;> cases second <;> first | rfl | exact absurd same (by decide)

namespace Cypher

/-! ## Identifiers -/

/-- Reads an identifier behind its opening backtick and gives it with the text that follows: a
doubled backtick stands for one, a single one ends it. -/
def identifier? : List Char → Option (List Char × List Char)
  | [] => none
  | '`' :: '`' :: rest => (identifier? rest).map fun read => ('`' :: read.1, read.2)
  | '`' :: rest => some ([], rest)
  | c :: rest => (identifier? rest).map fun read => (c :: read.1, read.2)

def unquote? : List Char → Option (String × List Char)
  | '`' :: rest => (identifier? rest).map fun read => (String.ofList read.1, read.2)
  | _ => none

theorem identifier?_quoteChars (chars rest : List Char) (apart : rest.head? ≠ some '`') :
    identifier? (quoteChars chars ++ '`' :: rest) = some (chars, rest) := by
  induction chars with
  | nil =>
      cases rest with
      | nil => rfl
      | cons c more =>
          have other : c ≠ '`' := fun same => apart (by rw [same]; rfl)
          simp [quoteChars, identifier?, other]
  | cons c chars ih =>
      by_cases backtick : c = '`'
      · subst backtick
        simp [quoteChars, identifier?, ih]
      · simp [quoteChars, identifier?, backtick, ih]

theorem toList_quote (identifier : String) :
    (quote identifier).toList = '`' :: (quoteChars identifier.toList ++ ['`']) := by
  simp [quote]

theorem unquote?_quote (identifier : String) (rest : List Char) (apart : rest.head? ≠ some '`') :
    unquote? ((quote identifier).toList ++ rest) = some (identifier, rest) := by
  have read := identifier?_quoteChars identifier.toList rest apart
  simp [toList_quote, unquote?, read]

theorem quote_append_inj {first second : String} {rest other : List Char}
    (apart : rest.head? ≠ some '`') (otherApart : other.head? ≠ some '`')
    (same : (quote first).toList ++ rest = (quote second).toList ++ other) :
    first = second ∧ rest = other := by
  have read := congrArg unquote? same
  rw [unquote?_quote first rest apart, unquote?_quote second other otherApart] at read
  exact Prod.mk.inj (Option.some.inj read)

/-! ## Patterns -/

def fieldPattern (variableName : String) (index : Nat) (field : String × String) : List Char :=
  (quote field.1).toList ++ (": $".toList ++ (parameterName variableName index).toList)

/-- The fields behind the first one, each with what divides it from the one before. -/
def laterFields (variableName : String) : Nat → List (String × String) → List Char
  | _, [] => []
  | index, field :: rest =>
    ',' :: ' ' :: (fieldPattern variableName index field ++
      laterFields variableName (index + 1) rest)

def fieldsText (variableName : String) : List (String × String) → List Char
  | [] => []
  | field :: rest => fieldPattern variableName 0 field ++ laterFields variableName 1 rest

theorem toList_intercalate_cons (separator first : String) (rest : List String) :
    (separator.intercalate (first :: rest)).toList =
      first.toList ++ rest.flatMap fun next => separator.toList ++ next.toList := by
  induction rest generalizing first with
  | nil => simp
  | cons next rest ih =>
      have tail := ih next
      rw [String.toList_intercalate] at tail ⊢
      rw [List.map_cons, List.map_cons, List.intercalate_cons_cons, ← List.map_cons, tail]
      simp

theorem laterFields_eq (variableName : String) (fields : List (String × String)) (start : Nat) :
    laterFields variableName start fields =
      (fields.mapIdx fun index field =>
        quote field.1 ++ ": $" ++ parameterName variableName (start + index)).flatMap
          fun pattern => ", ".toList ++ pattern.toList := by
  induction fields generalizing start with
  | nil => rfl
  | cons field rest ih =>
      have shift : ∀ index, start + 1 + index = start + (index + 1) := by
        intro index
        omega
      rw [laterFields, List.mapIdx_cons, List.flatMap_cons, ih]
      simp only [shift]
      simp [fieldPattern]

theorem toList_nodePattern (variableName : String) (key : NodeKey) :
    (nodePattern variableName key).toList =
      "(".toList ++ (variableName.toList ++ (":".toList ++ ((quote key.label.name).toList ++
        (" \x7b".toList ++ (fieldsText variableName key.fields ++ "\x7d)".toList))))) := by
  have fields : (", ".intercalate (fieldPatterns variableName key.fields)).toList =
      fieldsText variableName key.fields := by
    cases key.fields with
    | nil => rfl
    | cons field rest =>
        rw [fieldPatterns, List.mapIdx_cons, toList_intercalate_cons, fieldsText, laterFields_eq]
        simp [fieldPattern, Nat.add_comm]
  simp only [nodePattern, String.toList_append, fields, List.append_assoc]

theorem fieldPattern_append_inj {variableName : String} {index : Nat}
    {first second : String × String} {rest other : List Char}
    (same : fieldPattern variableName index first ++ rest =
      fieldPattern variableName index second ++ other) :
    first.1 = second.1 ∧ rest = other := by
  simp only [fieldPattern, List.append_assoc] at same
  obtain ⟨names, after⟩ := quote_append_inj (by simp) (by simp) same
  exact ⟨names, List.append_cancel_left (List.append_cancel_left after)⟩

theorem laterFields_append_inj {variableName : String} {rest other : List Char}
    (first : List (String × String)) : ∀ (second : List (String × String)) (index : Nat),
    laterFields variableName index first ++ '\x7d' :: rest =
        laterFields variableName index second ++ '\x7d' :: other →
      first.map Prod.fst = second.map Prod.fst ∧ rest = other := by
  induction first with
  | nil =>
      intro second index same
      cases second with
      | nil => exact ⟨rfl, (List.cons.inj same).2⟩
      | cons field later => exact absurd (List.cons.inj same).1 (by decide)
  | cons field tail ih =>
      intro second index same
      cases second with
      | nil => exact absurd (List.cons.inj same).1 (by decide)
      | cons found later =>
          simp only [laterFields, List.cons_append, List.append_assoc, List.cons.injEq,
            true_and] at same
          obtain ⟨names, after⟩ := fieldPattern_append_inj same
          obtain ⟨tails, remainder⟩ := ih later (index + 1) after
          exact ⟨by rw [List.map_cons, List.map_cons, names, tails], remainder⟩

theorem fieldsText_append_inj {variableName : String} {first second : List (String × String)}
    {rest other : List Char}
    (same : fieldsText variableName first ++ '\x7d' :: rest =
      fieldsText variableName second ++ '\x7d' :: other) :
    first.map Prod.fst = second.map Prod.fst ∧ rest = other := by
  cases first with
  | nil =>
      cases second with
      | nil => exact ⟨rfl, (List.cons.inj same).2⟩
      | cons field later =>
          simp only [fieldsText, fieldPattern, toList_quote, List.cons_append] at same
          exact absurd (List.cons.inj same).1 (by decide)
  | cons field tail =>
      cases second with
      | nil =>
          simp only [fieldsText, fieldPattern, toList_quote, List.cons_append] at same
          exact absurd (List.cons.inj same).1 (by decide)
      | cons found later =>
          simp only [fieldsText, List.append_assoc] at same
          obtain ⟨names, after⟩ := fieldPattern_append_inj same
          obtain ⟨tails, remainder⟩ := laterFields_append_inj tail later 1 after
          exact ⟨by rw [List.map_cons, List.map_cons, names, tails], remainder⟩

theorem nodePattern_append_inj {variableName : String} {first second : NodeKey}
    {rest other : List Char}
    (same : (nodePattern variableName first).toList ++ rest =
      (nodePattern variableName second).toList ++ other) :
    (first.label = second.label ∧ first.fields.map Prod.fst = second.fields.map Prod.fst) ∧
      rest = other := by
  simp only [toList_nodePattern, List.append_assoc] at same
  have labels := List.append_cancel_left (List.append_cancel_left (List.append_cancel_left same))
  obtain ⟨names, behindLabel⟩ := quote_append_inj (by simp) (by simp) labels
  obtain ⟨fields, closed⟩ := fieldsText_append_inj (List.append_cancel_left behindLabel)
  exact ⟨⟨Label.name_inj names, fields⟩, (List.cons.inj closed).2⟩

end Cypher

/-! ## What the text shows -/

/-- The key without its values. -/
def NodeKey.blank (key : NodeKey) : NodeKey :=
  { key with fields := key.fields.map fun field => (field.1, "") }

/-- The operation without its values and properties. -/
def MergeOp.blank : MergeOp → MergeOp
  | .node merge => .node ⟨merge.key.blank, merge.tag?, .empty⟩
  | .relationship merge =>
    .relationship ⟨merge.source.blank, merge.kind, merge.target.blank, .empty⟩

theorem NodeKey.blank_eq {first second : NodeKey}
    (same : first.label = second.label ∧
      first.fields.map Prod.fst = second.fields.map Prod.fst) :
    first.blank = second.blank := by
  have fields := congrArg (List.map fun name => (name, "")) same.2
  rw [List.map_map, List.map_map] at fields
  rw [NodeKey.blank, NodeKey.blank, same.1]
  exact congrArg (NodeKey.mk second.label) fields

namespace Cypher

theorem nodePattern_blank (variableName : String) (key : NodeKey) :
    nodePattern variableName key.blank = nodePattern variableName key := by
  have patterns : fieldPatterns variableName key.blank.fields =
      fieldPatterns variableName key.fields := by
    refine List.ext_getElem? fun index => ?_
    simp only [fieldPatterns, NodeKey.blank, List.getElem?_mapIdx, List.getElem?_map,
      Option.map_map]
    rfl
  rw [nodePattern, nodePattern, patterns]
  rfl

theorem text_blank (op : MergeOp) : (ofMerge op.blank).text = (ofMerge op).text := by
  cases op with
  | node merge => simp only [MergeOp.blank, ofMerge, nodePattern_blank]
  | relationship merge => simp only [MergeOp.blank, ofMerge, nodePattern_blank]

/-- What stands between the pattern of a node and its properties. -/
def tagText (tag? : Option String) : String := (tag?.map fun tag => " SET n:" ++ quote tag).getD ""

theorem untagged_ne_tagged (rest other : List Char) :
    " SET n += ".toList ++ rest ≠ " SET n:".toList ++ other := by
  simp

theorem tagText_append_inj {first second : Option String} {rest other : List Char}
    (same : (tagText first).toList ++ (" SET n += ".toList ++ rest) =
      (tagText second).toList ++ (" SET n += ".toList ++ other)) : first = second := by
  have tagged (tag : String) :
      (tagText (some tag)).toList = " SET n:".toList ++ (quote tag).toList := String.toList_append
  cases first with
  | none =>
      cases second with
      | none => rfl
      | some tag =>
          rw [tagged, List.append_assoc] at same
          exact absurd same (untagged_ne_tagged _ _)
  | some tag =>
      cases second with
      | none =>
          rw [tagged, List.append_assoc] at same
          exact absurd same.symm (untagged_ne_tagged _ _)
      | some found =>
          rw [tagged, tagged, List.append_assoc, List.append_assoc] at same
          have tags := List.append_cancel_left same
          rw [(quote_append_inj (by simp) (by simp) tags).1]

theorem toList_text_node (merge : NodeMerge) :
    (ofMerge (.node merge)).text.toList =
      "MERGE ".toList ++ ((nodePattern "n" merge.key).toList ++
        ((tagText merge.tag?).toList ++ (" SET n += ".toList ++ "$props".toList))) := by
  have props : " SET n += $props".toList = " SET n += ".toList ++ "$props".toList := by decide
  rw [ofMerge]
  simp only [String.toList_append, List.append_assoc, props]
  rfl

theorem toList_text_relationship (merge : RelMerge) :
    (ofMerge (.relationship merge)).text.toList =
      "MERGE ".toList ++ ((nodePattern "a" merge.source).toList ++ (" MERGE ".toList ++
        ((nodePattern "b" merge.target).toList ++ (" MERGE (a)-[r:".toList ++
          ((quote merge.kind.name).toList ++
            ("]->(b) SET r += ".toList ++ "$props".toList)))))) := by
  have props : "]->(b) SET r += $props".toList = "]->(b) SET r += ".toList ++ "$props".toList := by
    decide
  simp only [ofMerge, String.toList_append, List.append_assoc, props]

theorem text_node_ne_relationship (node : NodeMerge) (relationship : RelMerge) :
    (ofMerge (.node node)).text ≠ (ofMerge (.relationship relationship)).text := by
  intro same
  have texts := congrArg String.toList same
  rw [toList_text_node, toList_text_relationship, toList_nodePattern, toList_nodePattern] at texts
  simp at texts

theorem blank_eq_of_text {first second : MergeOp}
    (same : (ofMerge first).text = (ofMerge second).text) : first.blank = second.blank := by
  cases first with
  | node first =>
      cases second with
      | node second =>
          have texts := congrArg String.toList same
          rw [toList_text_node, toList_text_node] at texts
          obtain ⟨keys, behindKey⟩ := nodePattern_append_inj (List.append_cancel_left texts)
          have tags := tagText_append_inj behindKey
          simp only [MergeOp.blank, NodeKey.blank_eq keys, tags]
      | relationship second => exact absurd same (text_node_ne_relationship first second)
  | relationship first =>
      cases second with
      | node second => exact absurd same.symm (text_node_ne_relationship second first)
      | relationship second =>
          have texts := congrArg String.toList same
          rw [toList_text_relationship, toList_text_relationship] at texts
          obtain ⟨sources, behindSource⟩ := nodePattern_append_inj (List.append_cancel_left texts)
          obtain ⟨targets, behindTarget⟩ :=
            nodePattern_append_inj (List.append_cancel_left behindSource)
          obtain ⟨kinds, _⟩ :=
            quote_append_inj (by simp) (by simp) (List.append_cancel_left behindTarget)
          simp only [MergeOp.blank, NodeKey.blank_eq sources, NodeKey.blank_eq targets,
            RelKind.name_inj kinds]

theorem text_eq_iff (first second : MergeOp) :
    (ofMerge first).text = (ofMerge second).text ↔ first.blank = second.blank := by
  constructor
  · exact blank_eq_of_text
  · intro same
    rw [← text_blank first, same, text_blank]

/-! ## Parameters -/

/-- Where a reader of a statement stands. -/
inductive Reading where
  | outside
  /-- Between backticks. -/
  | quoted
  /-- Behind a dollar sign and the letters and digits so far. -/
  | parameter (name : List Char)

def Reading.enter (c : Char) : Reading :=
  if c = '`' then .quoted else if c = '$' then .parameter [] else .outside

/-- The parameters that are named from here on. -/
def named : Reading → List Char → List String
  | .parameter name, [] => [String.ofList name]
  | _, [] => []
  | .outside, c :: rest => named (.enter c) rest
  | .quoted, c :: rest => named (if c = '`' then .outside else .quoted) rest
  | .parameter name, c :: rest =>
    if c.isAlphanum then named (.parameter (name ++ [c])) rest
    else String.ofList name :: named (.enter c) rest

/-- The parameters that a statement names, in order: what follows a dollar sign outside of
backticks. -/
def parametersNamed (text : String) : List String := named .outside text.toList

theorem named_plain (chars rest : List Char) (plain : '`' ∉ chars ∧ '$' ∉ chars) :
    named .outside (chars ++ rest) = named .outside rest := by
  induction chars with
  | nil => rfl
  | cons c chars ih =>
      simp only [List.mem_cons, not_or] at plain
      obtain ⟨⟨noBacktick, restNoBacktick⟩, noDollar, restNoDollar⟩ := plain
      have stays : Reading.enter c = .outside := by
        rw [Reading.enter, if_neg (Ne.symm noBacktick), if_neg (Ne.symm noDollar)]
      rw [List.cons_append, named, stays]
      exact ih ⟨restNoBacktick, restNoDollar⟩

/-- Leaving and entering at a doubled backtick names nothing. -/
theorem named_quoteChars (chars rest : List Char) :
    named .quoted (quoteChars chars ++ '`' :: rest) = named .outside rest := by
  induction chars with
  | nil => simp [quoteChars, named]
  | cons c chars ih =>
      by_cases backtick : c = '`'
      · simp [quoteChars, named, backtick, Reading.enter, ih]
      · simp [quoteChars, named, backtick, ih]

theorem named_quote (identifier : String) (rest : List Char) :
    named .outside ((quote identifier).toList ++ rest) = named .outside rest := by
  simp [toList_quote, named, Reading.enter, named_quoteChars]

theorem named_letters {chars rest : List Char} (letters : ∀ c ∈ chars, c.isAlphanum)
    (ends : ∀ c ∈ rest.head?, ¬ c.isAlphanum) (begun : List Char) :
    named (.parameter begun) (chars ++ rest) =
      String.ofList (begun ++ chars) :: named .outside rest := by
  induction chars generalizing begun with
  | nil =>
      cases rest with
      | nil => simp [named]
      | cons c rest =>
          have other : ¬ c.isAlphanum := ends c rfl
          simp [named, other]
  | cons c chars ih =>
      obtain ⟨letter, others⟩ := List.forall_mem_cons.mp letters
      rw [List.cons_append, named, if_pos letter, ih others]
      simp

theorem named_dollar {name : String} {rest : List Char} (letters : ∀ c ∈ name.toList, c.isAlphanum)
    (ends : ∀ c ∈ rest.head?, ¬ c.isAlphanum) :
    named .outside ('$' :: (name.toList ++ rest)) = name :: named .outside rest := by
  have enters : Reading.enter '$' = .parameter [] := rfl
  rw [named, enters, named_letters letters ends]
  simp

theorem toList_parameterName (variableName : String) (index : Nat) :
    (parameterName variableName index).toList = variableName.toList ++ Nat.toDigits 10 index := by
  have whole : toString variableName = variableName := rfl
  simp [parameterName, whole]

theorem parameterName_inj {variableName : String} {first second : Nat}
    (same : parameterName variableName first = parameterName variableName second) :
    first = second := by
  have texts := congrArg String.toList same
  rw [toList_parameterName, toList_parameterName] at texts
  have values := congrArg (Nat.ofDigitChars 10 · 0) (List.append_cancel_left texts)
  simpa only [Nat.ofDigitChars_ten_toDigits] using values

theorem isAlphanum_of_mem_parameterName {variableName : String}
    (letters : ∀ c ∈ variableName.toList, c.isAlphanum) (index : Nat) :
    ∀ c ∈ (parameterName variableName index).toList, c.isAlphanum := by
  intro c member
  rw [toList_parameterName] at member
  rcases List.mem_append.mp member with inName | inDigits
  · exact letters c inName
  · have digit := Nat.isDigit_of_mem_toDigits (by decide) (by decide) inDigits
    simp [Char.isAlphanum, digit]

theorem head_laterFields (variableName : String) (fields : List (String × String)) (start : Nat)
    {rest : List Char} (ends : ∀ c ∈ rest.head?, ¬ c.isAlphanum) :
    ∀ c ∈ (laterFields variableName start fields ++ rest).head?, ¬ c.isAlphanum := by
  cases fields with
  | nil => exact ends
  | cons field others =>
      intro c first
      cases first
      decide

section Named

variable {variableName : String} (letters : ∀ c ∈ variableName.toList, c.isAlphanum)
include letters

theorem named_fieldPattern (index : Nat) (field : String × String) {rest : List Char}
    (ends : ∀ c ∈ rest.head?, ¬ c.isAlphanum) :
    named .outside (fieldPattern variableName index field ++ rest) =
      parameterName variableName index :: named .outside rest := by
  have parameter := named_dollar (isAlphanum_of_mem_parameterName letters index) ends
  rw [← parameter, fieldPattern, List.append_assoc, named_quote]
  exact named_plain [':', ' '] _ (by decide)

theorem named_laterFields (fields : List (String × String)) (start : Nat) {rest : List Char}
    (ends : ∀ c ∈ rest.head?, ¬ c.isAlphanum) :
    named .outside (laterFields variableName start fields ++ rest) =
      (List.range' start fields.length).map (parameterName variableName) ++
        named .outside rest := by
  induction fields generalizing start with
  | nil => rfl
  | cons field fields ih =>
      have following := head_laterFields variableName fields (start + 1) ends
      have comma := named_plain [',', ' '] (fieldPattern variableName start field ++
        (laterFields variableName (start + 1) fields ++ rest)) (by decide)
      rw [named_fieldPattern letters start field following, ih (start + 1)] at comma
      rw [laterFields, List.length_cons, List.range'_succ, List.map_cons]
      simpa using comma

theorem named_fieldsText (fields : List (String × String)) {rest : List Char}
    (ends : ∀ c ∈ rest.head?, ¬ c.isAlphanum) :
    named .outside (fieldsText variableName fields ++ rest) =
      (List.range fields.length).map (parameterName variableName) ++ named .outside rest := by
  cases fields with
  | nil => rfl
  | cons field fields =>
      have following := head_laterFields variableName fields 1 ends
      rw [fieldsText, List.append_assoc, named_fieldPattern letters 0 field following,
        named_laterFields letters fields 1 ends, List.length_cons, List.range_eq_range',
        List.range'_succ]
      rfl

theorem named_nodePattern (key : NodeKey) (rest : List Char) :
    named .outside ((nodePattern variableName key).toList ++ rest) =
      (List.range key.fields.length).map (parameterName variableName) ++
        named .outside rest := by
  have plain : '`' ∉ variableName.toList ∧ '$' ∉ variableName.toList :=
    ⟨fun member => absurd (letters _ member) (by decide),
      fun member => absurd (letters _ member) (by decide)⟩
  have closing : ∀ c ∈ ("\x7d)".toList ++ rest).head?, ¬ c.isAlphanum := by
    intro c first
    cases first
    decide
  rw [toList_nodePattern]
  simp only [List.append_assoc]
  rw [named_plain "(".toList _ (by decide), named_plain variableName.toList _ plain,
    named_plain ":".toList _ (by decide), named_quote, named_plain " \x7b".toList _ (by decide),
    named_fieldsText letters key.fields closing, named_plain "\x7d)".toList rest (by decide)]

end Named

/-- The parameters of a statement with their values, in the order in which the text names them. -/
def pairs : MergeOp → List (String × CypherValue)
  | .node merge => keyParameters "n" merge.key ++ [("props", .properties merge.properties)]
  | .relationship merge =>
    keyParameters "a" merge.source ++ keyParameters "b" merge.target ++
      [("props", .properties merge.properties)]

theorem parameters_ofMerge (op : MergeOp) :
    (ofMerge op).parameters = Dictionary.ofList (pairs op) := by
  cases op <;> rfl

theorem names_keyParameters (variableName : String) (key : NodeKey) :
    (keyParameters variableName key).map Prod.fst =
      (List.range key.fields.length).map (parameterName variableName) := by
  refine List.ext_getElem (by simp [keyParameters]) fun index _ _ => ?_
  simp [keyParameters]

theorem values_keyParameters (variableName : String) (key : NodeKey) :
    (keyParameters variableName key).map Prod.snd =
      key.fields.map fun field => CypherValue.text field.2 := by
  refine List.ext_getElem (by simp [keyParameters]) fun index _ _ => ?_
  simp [keyParameters]

theorem parametersNamed_ofMerge (op : MergeOp) :
    parametersNamed (ofMerge op).text = (pairs op).map Prod.fst := by
  have props : named .outside "$props".toList = ["props"] := by decide
  cases op with
  | node merge =>
      have tag : named .outside ((tagText merge.tag?).toList ++
          (" SET n += ".toList ++ "$props".toList)) = ["props"] := by
        have untagged := named_plain " SET n += ".toList "$props".toList (by decide)
        rw [props] at untagged
        cases merge.tag? with
        | none => exact untagged
        | some tag =>
            rw [tagText, Option.map_some, Option.getD_some, String.toList_append, List.append_assoc,
              named_plain " SET n:".toList _ (by decide), named_quote, untagged]
      rw [parametersNamed, toList_text_node, named_plain "MERGE ".toList _ (by decide),
        named_nodePattern (by simp), tag, pairs, List.map_append, names_keyParameters]
      rfl
  | relationship merge =>
      rw [parametersNamed, toList_text_relationship, named_plain "MERGE ".toList _ (by decide),
        named_nodePattern (by simp), named_plain " MERGE ".toList _ (by decide),
        named_nodePattern (by simp), named_plain " MERGE (a)-[r:".toList _ (by decide),
        named_quote, named_plain "]->(b) SET r += ".toList _ (by decide), props, pairs,
        List.map_append, List.map_append, names_keyParameters, names_keyParameters]
      simp

theorem nodup_names_keyParameters (variableName : String) (key : NodeKey) :
    ((keyParameters variableName key).map Prod.fst).Nodup := by
  rw [names_keyParameters]
  exact List.pairwise_map.mpr
    (List.nodup_range.imp fun differ same => differ (parameterName_inj same))

theorem head?_of_mem_keyParameters {variableName : String} {key : NodeKey} {name : String}
    (letter : variableName.toList ≠ [])
    (member : name ∈ (keyParameters variableName key).map Prod.fst) :
    name.toList.head? = variableName.toList.head? := by
  rw [names_keyParameters] at member
  obtain ⟨index, _, rfl⟩ := List.mem_map.mp member
  rw [toList_parameterName, List.head?_append, List.head?_eq_some_head letter, Option.some_or]

/-- No two parameters share a name: those of different variables differ in the first letter, those
of one variable in the number. -/
theorem nodup_names_pairs (op : MergeOp) : ((pairs op).map Prod.fst).Nodup := by
  cases op with
  | node merge =>
      rw [pairs, List.map_append, List.nodup_append]
      refine ⟨nodup_names_keyParameters _ _, by simp, ?_⟩
      intro name member other last same
      have isLast : other = "props" := List.mem_singleton.mp last
      have first := head?_of_mem_keyParameters (by decide) member
      rw [same, isLast] at first
      exact absurd first (by decide)
  | relationship merge =>
      rw [pairs, List.map_append, List.map_append, List.nodup_append, List.nodup_append]
      refine ⟨⟨nodup_names_keyParameters _ _, nodup_names_keyParameters _ _, ?_⟩,
        by simp, ?_⟩
      · intro name source other target same
        have first := head?_of_mem_keyParameters (by decide) source
        rw [same, head?_of_mem_keyParameters (by decide) target] at first
        exact absurd first (by decide)
      · intro name member other last same
        have isLast : other = "props" := List.mem_singleton.mp last
        rw [same, isLast] at member
        rcases List.mem_append.mp member with source | target
        · exact absurd (head?_of_mem_keyParameters (by decide) source) (by decide)
        · exact absurd (head?_of_mem_keyParameters (by decide) target) (by decide)

/-! ## The operation of a statement -/

/-- The values of an operation: those of its keys, then the properties. -/
def data : MergeOp → List CypherValue
  | .node merge =>
    (merge.key.fields.map fun field => .text field.2) ++ [.properties merge.properties]
  | .relationship merge =>
    (merge.source.fields.map fun field => .text field.2) ++
      (merge.target.fields.map fun field => .text field.2) ++ [.properties merge.properties]

theorem values_pairs (op : MergeOp) : (pairs op).map Prod.snd = data op := by
  cases op <;> simp only [pairs, data, List.map_append, values_keyParameters] <;> rfl

/-- Each parameter that the text names is defined, the parameters in their order by the values of
the operation. -/
theorem get?_parametersNamed (op : MergeOp) :
    (parametersNamed (ofMerge op).text).map (ofMerge op).parameters.get? = (data op).map some := by
  rw [parametersNamed_ofMerge, parameters_ofMerge, ← values_pairs, List.map_map, List.map_map]
  refine List.map_congr_left fun pair member => ?_
  exact Dictionary.get?_ofList_of_mem (nodup_names_pairs op) member

theorem key_eq {first second : NodeKey} (blanks : first.blank = second.blank)
    (values : (first.fields.map fun field => CypherValue.text field.2) =
      second.fields.map fun field => CypherValue.text field.2) : first = second := by
  have labels : first.label = second.label := congrArg (fun key => key.label) blanks
  have names : first.fields.map Prod.fst = second.fields.map Prod.fst := by
    have blankNames := congrArg (fun key => key.fields.map Prod.fst) blanks
    simp only [NodeKey.blank, List.map_map] at blankNames
    exact blankNames
  have texts : first.fields.map Prod.snd = second.fields.map Prod.snd := by
    have inner : (first.fields.map Prod.snd).map CypherValue.text =
        (second.fields.map Prod.snd).map CypherValue.text := by
      rw [List.map_map, List.map_map]
      exact values
    exact (List.map_inj_right fun _ _ => CypherValue.text.inj).mp inner
  have fields : first.fields = second.fields := by
    rw [← List.zip_unzip first.fields, ← List.zip_unzip second.fields, List.unzip_eq_map,
      List.unzip_eq_map, names, texts]
  cases first
  cases second
  cases labels
  cases fields
  rfl

theorem length_eq_of_blank {first second : NodeKey} (blanks : first.blank = second.blank) :
    first.fields.length = second.fields.length := by
  have lengths := congrArg (fun key => key.fields.length) blanks
  simpa [NodeKey.blank] using lengths

theorem eq_of_blank_of_data {first second : MergeOp} (blanks : first.blank = second.blank)
    (values : data first = data second) : first = second := by
  cases first with
  | node first =>
      cases second with
      | relationship second => cases blanks
      | node second =>
          obtain ⟨keyBlanks, tags, _⟩ := NodeMerge.mk.inj (MergeOp.node.inj blanks)
          obtain ⟨keyValues, last⟩ := List.append_inj' values rfl
          have keys := key_eq keyBlanks keyValues
          have properties := CypherValue.properties.inj (List.cons.inj last).1
          cases first
          cases second
          cases keys
          cases tags
          cases properties
          rfl
  | relationship first =>
      cases second with
      | node second => cases blanks
      | relationship second =>
          obtain ⟨sourceBlanks, kinds, targetBlanks, _⟩ :=
            RelMerge.mk.inj (MergeOp.relationship.inj blanks)
          obtain ⟨keyValues, last⟩ := List.append_inj' values rfl
          obtain ⟨sourceValues, targetValues⟩ := List.append_inj keyValues
            (by simpa using length_eq_of_blank sourceBlanks)
          have sources := key_eq sourceBlanks sourceValues
          have targets := key_eq targetBlanks targetValues
          have properties := CypherValue.properties.inj (List.cons.inj last).1
          cases first
          cases second
          cases sources
          cases kinds
          cases targets
          cases properties
          rfl

theorem ofMerge_inj {first second : MergeOp} (same : ofMerge first = ofMerge second) :
    first = second := by
  have values := get?_parametersNamed first
  rw [same, get?_parametersNamed] at values
  exact eq_of_blank_of_data (blank_eq_of_text (congrArg CypherStatement.text same))
    ((List.map_inj_right fun _ _ => Option.some.inj).mp values).symm

end Cypher

/-- A statement determines its operation.  Its text shows exactly what is left of the operation
without values and properties.  The parameters that the text names are pairwise different, they are
all the parameters there are, and in their order they hold the values of the key fields and the
properties.  A quoted identifier can be read back in front of any text that does not go on with a
backtick. -/
theorem statement_keeps_operation_apart_from_data :
    (∀ first second : MergeOp, Cypher.ofMerge first = Cypher.ofMerge second → first = second) ∧
      (∀ first second : MergeOp, (Cypher.ofMerge first).text = (Cypher.ofMerge second).text ↔
        first.blank = second.blank) ∧
      (∀ op : MergeOp,
        let statement := Cypher.ofMerge op
        let named := Cypher.parametersNamed statement.text
        named.Nodup ∧ named.map statement.parameters.get? = (Cypher.data op).map some ∧
          (statement.parameters.entries.map Prod.fst).Perm named) ∧
      ∀ (identifier : String) (rest : List Char), rest.head? ≠ some '`' →
        Cypher.unquote? ((Cypher.quote identifier).toList ++ rest) = some (identifier, rest) := by
  refine ⟨fun _ _ => Cypher.ofMerge_inj, Cypher.text_eq_iff, ?_, Cypher.unquote?_quote⟩
  intro op statement named
  refine ⟨?_, Cypher.get?_parametersNamed op, ?_⟩
  · rw [show named = _ from Cypher.parametersNamed_ofMerge op]
    exact Cypher.nodup_names_pairs op
  · rw [show named = _ from Cypher.parametersNamed_ofMerge op,
      show statement.parameters = _ from Cypher.parameters_ofMerge op]
    exact Dictionary.names_ofList_perm (Cypher.nodup_names_pairs op)

theorem statement_keeps_doubled_backtick :
    Cypher.unquote? ((Cypher.quote "we`ird").toList ++ " SET".toList) =
      some ("we`ird", " SET".toList) :=
  statement_keeps_operation_apart_from_data.2.2.2 "we`ird" " SET".toList (by decide)

end ScopeGraph
