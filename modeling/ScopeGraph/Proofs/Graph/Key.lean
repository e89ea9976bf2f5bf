import ScopeGraph.Graph.Plan
import ScopeGraph.Proofs.Dictionary
import ScopeGraph.Proofs.Json.Unambiguous

/-!
# The canonical text names one key

Keys have the same canonical text exactly when they have the same label and the same fields, read
as a dictionary.  For the keys of a plan this gives back the names they were made from.
-/
set_option autoImplicit false

namespace ScopeGraph

theorem Label.name_inj {first second : Label} (same : first.name = second.name) :
    first = second := by
  cases first <;> cases second <;> first | rfl | exact absurd same (by decide)

namespace NodeKey

theorem toList_canonical (key : NodeKey) :
    key.canonical.toList =
      "\x7b\"key\":\x7b".toList ++ (Json.compactEntries (Json.ofTexts key.dictionary.entries) ++
        '\x7d' :: (",\"label\":".toList ++ (Json.quote key.label.name ++ ['\x7d']))) := by
  have keyName : Json.quote "key" = "\"key\"".toList := by decide
  have labelName : Json.quote "label" = "\"label\"".toList := by decide
  simp [canonical, Json.render, Json.compact, Json.compactEntries, Json.ofTexts, keyName, labelName]

theorem canonical_eq_iff (first second : NodeKey) :
    first.canonical = second.canonical ↔
      first.label = second.label ∧ first.dictionary = second.dictionary := by
  constructor
  · intro same
    have texts := congrArg String.toList same
    rw [toList_canonical, toList_canonical] at texts
    obtain ⟨fields, rest⟩ := Json.compactEntries_append_inj _ _ (List.append_cancel_left texts)
    obtain ⟨labels, _⟩ := Json.quote_append_inj (List.append_cancel_left rest)
    exact ⟨Label.name_inj labels, Dictionary.eq_of_entries (Json.ofTexts_inj fields)⟩
  · rintro ⟨labels, fields⟩
    simp only [canonical, labels, fields]

/-- The value of a field, the last one where the field is repeated. -/
def value? (key : NodeKey) (field : String) : Option String :=
  (key.fields.filter (·.1 = field)).getLast?.map Prod.snd

theorem get?_dictionary (key : NodeKey) (field : String) :
    key.dictionary.get? field = key.value? field :=
  Dictionary.get?_ofList key.fields field

theorem canonical_eq_iff_value? (first second : NodeKey) :
    first.canonical = second.canonical ↔
      first.label = second.label ∧ ∀ field, first.value? field = second.value? field := by
  rw [canonical_eq_iff, Dictionary.eq_iff_get?]
  simp only [get?_dictionary]

theorem value?_of_perm {first second : NodeKey} (reordered : first.fields.Perm second.fields)
    (distinct : (first.fields.map Prod.fst).Nodup) (field : String) :
    first.value? field = second.value? field := by
  have others : (second.fields.map Prod.fst).Nodup :=
    (reordered.map Prod.fst).nodup_iff.mp distinct
  rw [← get?_dictionary, ← get?_dictionary]
  ext value
  rw [dictionary, dictionary, Dictionary.get?_ofList_eq_some_iff distinct,
    Dictionary.get?_ofList_eq_some_iff others, reordered.mem_iff]

/-- Keys have the same canonical text exactly if they have the same label and every field has the
same value in both, the last one where a field is repeated.  Different fields may stand in any
order. -/
theorem canonical_text_is_faithful (first second : NodeKey) :
    (first.canonical = second.canonical ↔
      first.label = second.label ∧ ∀ field, first.value? field = second.value? field) ∧
    (first.label = second.label → first.fields.Perm second.fields →
      (first.fields.map Prod.fst).Nodup → first.canonical = second.canonical) := by
  refine ⟨canonical_eq_iff_value? first second, ?_⟩
  intro labels reordered distinct
  rw [canonical_eq_iff_value?]
  exact ⟨labels, value?_of_perm reordered distinct⟩

/-- A value may look like the text of further fields, and a field may be repeated. -/
theorem canonical_text_of_quoted_fields :
    let plain : NodeKey := ⟨.callee, [("name", "a"), ("path", "b")]⟩
    (NodeKey.mk .callee [("name", "a\",\"path\":\"b")]).canonical ≠ plain.canonical ∧
      (NodeKey.mk .callee [("path", "b"), ("name", "a")]).canonical = plain.canonical ∧
      (NodeKey.mk .callee [("name", "b"), ("path", "b"), ("name", "a")]).canonical =
        plain.canonical := by
  intro plain
  refine ⟨?_, ?_, ?_⟩
  · intro same
    exact absurd (((canonical_text_is_faithful _ plain).1.mp same).2 "path") (by decide)
  · exact (canonical_text_is_faithful _ plain).2 rfl (.swap ..) (by decide)
  · refine (canonical_text_is_faithful _ plain).1.mpr ⟨rfl, fun field => ?_⟩
    by_cases name : "name" = field
    · subst name
      decide
    · by_cases path : "path" = field <;> simp [plain, value?, name, path]

end NodeKey

namespace Plan

theorem canonical_folderKey_inj {first second : String}
    (same : (folderKey first).canonical = (folderKey second).canonical) : first = second := by
  obtain ⟨_, fields⟩ := (NodeKey.canonical_eq_iff _ _).mp same
  have names := congrArg (Dictionary.get? "name") fields
  simpa [NodeKey.dictionary, folderKey, Dictionary.ofList] using names

theorem canonical_calleeKey_inj {path first second : String}
    (same : (calleeKey path first).canonical = (calleeKey path second).canonical) :
    first = second := by
  obtain ⟨_, fields⟩ := (NodeKey.canonical_eq_iff _ _).mp same
  have names := congrArg (Dictionary.get? "name") fields
  simpa [NodeKey.dictionary, calleeKey, Dictionary.ofList] using names

theorem canonical_calleeKey_iff {path first second : String} :
    (calleeKey path first).canonical = (calleeKey path second).canonical ↔ first = second :=
  ⟨canonical_calleeKey_inj, congrArg fun name => (calleeKey path name).canonical⟩

theorem name_entryKey (path : String) (entry : Entry) :
    (entryKey path entry).dictionary.get? "name" = some entry.descriptor.name := by
  unfold entryKey
  cases entry.owner? <;> simp [NodeKey.dictionary, Dictionary.ofList]

theorem owner_entryKey (path : String) (entry : Entry) :
    (entryKey path entry).dictionary.get? "owner" = entry.owner? := by
  unfold entryKey
  cases entry.owner? <;> simp [NodeKey.dictionary, Dictionary.ofList]

theorem label_entryKey (path : String) (entry : Entry) :
    (entryKey path entry).label =
      if entry.owner?.isSome then .method
      else if entry.descriptor.kind = .classDecl then .classDecl else .function := by
  unfold entryKey
  cases entry.owner? <;> rfl

theorem label_entryKey_cases (path : String) (entry : Entry) :
    (entryKey path entry).label = .method ∨ (entryKey path entry).label = .classDecl ∨
      (entryKey path entry).label = .function := by
  rw [label_entryKey]
  split
  · exact .inl rfl
  · split
    · exact .inr (.inl rfl)
    · exact .inr (.inr rfl)

/-- The canonical text of an entry's key tells its owner, its name and, at file level, whether it is
a class. -/
theorem canonical_entryKey_inj {path : String} {first second : Entry}
    (same : (entryKey path first).canonical = (entryKey path second).canonical) :
    first.owner? = second.owner? ∧ first.descriptor.name = second.descriptor.name ∧
      (first.owner? = none →
        (first.descriptor.kind = .classDecl ↔ second.descriptor.kind = .classDecl)) := by
  obtain ⟨labels, fields⟩ := (NodeKey.canonical_eq_iff _ _).mp same
  have names := congrArg (Dictionary.get? "name") fields
  have owners := congrArg (Dictionary.get? "owner") fields
  rw [name_entryKey, name_entryKey] at names
  rw [owner_entryKey, owner_entryKey] at owners
  refine ⟨owners, Option.some.inj names, ?_⟩
  intro topLevel
  rw [label_entryKey, label_entryKey, ← owners, topLevel] at labels
  by_cases left : first.descriptor.kind = .classDecl <;>
    by_cases right : second.descriptor.kind = .classDecl <;>
    simp_all

end Plan
end ScopeGraph
