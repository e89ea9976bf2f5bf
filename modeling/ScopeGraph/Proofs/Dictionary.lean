import Mathlib.Data.List.Induction
import Mathlib.Data.List.Nodup
import ScopeGraph.Dictionary
import ScopeGraph.Proofs.Graph.Table

/-!
# Looking up names in a dictionary

Of a list of pairs the last value of a name is found.  What a dictionary answers determines it.
-/
set_option autoImplicit false

namespace ScopeGraph.Dictionary

variable {α : Type}

theorem find?_place (name other : String) (value : α) (entries : List (String × α)) :
    (place name value entries).find? (·.1 = other) =
      if name = other then some (name, value) else entries.find? (·.1 = other) := by
  induction entries with
  | nil => by_cases same : name = other <;> simp [place, same]
  | cons head rest ih =>
      obtain ⟨key, old⟩ := head
      simp only [place]
      split
      · by_cases same : name = other <;> simp [same]
      · split
        · next equal =>
          subst equal
          by_cases same : name = other <;> simp [same]
        · next differ =>
          by_cases here : key = other
          · have apart : name ≠ other := fun equal => differ (equal.trans here.symm)
            simp [here, apart]
          · simp [here, ih]

@[simp] theorem get?_insert (name other : String) (value : α) (dictionary : Dictionary α) :
    (dictionary.insert name value).get? other =
      if name = other then some value else dictionary.get? other := by
  simp only [get?, insert, find?_place]
  split <;> rfl

@[simp] theorem get?_empty (name : String) : (empty : Dictionary α).get? name = none := rfl

theorem eq_of_entries {first second : Dictionary α} (same : first.entries = second.entries) :
    first = second := by
  cases first
  cases second
  cases same
  rfl

/-! ## Dictionaries of pairs -/

theorem ofList_append_singleton (pairs : List (String × α)) (pair : String × α) :
    ofList (pairs ++ [pair]) = (ofList pairs).insert pair.1 pair.2 := by
  simp [ofList, List.foldl_append]

theorem get?_ofList_of_mem {pairs : List (String × α)} (distinct : (pairs.map Prod.fst).Nodup)
    {name : String} {value : α} (member : (name, value) ∈ pairs) :
    (ofList pairs).get? name = some value := by
  induction pairs using List.reverseRecOn with
  | nil => cases member
  | append_singleton front pair ih =>
      rw [List.map_append, List.nodup_append] at distinct
      obtain ⟨frontDistinct, _, apart⟩ := distinct
      rw [ofList_append_singleton, get?_insert]
      rcases List.mem_append.mp member with before | last
      · have differ : pair.1 ≠ name := fun same =>
          apart name (List.mem_map_of_mem before) pair.1 (by simp) same.symm
        rw [if_neg differ]
        exact ih frontDistinct before
      · rw [← List.mem_singleton.mp last, if_pos rfl]

/-- The last pair of a name counts. -/
theorem get?_ofList (pairs : List (String × α)) (name : String) :
    (ofList pairs).get? name = (pairs.filter (·.1 = name)).getLast?.map Prod.snd := by
  induction pairs using List.reverseRecOn with
  | nil => rfl
  | append_singleton front pair ih =>
      rw [ofList_append_singleton, get?_insert, ih, List.filter_append]
      by_cases here : pair.1 = name <;> simp [here]

theorem get?_ofList_eq_some_iff {pairs : List (String × α)}
    (distinct : (pairs.map Prod.fst).Nodup) (name : String) (value : α) :
    (ofList pairs).get? name = some value ↔ (name, value) ∈ pairs := by
  constructor
  · intro found
    rw [get?_ofList, Option.map_eq_some_iff] at found
    obtain ⟨pair, last, rfl⟩ := found
    obtain ⟨member, here⟩ := List.mem_filter.mp (List.mem_of_getLast? last)
    rw [← of_decide_eq_true here]
    exact member
  · exact get?_ofList_of_mem distinct

theorem mem_names_place (name other : String) (value : α) (entries : List (String × α)) :
    other ∈ (place name value entries).map Prod.fst ↔
      other = name ∨ other ∈ entries.map Prod.fst := by
  induction entries with
  | nil => simp [place]
  | cons head rest ih =>
      obtain ⟨key, old⟩ := head
      simp only [place]
      split
      · simp
      · split
        · next same => simp [same]
        · simp only [List.map_cons, List.mem_cons, ih]
          exact or_left_comm

theorem mem_names_ofList (pairs : List (String × α)) (name : String) :
    name ∈ (ofList pairs).entries.map Prod.fst ↔ name ∈ pairs.map Prod.fst := by
  induction pairs using List.reverseRecOn with
  | nil => rfl
  | append_singleton front pair ih =>
      rw [ofList_append_singleton, insert, mem_names_place, ih, List.map_append, List.mem_append,
        or_comm]
      simp

theorem nodup_names (dictionary : Dictionary α) : (dictionary.entries.map Prod.fst).Nodup := by
  refine List.pairwise_map.mpr (dictionary.increasing.imp ?_)
  intro first second less same
  rw [same] at less
  exact String.lt_irrefl _ less

theorem names_ofList_perm {pairs : List (String × α)} (distinct : (pairs.map Prod.fst).Nodup) :
    ((ofList pairs).entries.map Prod.fst).Perm (pairs.map Prod.fst) :=
  (List.perm_ext_iff_of_nodup (nodup_names _) distinct).mpr (mem_names_ofList pairs)

/-! ## Dictionaries that answer alike -/

theorem mem_entries_iff (dictionary : Dictionary α) (entry : String × α) :
    entry ∈ dictionary.entries ↔ dictionary.get? entry.1 = some entry.2 := by
  rw [Write.mem_iff_lookup dictionary.entries dictionary.nodup_names entry, Write.lookup, get?,
    Option.map_eq_some_iff]
  constructor
  · intro found
    exact ⟨entry, found, rfl⟩
  · rintro ⟨other, found, value⟩
    have name : other.1 = entry.1 := by simpa using List.find?_some found
    rw [found, Prod.ext name value]

theorem eq_iff_get? (first second : Dictionary α) :
    first = second ↔ ∀ name, first.get? name = second.get? name := by
  constructor
  · intro same name
    rw [same]
  · intro same
    have perm : first.entries.Perm second.entries := by
      rw [List.perm_ext_iff_of_nodup (List.Nodup.of_map _ first.nodup_names)
        (List.Nodup.of_map _ second.nodup_names)]
      intro entry
      rw [mem_entries_iff, mem_entries_iff, same]
    -- Both lists are increasing, which leaves one order for the entries.
    apply eq_of_entries
    refine perm.eq_of_pairwise ?_ first.increasing second.increasing
    intro _ _ _ _ less greater
    exact absurd greater (String.lt_asymm less)

/-- A dictionary is the one of its own entries. -/
theorem ofList_entries (dictionary : Dictionary α) : ofList dictionary.entries = dictionary := by
  rw [eq_iff_get?]
  intro name
  ext value
  rw [get?_ofList_eq_some_iff dictionary.nodup_names]
  exact dictionary.mem_entries_iff (name, value)

end ScopeGraph.Dictionary
