import ScopeGraph.Listing

/-!
# Setting many names

Names that were there keep their positions, the others follow in the order in which they are first
set, and the last value that is set for a name counts.
-/
set_option autoImplicit false

namespace ScopeGraph.Listing

variable {α : Type}

@[simp] theorem setAll_nil (listing : Listing α) : listing.setAll [] = listing := rfl

@[simp] theorem setAll_cons (listing : Listing α) (pair : String × α)
    (pairs : List (String × α)) :
    listing.setAll (pair :: pairs) = (listing.set pair.1 pair.2).setAll pairs := rfl

theorem get?_set (name other : String) (value : α) (listing : Listing α) :
    (listing.set name value).get? other =
      if name = other then some value else listing.get? other := by
  by_cases same : name = other
  · subst same
    simp
  · rw [if_neg same, get?_set_of_ne same]

/-- The last value set for a name, or else the one it had. -/
theorem get?_setAll (listing : Listing α) (pairs : List (String × α)) (name : String) :
    (listing.setAll pairs).get? name =
      ((pairs.filter (·.1 = name)).getLast?.map Prod.snd).or (listing.get? name) := by
  induction pairs generalizing listing with
  | nil => rfl
  | cons pair rest ih =>
      rw [setAll_cons, ih, get?_set]
      by_cases here : pair.1 = name
      · simp only [here, if_true, List.filter_cons, decide_true, List.getLast?_cons]
        cases (rest.filter (·.1 = name)).getLast? <;> rfl
      · simp [here]

theorem get?_setAll_of_not_mem (listing : Listing α) {pairs : List (String × α)} {name : String}
    (free : name ∉ pairs.map Prod.fst) : (listing.setAll pairs).get? name = listing.get? name := by
  have none : pairs.filter (·.1 = name) = [] := by
    refine List.filter_eq_nil_iff.mpr fun pair member named => free ?_
    exact List.mem_map.mpr ⟨pair, member, of_decide_eq_true named⟩
  rw [get?_setAll, none]
  rfl

theorem get?_setAll_of_mem (listing : Listing α) {pairs : List (String × α)} {name : String}
    (bound : name ∈ pairs.map Prod.fst) :
    ∃ value, (listing.setAll pairs).get? name = some value ∧ (name, value) ∈ pairs := by
  rw [get?_setAll]
  cases last : (pairs.filter (·.1 = name)).getLast? with
  | none =>
      obtain ⟨pair, member, named⟩ := List.mem_map.mp bound
      have held : pair ∈ pairs.filter (·.1 = name) :=
        List.mem_filter.mpr ⟨member, decide_eq_true named⟩
      exact absurd (List.getLast?_eq_none_iff.mp last) (List.ne_nil_of_mem held)
  | some pair =>
      obtain ⟨member, named⟩ := List.mem_filter.mp (List.mem_of_getLast? last)
      refine ⟨pair.2, rfl, ?_⟩
      rw [← of_decide_eq_true named]
      exact member

theorem names_setAll (listing : Listing α) (pairs : List (String × α)) :
    (listing.setAll pairs).names =
      listing.names ++ ((pairs.map Prod.fst).filter (· ∉ listing.names)).eraseDups := by
  induction pairs generalizing listing with
  | nil => simp
  | cons pair rest ih =>
      rw [setAll_cons, ih, names_set, List.map_cons]
      by_cases old : pair.1 ∈ listing.names
      · simp [old]
      · have later : ((rest.map Prod.fst).filter (· ∉ listing.names ++ [pair.1])) =
            ((rest.map Prod.fst).filter (· ∉ listing.names)).filter
              (fun name => !name == pair.1) := by
          rw [List.filter_filter]
          apply List.filter_congr
          intro name _
          by_cases same : name = pair.1 <;> simp [same]
        rw [if_neg old, later, List.filter_cons, if_pos (decide_eq_true old), List.eraseDups_cons,
          List.append_assoc, List.singleton_append]

theorem nodup_names_setAll (listing : Listing α) (pairs : List (String × α))
    (distinct : listing.names.Nodup) : (listing.setAll pairs).names.Nodup := by
  induction pairs generalizing listing with
  | nil => exact distinct
  | cons pair rest ih =>
      refine ih (listing.set pair.1 pair.2) ?_
      rw [names_set]
      split
      · exact distinct
      · next new =>
        refine List.nodup_append.mpr ⟨distinct, by simp, ?_⟩
        intro name old last member same
        rw [List.mem_singleton.mp member] at same
        exact new (same ▸ old)

theorem mem_set {listing : Listing α} {name : String} {value : α} {entry : String × α}
    (member : entry ∈ listing.set name value) : entry = (name, value) ∨ entry ∈ listing := by
  induction listing with
  | nil => exact .inl (List.mem_singleton.mp member)
  | cons head rest ih =>
      obtain ⟨key, old⟩ := head
      rw [set] at member
      split at member
      · next same =>
        subst same
        rcases List.mem_cons.mp member with here | later
        · exact .inl here
        · exact .inr (List.mem_cons_of_mem _ later)
      · rcases List.mem_cons.mp member with here | later
        · exact .inr (here ▸ List.mem_cons_self)
        · exact (ih later).imp id (List.mem_cons_of_mem _)

theorem mem_setAll {listing : Listing α} {pairs : List (String × α)} {entry : String × α}
    (member : entry ∈ listing.setAll pairs) : entry ∈ pairs ∨ entry ∈ listing := by
  induction pairs generalizing listing with
  | nil => exact .inr member
  | cons pair rest ih =>
      rcases ih member with later | here
      · exact .inl (List.mem_cons_of_mem _ later)
      · rcases mem_set here with same | old
        · exact .inl (same ▸ List.mem_cons_self)
        · exact .inr old

theorem mem_names_of_mem {listing : Listing α} {name : String} {value : α}
    (member : (name, value) ∈ listing) : name ∈ listing.names :=
  List.mem_map.mpr ⟨(name, value), member, rfl⟩

/-- If no name is there twice, looking up a name finds its entry. -/
theorem get?_eq_some_iff_mem {listing : Listing α} (distinct : listing.names.Nodup) (name : String)
    (value : α) : listing.get? name = some value ↔ (name, value) ∈ listing := by
  induction listing with
  | nil => simp [get?]
  | cons head rest ih =>
      obtain ⟨key, held⟩ := head
      obtain ⟨fresh, others⟩ := List.nodup_cons.mp distinct
      rw [get?, List.mem_cons, Prod.mk.injEq]
      by_cases same : key = name
      · subst same
        have later : (key, value) ∉ rest := fun member => fresh (mem_names_of_mem member)
        simp [later, eq_comm]
      · have differ : name ≠ key := Ne.symm same
        simp [same, differ, ih others]

end ScopeGraph.Listing
