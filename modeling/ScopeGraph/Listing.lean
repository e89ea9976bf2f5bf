/-!
# Listings

A listing pairs names with values and keeps the order in which the names first appeared.  Setting
a name that is already there replaces its value and leaves its position.
-/
set_option autoImplicit false

namespace ScopeGraph

abbrev Listing (α : Type) := List (String × α)

namespace Listing
variable {α : Type}

def set (name : String) (value : α) : Listing α → Listing α
  | [] => [(name, value)]
  | (key, old) :: rest =>
    if key = name then (key, value) :: rest else (key, old) :: set name value rest

def get? (name : String) : Listing α → Option α
  | [] => none
  | (key, value) :: rest => if key = name then some value else get? name rest

def names (listing : Listing α) : List String := listing.map Prod.fst

def values (listing : Listing α) : List α := listing.map Prod.snd

/-- Sets each pair of `pairs` in turn. -/
def setAll (listing : Listing α) (pairs : List (String × α)) : Listing α :=
  pairs.foldl (fun sofar pair => sofar.set pair.1 pair.2) listing

@[simp] theorem get?_set_self (name : String) (value : α) (listing : Listing α) :
    (listing.set name value).get? name = some value := by
  induction listing with
  | nil => simp [set, get?]
  | cons head rest ih =>
    obtain ⟨key, old⟩ := head
    by_cases same : key = name <;> simp [set, get?, same, ih]

theorem get?_set_of_ne {name other : String} (differ : name ≠ other) (value : α)
    (listing : Listing α) : (listing.set name value).get? other = listing.get? other := by
  induction listing with
  | nil => simp [set, get?, differ]
  | cons head rest ih =>
    obtain ⟨key, old⟩ := head
    by_cases same : key = name
    · subst same; simp [set, get?, differ]
    · simp only [set, if_neg same, get?, ih]

theorem names_set (name : String) (value : α) (listing : Listing α) :
    (listing.set name value).names =
      if name ∈ listing.names then listing.names else listing.names ++ [name] := by
  induction listing with
  | nil => simp [set, names]
  | cons head rest ih =>
    obtain ⟨key, old⟩ := head
    by_cases same : key = name
    · subst same; simp [set, names]
    · have differ : name ≠ key := fun eq => same eq.symm
      simp only [names] at ih
      by_cases member : name ∈ rest.map Prod.fst <;> simp [set, names, same, differ, ih, member]

end Listing
end ScopeGraph
