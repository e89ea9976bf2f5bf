/-!
# Dictionaries

A dictionary holds each name once and keeps the names in order of their characters, which is also
the order of their UTF-8 bytes.  Two dictionaries with the same entries are equal.
-/
set_option autoImplicit false

namespace ScopeGraph

variable {α : Type}

def Increasing (entries : List (String × α)) : Prop :=
  entries.Pairwise fun first second => first.1 < second.1

structure Dictionary (α : Type) where
  entries : List (String × α)
  increasing : Increasing entries
  deriving DecidableEq

namespace Dictionary

/-- Puts an entry at its place; an entry of the same name gives way. -/
def place (name : String) (value : α) : List (String × α) → List (String × α)
  | [] => [(name, value)]
  | (key, old) :: rest =>
    if name < key then (name, value) :: (key, old) :: rest
    else if name = key then (name, value) :: rest
    else (key, old) :: place name value rest

theorem name_of_mem_place {name : String} {value : α} {entries : List (String × α)}
    {entry : String × α} (member : entry ∈ place name value entries) :
    entry.1 = name ∨ entry ∈ entries := by
  induction entries with
  | nil => simp only [place, List.mem_singleton] at member; exact .inl (by rw [member])
  | cons head rest ih =>
    obtain ⟨key, old⟩ := head
    simp only [place] at member
    split at member
    · rcases List.mem_cons.mp member with same | later
      · exact .inl (by rw [same])
      · exact .inr later
    · split at member
      · rcases List.mem_cons.mp member with same | later
        · exact .inl (by rw [same])
        · exact .inr (List.mem_cons_of_mem _ later)
      · rcases List.mem_cons.mp member with same | later
        · exact .inr (by rw [same]; exact List.mem_cons_self)
        · exact (ih later).imp id (List.mem_cons_of_mem _)

theorem increasing_place (name : String) (value : α) {entries : List (String × α)}
    (increasing : Increasing entries) : Increasing (place name value entries) := by
  induction entries with
  | nil => exact List.pairwise_singleton _ _
  | cons head rest ih =>
    obtain ⟨key, old⟩ := head
    obtain ⟨above, tail⟩ := List.pairwise_cons.mp increasing
    simp only [place]
    split
    · next less =>
      refine List.pairwise_cons.mpr ⟨fun entry member => ?_, increasing⟩
      rcases List.mem_cons.mp member with same | later
      · rw [same]; exact less
      · exact String.lt_trans less (above entry later)
    · next notLess =>
      split
      · next same =>
        subst same
        exact List.pairwise_cons.mpr ⟨above, tail⟩
      · next differ =>
        refine List.pairwise_cons.mpr ⟨fun entry member => ?_, ih tail⟩
        rcases name_of_mem_place member with same | later
        · rw [same]
          refine Decidable.byContradiction fun notGreater => differ ?_
          exact String.le_antisymm (String.not_lt.mp notGreater) (String.not_lt.mp notLess)
        · exact above entry later

def empty : Dictionary α := ⟨[], List.Pairwise.nil⟩

def insert (name : String) (value : α) (dictionary : Dictionary α) : Dictionary α :=
  ⟨place name value dictionary.entries, increasing_place name value dictionary.increasing⟩

/-- Inserts the pairs in turn, so that the last pair of a name counts. -/
def ofList (pairs : List (String × α)) : Dictionary α :=
  pairs.foldl (fun dictionary pair => dictionary.insert pair.1 pair.2) empty

def get? (name : String) (dictionary : Dictionary α) : Option α :=
  (dictionary.entries.find? (·.1 = name)).map Prod.snd

end Dictionary

/-- Named texts on a node or on a relationship of the graph. -/
abbrev Properties := Dictionary String

end ScopeGraph
