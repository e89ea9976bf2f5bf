import ScopeGraph.Files.Change
import ScopeGraph.Proofs.Files.Path

/-!
# Walks in a file tree

A walk along a longer path goes the way of its front and then on from the directory it got to.  A
walk without `..` below a directory that holds no links ends where its names say.
-/
set_option autoImplicit false

namespace ScopeGraph.Files

def Place.location : Place → Location
  | .item location _ | .vacant location => location

def Step.name? : Step → Option Name
  | .down name => some name
  | .up | .stay | .slash => none

namespace Tree

section Walk

variable (tree : Tree) (creating : Bool)

/-! ## A step down -/

/-- What becomes of a leg that steps down. -/
inductive Down (location : Location) (name : Name) (rest : List Step) : Leg → Prop
  | refused (refusal : Refusal) : Down location name rest (.refused refusal)
  | directory (short : ¬ Name.longest < name.size)
      (found : tree.item? (location ++ [name]) = some .directory) :
      Down location name rest (tree.leg creating (location ++ [name]) rest)
  | link (short : ¬ Name.longest < name.size) (target : String)
      (found : tree.item? (location ++ [name]) = some (.link target)) :
      Down location name rest (.link location target rest)
  | file (short : ¬ Name.longest < name.size) (last : rest = []) (body : Body)
      (found : tree.item? (location ++ [name]) = some (.file body)) :
      Down location name rest (.arrived (.item (location ++ [name]) (.file body)))
  | vacant (short : ¬ Name.longest < name.size) (last : rest = [])
      (found : tree.item? (location ++ [name]) = none) :
      Down location name rest (.arrived (.vacant (location ++ [name])))

theorem leg_down (location : Location) (name : Name) (rest : List Step) :
    tree.Down creating location name rest (tree.leg creating location (.down name :: rest)) := by
  rw [leg]
  by_cases closed : creating ∧ rest = [.slash]
  · rw [if_pos closed]
    exact .refused _
  by_cases long : Name.longest < name.size
  · rw [if_neg closed, if_pos long]
    exact .refused _
  rw [if_neg closed, if_neg long]
  cases found : tree.item? (location ++ [name]) with
  | none =>
      by_cases last : rest = []
      · simpa only [if_pos last] using .vacant long last found
      · simpa only [if_neg last] using .refused _
  | some item =>
      cases item with
      | directory => exact .directory long found
      | link target => exact .link long target found
      | file body =>
          by_cases last : rest = []
          · simpa only [if_pos last] using .file long last body found
          · simpa only [if_neg last] using .refused _

theorem leg_down_false {name : Name} (short : ¬ Name.longest < name.size) (location : Location)
    (rest : List Step) :
    tree.leg false location (.down name :: rest) =
      match tree.item? (location ++ [name]) with
      | some .directory => tree.leg false (location ++ [name]) rest
      | some (.link target) => .link location target rest
      | some (.file body) =>
        if rest = [] then .arrived (.item (location ++ [name]) (.file body))
        else .refused .notDirectory
      | none =>
        if rest = [] then .arrived (.vacant (location ++ [name])) else .refused .notFound := by
  have reads : ¬ (false ∧ rest = [.slash]) := nofun
  rw [leg]
  exact (if_neg reads).trans (if_neg short)

/-! ## The front of a walk -/

/-- A leg with more steps behind it goes on from a directory and is refused elsewhere. -/
theorem leg_append {more : List Step} (filled : more ≠ []) (noSlash : creating → .slash ∉ more)
    (location : Location) (front : List Step) :
    tree.leg creating location (front ++ more) =
      match tree.leg false location front with
      | .arrived (.item directory .directory) => tree.leg creating directory more
      | .arrived (.item _ _) => .refused .notDirectory
      | .arrived (.vacant _) => .refused .notFound
      | .refused refusal => .refused refusal
      | .link directory target rest => .link directory target (rest ++ more) := by
  induction front generalizing location with
  | nil => rfl
  | cons step rest ih =>
      rw [List.cons_append]
      cases step with
      | stay => exact ih location
      | slash => exact ih location
      | up => exact ih location.dropLast
      | down name =>
          -- With more steps behind it the name is neither the last one nor before a last slash.
          have goesOn : rest ++ more ≠ [] := List.append_ne_nil_of_right_ne_nil _ filled
          have unclosed : ¬ (creating ∧ rest ++ more = [.slash]) := by
            rintro ⟨creates, last⟩
            have only : more = [.slash] := by
              rcases List.append_eq_singleton_iff.mp last with ⟨_, behind⟩ | ⟨_, behind⟩
              · exact behind
              · exact absurd behind filled
            exact noSlash creates (only ▸ List.mem_singleton_self _)
          have reads : ¬ (false ∧ rest = [.slash]) := nofun
          rw [leg, leg, if_neg unclosed, if_neg reads]
          by_cases long : Name.longest < name.size
          · rw [if_pos long, if_pos long]
          rw [if_neg long, if_neg long]
          cases found : tree.item? (location ++ [name]) with
          | none =>
              simp only [if_neg goesOn]
              by_cases ends : rest = [] <;> simp [ends]
          | some item =>
              cases item with
              | directory => exact ih (location ++ [name])
              | link target => rfl
              | file body =>
                  simp only [if_neg goesOn]
                  by_cases ends : rest = [] <;> simp [ends]

/-- A walk with more steps behind it goes on from the directory that its front gets to, and is
refused if that is none. -/
theorem walk_append {more : List Step} (filled : more ≠ []) (noSlash : creating → .slash ∉ more)
    (budget : Nat) (location : Location) (front : List Step) :
    (∃ directory left, tree.walk false budget location front = .ok (.item directory .directory) ∧
        tree.walk creating budget location (front ++ more) =
          tree.walk creating left directory more) ∨
      ((∀ directory, tree.walk false budget location front ≠ .ok (.item directory .directory)) ∧
        ∃ refusal, tree.walk creating budget location (front ++ more) = .error refusal) := by
  -- Only a link uses the budget up, so the cases come before those of the budget.
  induction budget using Nat.strongRecOn generalizing location front with
  | ind budget ih =>
      have longer := tree.leg_append creating filled noSlash location front
      rw [walk.eq_def, walk.eq_def tree creating budget location]
      cases ends : tree.leg false location front with
      | refused refusal => exact Or.inr ⟨nofun, refusal, by rw [longer, ends]⟩
      | arrived place =>
          rw [ends] at longer
          rw [longer]
          cases place with
          | vacant location => exact Or.inr ⟨nofun, _, rfl⟩
          | item location item =>
              cases item with
              | directory => exact Or.inl ⟨location, budget, rfl, (walk.eq_def ..).symm⟩
              | file body => exact Or.inr ⟨nofun, _, rfl⟩
              | link target => exact Or.inr ⟨nofun, _, rfl⟩
      | link directory target rest =>
          rw [ends] at longer
          rw [longer]
          cases budget with
          | zero => exact Or.inr ⟨nofun, _, rfl⟩
          | succ left =>
              have later := ih left (Nat.lt_succ_self left) (startOf target directory)
                (Path.steps target ++ rest)
              rwa [List.append_assoc] at later

/-! ## Walks that only go down -/

/-- No link lies below a directory. -/
def DirectBelow (directory : Location) : Prop :=
  ∀ (rest : Location) (target : String), rest ≠ [] →
    tree.item? (directory ++ rest) ≠ some (.link target)

variable {tree}

theorem DirectBelow.down {directory : Location} (direct : tree.DirectBelow directory)
    (name : Name) : tree.DirectBelow (directory ++ [name]) := by
  intro rest target _
  rw [List.append_assoc]
  exact direct _ target (List.cons_ne_nil name rest)

theorem leg_descends {steps : List Step} (level : .up ∉ steps) {location : Location}
    (direct : tree.DirectBelow location) :
    match tree.leg creating location steps with
    | .arrived place => place.location = location ++ steps.filterMap Step.name?
    | .refused _ => True
    | .link _ _ _ => False := by
  induction steps generalizing location with
  | nil => exact (List.append_nil _).symm
  | cons step rest ih =>
      have levelRest : .up ∉ rest := fun member => level (List.mem_cons_of_mem _ member)
      cases step with
      | stay => exact ih levelRest direct
      | slash => exact ih levelRest direct
      | up => exact absurd List.mem_cons_self level
      | down name =>
          have next := ih levelRest (direct.down name)
          rw [List.append_assoc] at next
          have down := tree.leg_down creating location name rest
          generalize tree.leg creating location (.down name :: rest) = result at down ⊢
          cases down with
          | refused refusal => trivial
          | directory short found => exact next
          | link short target found => exact direct [name] target (List.cons_ne_nil _ _) found
          | file short last body found =>
              rw [last]
              rfl
          | vacant short last found =>
              rw [last]
              rfl

theorem walk_descends {steps : List Step} (level : .up ∉ steps) {location : Location}
    (direct : tree.DirectBelow location) {budget : Nat} {place : Place}
    (arrives : tree.walk creating budget location steps = .ok place) :
    place.location = location ++ steps.filterMap Step.name? := by
  have descends := leg_descends creating level direct
  rw [walk.eq_def] at arrives
  cases ends : tree.leg creating location steps with
  | arrived found =>
      rw [ends] at arrives descends
      cases arrives
      exact descends
  | refused refusal =>
      rw [ends] at arrives
      cases arrives
  | link directory target rest =>
      rw [ends] at descends
      exact descends.elim

end Walk

end Tree
end ScopeGraph.Files
