import ScopeGraph.Proofs.Files.Growth

/-!
# Paths below a root

A path that goes on behind a root by names only leads to what these names say, seen from the
directory that the root leads to, as long as no link lies below that directory.
-/
set_option autoImplicit false

namespace ScopeGraph.Files

namespace Path

/-- A path is a root with more parts behind it, none of which is `..`. -/
structure Below (root path : String) (more : List String) : Prop where
  parts : parts path = parts root ++ more
  absolute : isAbsolute path = isAbsolute root
  unclosed : endsInSlash path = false
  level : ".." ∉ more
  named : more.filter (· ≠ ".") ≠ []

def stepOf (part : String) : Step := Step.ofName (.text part)

theorem stepOf_dot : stepOf "." = .stay := rfl

theorem stepOf_name {part : String} (dot : part ≠ ".") (dots : part ≠ "..") :
    stepOf part = .down (.text part) := by
  rw [stepOf, Step.ofName, if_neg, if_neg]
  · exact fun same => dots (Name.text.inj same)
  · exact fun same => dot (Name.text.inj same)

theorem slash_notMem_steps (parts : List String) : .slash ∉ parts.map stepOf := by
  intro member
  obtain ⟨part, _, same⟩ := List.mem_map.mp member
  rw [stepOf, Step.ofName] at same
  split at same
  · cases same
  · split at same <;> cases same

theorem up_notMem_steps {parts : List String} (level : ".." ∉ parts) :
    .up ∉ parts.map stepOf := by
  intro member
  obtain ⟨part, inside, same⟩ := List.mem_map.mp member
  have dots : part ≠ ".." := fun equal => level (equal ▸ inside)
  by_cases dot : part = "."
  · rw [dot, stepOf_dot] at same
    cases same
  · rw [stepOf_name dot dots] at same
    cases same

theorem names_steps {parts : List String} (level : ".." ∉ parts) :
    (parts.map stepOf).filterMap Step.name? = (parts.filter (· ≠ ".")).map Name.text := by
  induction parts with
  | nil => rfl
  | cons part rest ih =>
      obtain ⟨dots, levelRest⟩ := List.ne_and_not_mem_of_not_mem_cons level
      rw [List.map_cons]
      by_cases dot : part = "."
      · rw [dot, stepOf_dot, List.filterMap_cons_none rfl, ih levelRest,
          List.filter_cons_of_neg (by decide)]
      · have named : (stepOf part).name? = some (.text part) := by
          rw [stepOf_name dot (Ne.symm dots)]
          rfl
        rw [List.filterMap_cons_some named, ih levelRest,
          List.filter_cons_of_pos (by simpa using dot), List.map_cons]

theorem steps_cases (path : String) :
    steps path = (parts path).map stepOf ∨
      endsInSlash path ∧ steps path = (parts path).map stepOf ++ [.slash] := by
  rw [steps]
  split
  · next empty => exact Or.inl empty.symm
  · by_cases ends : endsInSlash path
    · exact Or.inr ⟨ends, if_pos ends⟩
    · exact Or.inl (if_neg ends)

theorem Below.steps_eq {root path : String} {more : List String} (below : Below root path more) :
    steps path = (Path.parts root).map stepOf ++ more.map stepOf := by
  rcases steps_cases path with plain | ⟨ends, _⟩
  · rw [plain, below.parts, List.map_append]
  · rw [below.unclosed] at ends
    cases ends

end Path

namespace Tree

variable {tree grown : Tree}

/-- The parts of a path are enough to get to the directory it leads to. -/
theorem leads_of_parts {path : String} {directory : Location}
    (arrives : tree.walk false linkBudget (startOf path tree.here)
      ((Path.parts path).map Path.stepOf) = .ok (.item directory .directory)) :
    tree.Leads path directory := by
  rw [Leads]
  rcases Path.steps_cases path with plain | ⟨_, closed⟩
  · rw [plain, arrives]
  · rcases tree.walk_append false (List.cons_ne_nil .slash []) (by simp) linkBudget
        (startOf path tree.here) ((Path.parts path).map Path.stepOf) with
      ⟨found, left, front, whole⟩ | ⟨elsewhere, _⟩
    · rw [arrives] at front
      cases front
      rw [closed, whole, walk.eq_def]
      rfl
    · exact absurd arrives (elsewhere directory)

theorem Reached.below {root path : String} {more : List String} {location : Location}
    (below : Path.Below root path more) (reached : Reached tree grown path location) :
    ∃ directory, grown.Leads root directory ∧
      (tree.DirectBelow directory →
        location = directory ++ (more.filter (· ≠ ".")).map Name.text) := by
  obtain ⟨between, first, second, leads⟩ := reached
  obtain ⟨place, found, same, _⟩ := destination_cases leads
  have arrives := (find_eq_ok.mp found).2
  have filled : more.map Path.stepOf ≠ [] := by
    intro empty
    refine below.named ?_
    rw [List.map_eq_nil_iff.mp empty]
    rfl
  rw [below.steps_eq, startOf, below.absolute] at arrives
  rcases between.walk_append true filled (fun _ => Path.slash_notMem_steps more) linkBudget
      (startOf root between.here) ((Path.parts root).map Path.stepOf) with
    ⟨directory, left, front, whole⟩ | ⟨_, refusal, refused⟩
  · refine ⟨directory, (leads_of_parts front).grows second, fun direct => ?_⟩
    rw [startOf] at whole
    rw [whole] at arrives
    rw [← same, ← Path.names_steps below.level]
    exact walk_descends true (Path.up_notMem_steps below.level) (direct.of_grows first) arrives
  · rw [startOf] at refused
    rw [refused] at arrives
    cases arrives

end Tree
end ScopeGraph.Files
