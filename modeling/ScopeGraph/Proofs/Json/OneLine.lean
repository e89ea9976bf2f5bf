import ScopeGraph.Proofs.Json.Unambiguous

/-!
# Compact JSON stands on one line

Line breaks in strings are escaped, and nothing else of a compact text is a line break.
-/
set_option autoImplicit false

namespace ScopeGraph.Json

theorem lineBreak_notMem_escape (c : Char) : '\n' ∉ escape c := by
  have digits : ∀ digit < 16, Text.lowerHexDigit digit ≠ '\n' := by decide
  rcases escape_cases c with ⟨letter, _, short, shape⟩ | ⟨control, shape⟩ |
    ⟨_, _, noControl, shape⟩
  · have noBreak : letter ≠ '\n' := by
      rintro rfl
      cases short
    simp [shape, noBreak.symm]
  · have high := (digits (c.toNat / 16) (by omega)).symm
    have low := (digits (c.toNat % 16) (by omega)).symm
    simp [shape, high, low]
  · have noBreak : c ≠ '\n' := by
      rintro rfl
      exact noControl (by decide)
    simp [shape, noBreak.symm]

theorem lineBreak_notMem_quote (text : String) : '\n' ∉ quote text := by
  have escaped : ∀ c ∈ text.toList, '\n' ∉ escape c := fun c _ => lineBreak_notMem_escape c
  simpa [quote] using escaped

mutual

theorem lineBreak_notMem_compact : ∀ json : Json, '\n' ∉ json.compact
  | null => by decide
  | bool value => by cases value <;> decide
  | number value => fun member => absurd (isDigit_of_mem_toString member) (by decide)
  | string value => lineBreak_notMem_quote value
  | array items => by simp [compact, lineBreak_notMem_compactItems items]
  | object entries => by simp [compact, lineBreak_notMem_compactEntries entries]

theorem lineBreak_notMem_compactItems : ∀ items : List Json, '\n' ∉ compactItems items
  | [] => by simp [compactItems]
  | [item] => lineBreak_notMem_compact item
  | item :: next :: rest => by
    have first := lineBreak_notMem_compact item
    have others := lineBreak_notMem_compactItems (next :: rest)
    simp [compactItems, first, others]

theorem lineBreak_notMem_compactEntries : ∀ entries : List (String × Json),
    '\n' ∉ compactEntries entries
  | [] => by simp [compactEntries]
  | [(name, value)] => by
    have first := lineBreak_notMem_compact value
    simp [compactEntries, lineBreak_notMem_quote, first]
  | (name, value) :: next :: rest => by
    have first := lineBreak_notMem_compact value
    have others := lineBreak_notMem_compactEntries (next :: rest)
    simp [compactEntries, lineBreak_notMem_quote, first, others]

end

end ScopeGraph.Json
