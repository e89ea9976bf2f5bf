import ScopeGraph.Proofs.Dictionary
import ScopeGraph.Proofs.Json.Unambiguous

/-!
# Properties can be read back

The reader of stored properties follows the text that was written for them: it takes each escape for
the character that was escaped, each quoted text for the text, and each entry for an insertion.  So
it ends with the properties that were written, whatever characters their names and values hold.
-/
set_option autoImplicit false

namespace ScopeGraph.Properties

open Json (escape quote compactEntries ofTexts)

namespace Reader

theorem run_append (reader : Reader) (first second : List Char) :
    reader.run (first ++ second) = (reader.run first).bind fun next => next.run second := by
  induction first generalizing reader with
  | nil => rfl
  | cons c rest ih =>
      simp only [List.cons_append, run]
      cases reader.step c with
      | none => rfl
      | some next => exact ih next

section Text

variable (place : Place) (chars : List Char) (done : Properties)

theorem run_control (c : Char) (control : c.toNat < 32) :
    run (.string place .plain chars done)
        ['\\', 'u', '0', '0', Text.lowerHexDigit (c.toNat / 16),
          Text.lowerHexDigit (c.toNat % 16)] =
      some (.string place .plain (c :: chars) done) := by
  have high := Json.hexValue?_lowerHexDigit (c.toNat / 16) (by omega)
  have low := Json.hexValue?_lowerHexDigit (c.toNat % 16) (by omega)
  have zero : Text.hexValue? '0' = some 0 := by decide
  have whole : c.toNat / 16 * 16 + c.toNat % 16 = c.toNat := Nat.div_add_mod' c.toNat 16
  have noHigh : ¬ (0xD800 ≤ c.toNat ∧ c.toNat < 0xDC00) := by omega
  have noLow : ¬ (0xDC00 ≤ c.toNat ∧ c.toNat < 0xE000) := by omega
  simp [run, step, stepInside, high, low, zero, whole, closeUnit, noHigh, noLow]

/-- An escape is one character, and the text goes on. -/
theorem run_escape (c : Char) :
    run (.string place .plain chars done) (escape c) =
      some (.string place .plain (c :: chars) done) := by
  rcases Json.escape_cases c with ⟨letter, noNumber, short, shape⟩ | ⟨control, shape⟩ |
    ⟨noQuote, noBackslash, noControl, shape⟩
  · simp [shape, run, step, stepInside, noNumber, short]
  · rw [shape]
    exact run_control place chars done c control
  · simp [shape, run, step, stepInside, noQuote, noBackslash, noControl]

theorem run_escaped (text : List Char) :
    run (.string place .plain chars done) (text.flatMap escape) =
      some (.string place .plain (text.reverse ++ chars) done) := by
  induction text generalizing chars with
  | nil => rfl
  | cons c rest ih =>
      rw [List.flatMap_cons, run_append, run_escape, Option.bind_some, ih]
      simp

/-- A quoted text is read where a text may start. -/
theorem run_quote (text : String)
    (opens : stepBetween place done '"' = some (.string place .plain [] done)) :
    run (.between place done) (quote text) = closeString place text done := by
  have start : run (.between place done) ['"'] = some (.string place .plain [] done) := by
    simp [run, step, opens]
  have close : run (.string place .plain text.toList.reverse done) ['"'] =
      closeString place text done := by
    simp [run, step, stepInside]
  have parts : quote text = ['"'] ++ (text.toList.flatMap escape ++ ['"']) := rfl
  rw [parts, run_append, start, Option.bind_some, run_append, run_escaped, Option.bind_some,
    List.append_nil, close]

end Text

section Entries

variable {place : Place} (names : place = .firstName ∨ place = .name) (done : Properties)

include names

theorem run_entry (name value : String) :
    run (.between place done) (quote name ++ ':' :: quote value) =
      some (.between .next (done.insert name value)) := by
  have first : run (.between place done) (quote name) = some (.between (.colon name) done) := by
    rcases names with rfl | rfl <;> exact run_quote _ done name rfl
  have colon : run (.between (.colon name) done) [':'] = some (.between (.value name) done) := rfl
  have second : run (.between (.value name) done) (quote value) =
      some (.between .next (done.insert name value)) := run_quote _ done value rfl
  have parts : quote name ++ ':' :: quote value = quote name ++ ([':'] ++ quote value) := rfl
  rw [parts, run_append, first, Option.bind_some, run_append, colon, Option.bind_some, second]

/-- The entries are inserted one after another. -/
theorem run_entries (entry : String × String) (rest : List (String × String)) :
    run (.between place done) (compactEntries (ofTexts (entry :: rest))) =
      some (.between .next ((entry :: rest).foldl
        (fun found entry => found.insert entry.1 entry.2) done)) := by
  induction rest generalizing place entry done with
  | nil => exact run_entry names done entry.1 entry.2
  | cons next rest ih =>
      have parts : compactEntries (ofTexts (entry :: next :: rest)) =
          (quote entry.1 ++ ':' :: quote entry.2) ++
            ([','] ++ compactEntries (ofTexts (next :: rest))) := by
        simp [ofTexts, compactEntries, Json.compact]
      have comma : run (.between .next (done.insert entry.1 entry.2)) [','] =
          some (.between .name (done.insert entry.1 entry.2)) := rfl
      rw [parts, run_append, run_entry names done, Option.bind_some, run_append, comma,
        Option.bind_some, ih (.inr rfl)]
      rfl

end Entries

theorem run_toText (properties : Properties) :
    run (.between .start .empty) properties.toText.toList =
      some (.between .finished (Dictionary.ofList properties.entries)) := by
  have text : properties.toText.toList =
      ['\x7b'] ++ (compactEntries (ofTexts properties.entries) ++ ['\x7d']) := by
    simp [toText, toJson, Json.render, Json.compact, ofTexts]
  have brace : run (.between .start .empty) ['\x7b'] = some (.between .firstName .empty) := rfl
  rw [text, run_append, brace, Option.bind_some, run_append]
  cases properties.entries with
  | nil => rfl
  | cons entry rest =>
      rw [run_entries (.inl rfl), Option.bind_some]
      rfl

end Reader

/-- The text of properties is read as these properties. -/
theorem ofText?_toText (properties : Properties) : ofText? properties.toText = some properties := by
  rw [ofText?, Reader.run_toText, Dictionary.ofList_entries]

end ScopeGraph.Properties
