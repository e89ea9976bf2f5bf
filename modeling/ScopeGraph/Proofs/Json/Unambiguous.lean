import ScopeGraph.Json.Strings

/-!
# JSON texts can be told apart

An escaped character can be read back whatever follows it, and no escape starts with a quote.  So a
quoted text ends where it seems to end.  The first character of a value tells what kind of value it
is, and in front of anything but a digit the text of a value ends where the value ends.
-/
set_option autoImplicit false

namespace ScopeGraph.Json

theorem hexValue?_lowerHexDigit : ∀ digit < 16,
    Text.hexValue? (Text.lowerHexDigit digit) = some digit := by
  decide

/-- A character is escaped by a letter behind a backslash, by its number, or not at all. -/
theorem escape_cases (c : Char) :
    (∃ letter, letter ≠ 'u' ∧ Properties.shortEscape? letter = some c ∧
      escape c = ['\\', letter]) ∨
    (c.toNat < 32 ∧ escape c =
      ['\\', 'u', '0', '0', Text.lowerHexDigit (c.toNat / 16),
        Text.lowerHexDigit (c.toNat % 16)]) ∨
    (c ≠ '"' ∧ c ≠ '\\' ∧ ¬ c.toNat < 32 ∧ escape c = [c]) := by
  unfold escape
  split
  · next same => exact .inl ⟨_, by decide, by rw [same]; rfl, rfl⟩
  split
  · next same => exact .inl ⟨_, by decide, by rw [same]; rfl, rfl⟩
  split
  · next same => exact .inl ⟨_, by decide, by rw [same]; rfl, rfl⟩
  split
  · next same => exact .inl ⟨_, by decide, by rw [same]; rfl, rfl⟩
  split
  · next same => exact .inl ⟨_, by decide, by rw [same]; rfl, rfl⟩
  split
  · next same => exact .inl ⟨_, by decide, by rw [same]; rfl, rfl⟩
  split
  · next same => exact .inl ⟨_, by decide, by rw [same]; rfl, rfl⟩
  split
  · next control => exact .inr (.inl ⟨control, rfl⟩)
  · next noQuote noBackslash _ _ _ _ _ noControl =>
      exact .inr (.inr ⟨noQuote, noBackslash, noControl, rfl⟩)

/-- Reads what stands behind a backslash. -/
def afterBackslash? : List Char → Option (Char × List Char)
  | 'u' :: _ :: _ :: high :: low :: rest =>
    (Text.hexValue? high).bind fun high =>
      (Text.hexValue? low).map fun low => (Char.ofNat (16 * high + low), rest)
  | letter :: rest => (Properties.shortEscape? letter).map fun c => (c, rest)
  | [] => none

/-- Reads one character of a quoted text. -/
def unescape? : List Char → Option (Char × List Char)
  | [] => none
  | c :: rest => if c = '\\' then afterBackslash? rest else some (c, rest)

theorem unescape?_control (c : Char) (control : c.toNat < 32) (rest : List Char) :
    unescape? ('\\' :: 'u' :: '0' :: '0' :: Text.lowerHexDigit (c.toNat / 16) ::
      Text.lowerHexDigit (c.toNat % 16) :: rest) = some (c, rest) := by
  have high := hexValue?_lowerHexDigit (c.toNat / 16) (by omega)
  have low := hexValue?_lowerHexDigit (c.toNat % 16) (by omega)
  have whole : 16 * (c.toNat / 16) + c.toNat % 16 = c.toNat := Nat.div_add_mod c.toNat 16
  simp [unescape?, afterBackslash?, high, low, whole, Char.ofNat_toNat]

theorem unescape?_escape (c : Char) (rest : List Char) :
    unescape? (escape c ++ rest) = some (c, rest) := by
  rcases escape_cases c with ⟨letter, noNumber, short, shape⟩ | ⟨control, shape⟩ |
    ⟨_, noBackslash, _, shape⟩
  · simp [shape, unescape?, afterBackslash?, noNumber, short]
  · rw [shape]
    exact unescape?_control c control rest
  · simp [shape, unescape?, noBackslash]

theorem escape_append_inj {first second : Char} {rest other : List Char}
    (same : escape first ++ rest = escape second ++ other) : first = second ∧ rest = other := by
  have read := congrArg unescape? same
  rw [unescape?_escape, unescape?_escape] at read
  exact Prod.mk.inj (Option.some.inj read)

theorem escape_ne_quote (c : Char) (rest other : List Char) :
    escape c ++ rest ≠ '"' :: other := by
  intro same
  have read := congrArg unescape? same
  rw [unescape?_escape] at read
  have plain : c = '"' := (Prod.mk.inj (Option.some.inj read)).1
  subst plain
  cases same

theorem escaped_append_inj (first : List Char) : ∀ (second rest other : List Char),
    first.flatMap escape ++ '"' :: rest = second.flatMap escape ++ '"' :: other →
      first = second ∧ rest = other := by
  induction first with
  | nil =>
      intro second rest other same
      cases second with
      | nil => exact ⟨rfl, (List.cons.inj same).2⟩
      | cons c later =>
          rw [List.flatMap_cons, List.append_assoc] at same
          exact absurd same.symm (escape_ne_quote c _ rest)
  | cons c tail ih =>
      intro second rest other same
      cases second with
      | nil =>
          rw [List.flatMap_cons, List.append_assoc] at same
          exact absurd same (escape_ne_quote c _ other)
      | cons d later =>
          rw [List.flatMap_cons, List.flatMap_cons, List.append_assoc, List.append_assoc] at same
          obtain ⟨head, remaining⟩ := escape_append_inj same
          obtain ⟨equal, remainder⟩ := ih later rest other remaining
          exact ⟨by rw [head, equal], remainder⟩

theorem quote_append_inj {first second : String} {rest other : List Char}
    (same : quote first ++ rest = quote second ++ other) : first = second ∧ rest = other := by
  simp only [quote, List.cons_append, List.append_assoc, List.nil_append, List.cons.injEq,
    true_and] at same
  obtain ⟨equal, remainder⟩ := escaped_append_inj first.toList second.toList rest other same
  exact ⟨String.toList_inj.mp equal, remainder⟩

/-! ## Values -/

theorem isDigit_of_mem_toString {n : Nat} {c : Char} (member : c ∈ (toString n).toList) :
    c.isDigit := by
  rw [Nat.toString_eq_ofList_toDigits, String.toList_ofList] at member
  exact Nat.isDigit_of_mem_toDigits (by decide) (by decide) member

/-- What kind of value starts with a character, counted in the order of the constructors. -/
def sortOf (c : Char) : Nat :=
  if c = 'n' then 0
  else if c = 't' ∨ c = 'f' then 1
  else if c.isDigit then 2
  else if c = '"' then 3
  else if c = '[' then 4
  else if c = '\x7b' then 5
  else 6

theorem sortOf_digit {c : Char} (digit : c.isDigit) : sortOf c = 2 := by
  have noLetter (letter : Char) (other : ¬ letter.isDigit) : c ≠ letter :=
    fun same => other (same ▸ digit)
  rw [sortOf, if_neg (noLetter 'n' (by decide)),
    if_neg (not_or.mpr ⟨noLetter 't' (by decide), noLetter 'f' (by decide)⟩), if_pos digit]

theorem sortOf_first (json : Json) :
    ∃ c tail, json.compact = c :: tail ∧ sortOf c = json.ctorIdx := by
  cases json with
  | null => exact ⟨_, _, rfl, rfl⟩
  | bool value => cases value <;> exact ⟨_, _, rfl, rfl⟩
  | string value => exact ⟨_, _, rfl, rfl⟩
  | array items => exact ⟨_, _, rfl, rfl⟩
  | object entries => exact ⟨_, _, rfl, rfl⟩
  | number value =>
      have digits : (toString value).toList ≠ [] := by
        rw [Nat.toString_eq_ofList_toDigits, String.toList_ofList]
        exact Nat.toDigits_ne_nil
      obtain ⟨c, tail, shape⟩ := List.exists_cons_of_ne_nil digits
      have digit : c.isDigit := isDigit_of_mem_toString (shape ▸ List.mem_cons_self)
      exact ⟨c, tail, shape, sortOf_digit digit⟩

theorem ctorIdx_eq {first second : Json} {rest other : List Char}
    (same : first.compact ++ rest = second.compact ++ other) : first.ctorIdx = second.ctorIdx := by
  obtain ⟨c, tail, shape, sort⟩ := first.sortOf_first
  obtain ⟨d, otherTail, otherShape, otherSort⟩ := second.sortOf_first
  rw [shape, otherShape] at same
  rw [← sort, ← otherSort, (List.cons.inj same).1]

/-- A text does not go on with a digit. -/
def Ends (rest : List Char) : Prop := ∀ c ∈ rest.head?, ¬ c.isDigit

theorem toString_append_inj {first second : Nat} {rest other : List Char} (ends : Ends rest)
    (otherEnds : Ends other)
    (same : (toString first).toList ++ rest = (toString second).toList ++ other) :
    first = second ∧ rest = other := by
  have digits (n : Nat) (tail : List Char) (stops : Ends tail) :
      ((toString n).toList ++ tail).takeWhile Char.isDigit = Nat.toDigits 10 n := by
    have none : tail.takeWhile Char.isDigit = [] := by
      cases tail with
      | nil => rfl
      | cons c tail => exact List.takeWhile_cons_of_neg (stops c rfl)
    rw [List.takeWhile_append_of_pos fun c member => isDigit_of_mem_toString member, none,
      List.append_nil, Nat.toString_eq_ofList_toDigits, String.toList_ofList]
  have runs := congrArg (List.takeWhile Char.isDigit) same
  rw [digits first rest ends, digits second other otherEnds] at runs
  have values := congrArg (Nat.ofDigitChars 10 · 0) runs
  simp only [Nat.ofDigitChars_ten_toDigits] at values
  subst values
  exact ⟨rfl, List.append_cancel_left same⟩

/-- The text of an item and what divides it from the next one or ends the array. -/
theorem compactItems_cons (item : Json) (rest : List Json) :
    compactItems (item :: rest) =
      item.compact ++ if rest = [] then [] else ',' :: compactItems rest := by
  cases rest with
  | nil => simp [compactItems]
  | cons next others => simp [compactItems]

theorem compactEntries_cons (name : String) (value : Json) (rest : List (String × Json)) :
    compactEntries ((name, value) :: rest) =
      quote name ++ ':' :: value.compact ++
        if rest = [] then [] else ',' :: compactEntries rest := by
  cases rest with
  | nil => simp [compactEntries]
  | cons next others => simp [compactEntries]

theorem ends_divided {α : Type} (rest : List α) (later tail : List Char) {close : Char}
    (noDigit : ¬ close.isDigit) :
    Ends ((if rest = [] then [] else ',' :: later) ++ close :: tail) := by
  intro c first
  split at first
  · cases first
    exact noDigit
  · cases first
    decide

/-- What follows one item tells whether there are more. -/
theorem divided_inj {α : Type} {items later : List α} {text found rest other : List Char}
    {close : Char} (noComma : close ≠ ',')
    (same : (if items = [] then [] else ',' :: text) ++ close :: rest =
      (if later = [] then [] else ',' :: found) ++ close :: other) :
    (items = [] ∧ later = [] ∧ rest = other) ∨ text ++ close :: rest = found ++ close :: other := by
  split at same
  · next none =>
      split at same
      · next noneLater => exact .inl ⟨none, noneLater, (List.cons.inj same).2⟩
      · exact absurd (List.cons.inj same).1 noComma
  · split at same
    · exact absurd (List.cons.inj same).1.symm noComma
    · exact .inr (List.cons.inj same).2

mutual

theorem compact_append_inj : ∀ (first second : Json) {rest other : List Char}, Ends rest →
    Ends other → first.compact ++ rest = second.compact ++ other →
      first = second ∧ rest = other
  | null, second, rest, other, ends, otherEnds, same => by
    have sorts := ctorIdx_eq same
    cases second with
    | null => exact ⟨rfl, List.append_cancel_left same⟩
    | _ => cases sorts
  | bool value, second, rest, other, ends, otherEnds, same => by
    have sorts := ctorIdx_eq same
    cases second with
    | bool found =>
        have values : value = found := by
          cases value <;> cases found <;>
            first | rfl | exact absurd (List.cons.inj same).1 (by decide)
        subst values
        exact ⟨rfl, List.append_cancel_left same⟩
    | _ => cases sorts
  | number value, second, rest, other, ends, otherEnds, same => by
    have sorts := ctorIdx_eq same
    cases second with
    | number found =>
        obtain ⟨values, remainder⟩ := toString_append_inj ends otherEnds same
        exact ⟨by rw [values], remainder⟩
    | _ => cases sorts
  | string value, second, rest, other, ends, otherEnds, same => by
    have sorts := ctorIdx_eq same
    cases second with
    | string found =>
        obtain ⟨values, remainder⟩ := quote_append_inj same
        exact ⟨by rw [values], remainder⟩
    | _ => cases sorts
  | array items, second, rest, other, ends, otherEnds, same => by
    have sorts := ctorIdx_eq same
    cases second with
    | array found =>
        simp only [compact, List.cons_append, List.append_assoc, List.cons.injEq, true_and,
          List.nil_append] at same
        obtain ⟨values, remainder⟩ := compactItems_append_inj items found same
        exact ⟨by rw [values], remainder⟩
    | _ => cases sorts
  | object entries, second, rest, other, ends, otherEnds, same => by
    have sorts := ctorIdx_eq same
    cases second with
    | object found =>
        simp only [compact, List.cons_append, List.append_assoc, List.cons.injEq, true_and,
          List.nil_append] at same
        obtain ⟨values, remainder⟩ := compactEntries_append_inj entries found same
        exact ⟨by rw [values], remainder⟩
    | _ => cases sorts

theorem compactItems_append_inj : ∀ (first second : List Json) {rest other : List Char},
    compactItems first ++ ']' :: rest = compactItems second ++ ']' :: other →
      first = second ∧ rest = other
  | [], [], rest, other, same => ⟨rfl, (List.cons.inj same).2⟩
  | [], found :: later, rest, other, same => by
    obtain ⟨c, tail, shape, sort⟩ := found.sortOf_first
    rw [compactItems_cons, shape] at same
    rw [← (List.cons.inj same).1] at sort
    cases found <;> cases sort
  | item :: items, [], rest, other, same => by
    obtain ⟨c, tail, shape, sort⟩ := item.sortOf_first
    rw [compactItems_cons, shape] at same
    rw [(List.cons.inj same).1] at sort
    cases item <;> cases sort
  | item :: items, found :: later, rest, other, same => by
    rw [compactItems_cons, compactItems_cons, List.append_assoc, List.append_assoc] at same
    obtain ⟨values, divided⟩ := compact_append_inj item found
      (ends_divided items _ rest (by decide)) (ends_divided later _ other (by decide)) same
    subst values
    rcases divided_inj (by decide) divided with ⟨rfl, rfl, remainder⟩ | more
    · exact ⟨rfl, remainder⟩
    · obtain ⟨equal, remainder⟩ := compactItems_append_inj items later more
      exact ⟨by rw [equal], remainder⟩

theorem compactEntries_append_inj : ∀ (first second : List (String × Json))
    {rest other : List Char},
    compactEntries first ++ '\x7d' :: rest = compactEntries second ++ '\x7d' :: other →
      first = second ∧ rest = other
  | [], [], rest, other, same => ⟨rfl, (List.cons.inj same).2⟩
  | [], (_, _) :: _, rest, other, same => by
    rw [compactEntries_cons] at same
    exact absurd (List.cons.inj same).1 (by decide)
  | (_, _) :: _, [], rest, other, same => by
    rw [compactEntries_cons] at same
    exact absurd (List.cons.inj same).1 (by decide)
  | (name, value) :: entries, (foundName, found) :: later, rest, other, same => by
    rw [compactEntries_cons, compactEntries_cons] at same
    simp only [List.append_assoc, List.cons_append] at same
    obtain ⟨names, afterName⟩ := quote_append_inj same
    obtain ⟨values, divided⟩ := compact_append_inj value found
      (ends_divided entries _ rest (by decide)) (ends_divided later _ other (by decide))
      (List.cons.inj afterName).2
    subst names
    subst values
    rcases divided_inj (by decide) divided with ⟨rfl, rfl, remainder⟩ | more
    · exact ⟨rfl, remainder⟩
    · obtain ⟨equal, remainder⟩ := compactEntries_append_inj entries later more
      exact ⟨by rw [equal], remainder⟩

end

/-! ## Objects of texts -/

def ofTexts (entries : List (String × String)) : List (String × Json) :=
  entries.map fun entry => (entry.1, .string entry.2)

theorem ofTexts_inj {first second : List (String × String)}
    (same : ofTexts first = ofTexts second) : first = second := by
  refine (List.map_inj_right ?_).mp same
  intro entry found equal
  obtain ⟨names, values⟩ := Prod.mk.inj equal
  exact Prod.ext names (Json.string.inj values)

end ScopeGraph.Json
