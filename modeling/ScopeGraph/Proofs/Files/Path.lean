import ScopeGraph.Files.Tree

/-!
# Joined paths

The parts of a path joined with a relative one are the parts of both, and the path is absolute only
if the first one is.
-/
set_option autoImplicit false

namespace ScopeGraph

/-! ## Parts of a text -/

namespace Text

section Split

variable {α : Type} [DecidableEq α] {separator : α} {chars : List α}

theorem splitAt_eq_splitOn (separator : α) (chars : List α) :
    splitAt separator chars = chars.splitOn separator := by
  induction chars with
  | nil => rfl
  | cons c rest ih =>
      obtain ⟨part, parts, split⟩ :=
        List.exists_cons_of_ne_nil (List.splitOn_ne_nil separator rest)
      rw [splitAt, ih, List.splitOn_cons_eq_if_modifyHead, split]
      simp only [beq_iff_eq]
      rfl

theorem exists_splitAt (separator : α) (chars : List α) :
    ∃ part parts, splitAt separator chars = part :: parts := by
  rw [splitAt_eq_splitOn]
  exact List.exists_cons_of_ne_nil (List.splitOn_ne_nil separator chars)

theorem splitAt_cons_of_ne {c : α} (other : c ≠ separator) {part : List α} {parts : List (List α)}
    (split : splitAt separator chars = part :: parts) :
    splitAt separator (c :: chars) = (c :: part) :: parts := by
  rw [splitAt, if_neg other, split]

theorem splitAt_append_cons (first second : List α) :
    splitAt separator (first ++ separator :: second) =
      splitAt separator first ++ splitAt separator second := by
  simp only [splitAt_eq_splitOn, List.splitOn_append_cons_self]

theorem splitAt_of_notMem (none : separator ∉ chars) : splitAt separator chars = [chars] := by
  rw [splitAt_eq_splitOn, List.splitOn_eq_singleton none]

theorem notMem_of_mem_splitAt {part : List α} (member : part ∈ splitAt separator chars) :
    separator ∉ part := by
  induction chars generalizing part with
  | nil =>
      rw [List.mem_singleton.mp member]
      exact List.not_mem_nil
  | cons c rest ih =>
      by_cases same : c = separator
      · rw [splitAt, if_pos same] at member
        rcases List.mem_cons.mp member with here | later
        · rw [here]
          exact List.not_mem_nil
        · exact ih later
      · obtain ⟨first, others, split⟩ := exists_splitAt separator rest
        rw [splitAt_cons_of_ne same split] at member
        rw [split] at ih
        rcases List.mem_cons.mp member with here | later
        · rw [here]
          exact List.not_mem_cons_of_ne_of_not_mem (Ne.symm same) (ih List.mem_cons_self)
        · exact ih (List.mem_cons_of_mem _ later)

/-- What holds no separator goes to the end of the last part. -/
theorem splitAt_append_of_notMem (chars : List α) {ending : List α} (none : separator ∉ ending) :
    ∃ before last, splitAt separator chars = before ++ [last] ∧
      splitAt separator (chars ++ ending) = before ++ [last ++ ending] := by
  induction chars with
  | nil => exact ⟨[], [], rfl, splitAt_of_notMem none⟩
  | cons c rest ih =>
      obtain ⟨before, last, split, longer⟩ := ih
      rw [List.cons_append]
      by_cases same : c = separator
      · refine ⟨[] :: before, last, ?_, ?_⟩
        · rw [splitAt, if_pos same, split, List.cons_append]
        · rw [splitAt, if_pos same, longer, List.cons_append]
      · cases before with
        | nil =>
            exact ⟨[], c :: last, splitAt_cons_of_ne same split, splitAt_cons_of_ne same longer⟩
        | cons first others =>
            exact ⟨(c :: first) :: others, last, splitAt_cons_of_ne same split,
              splitAt_cons_of_ne same longer⟩

end Split

end Text

namespace Files.Path

/-! ## Names -/

theorem mem_map_ofList {chars : List (List Char)} {part : String} :
    part ∈ chars.map String.ofList ↔ part.toList ∈ chars := by
  constructor
  · intro member
    obtain ⟨found, inside, rfl⟩ := List.mem_map.mp member
    rwa [String.toList_ofList]
  · intro inside
    exact List.mem_map.mpr ⟨_, inside, String.ofList_toList⟩

theorem mem_parts {path part : String} :
    part ∈ parts path ↔ part.toList ∈ Text.splitAt '/' path.toList ∧ part ≠ "" := by
  rw [parts, mem_map_ofList, List.mem_filter, decide_eq_true_eq, ne_eq, String.toList_eq_nil_iff]

theorem notMem_of_mem_parts {path part : String} (member : part ∈ parts path) :
    '/' ∉ part.toList :=
  Text.notMem_of_mem_splitAt (mem_parts.mp member).1

/-- The components of a path that lead somewhere. -/
def moves (path : String) : List Component := (components path).filter (· ≠ .current)

theorem moves_eq (path : String) :
    moves path = (if isAbsolute path then [.root] else []) ++
      ((parts path).filter (· ≠ ".")).map Component.ofName := by
  have stays : (((parts path).filter (· ≠ ".")).map Component.ofName).filter (· ≠ .current) =
      ((parts path).filter (· ≠ ".")).map Component.ofName := by
    refine List.filter_eq_self.mpr fun component member => ?_
    obtain ⟨part, _, rfl⟩ := List.mem_map.mp member
    rw [Component.ofName]
    split <;> rfl
  rw [moves, components]
  split
  · rw [List.filter_cons_of_pos rfl, stays, List.singleton_append]
  · split
    · rw [List.filter_cons_of_neg (by decide), stays, List.nil_append]
    · rw [stays, List.nil_append]

theorem mem_names {path name : String} :
    name ∈ names path ↔ name ∈ parts path ∧ name ≠ "." ∧ name ≠ ".." := by
  have named : name ∈ names path ↔ .normal name ∈ moves path := by
    rw [names, moves, List.mem_filterMap, List.mem_filter]
    constructor
    · rintro ⟨component, member, found⟩
      cases component with
      | normal other =>
          cases found
          exact ⟨member, rfl⟩
      | _ => cases found
    · exact fun ⟨member, _⟩ => ⟨_, member, rfl⟩
  have normal (part : String) :
      Component.ofName part = .normal name ↔ part = name ∧ name ≠ ".." := by
    rw [Component.ofName]
    split <;> grind
  have root : Component.normal name ∉ (if isAbsolute path then [.root] else []) := by
    split <;> simp
  rw [named, moves_eq, List.mem_append, or_iff_right root, List.mem_map]
  simp only [normal, List.mem_filter, decide_eq_true_eq]
  grind

theorem parts_of_notMem {name : String} (none : '/' ∉ name.toList) (filled : name ≠ "") :
    parts name = [name] := by
  have chars : name.toList ≠ [] := fun empty => filled (String.toList_eq_nil_iff.mp empty)
  rw [parts, Text.splitAt_of_notMem none, List.filter_cons_of_pos (by simpa using chars)]
  simp

/-! ## Joining -/

variable {path next : String}

theorem parts_append_slash {first second : List Char}
    (joined : path.toList = first ++ '/' :: second) :
    parts path = parts (String.ofList first) ++ parts (String.ofList second) := by
  simp only [parts, joined, Text.splitAt_append_cons, String.toList_ofList, List.filter_append,
    List.map_append]

theorem join_cases (path : String) (relative : isAbsolute next = false) :
    (path = "" ∧ join path next = next) ∨
      (∃ front, path.toList = front ++ ['/'] ∧
        (join path next).toList = front ++ '/' :: next.toList) ∨
      (path ≠ "" ∧ (join path next).toList = path.toList ++ '/' :: next.toList) := by
  rw [join, if_neg (by simp [relative])]
  by_cases empty : path = ""
  · exact Or.inl ⟨empty, by simp [empty]⟩
  by_cases ends : path.toList.getLast? = some '/'
  · obtain ⟨front, split⟩ := List.getLast?_eq_some_iff.mp ends
    refine Or.inr (Or.inl ⟨front, split, ?_⟩)
    rw [if_pos (Or.inr ends), String.toList_append, split]
    simp
  · refine Or.inr (Or.inr ⟨empty, ?_⟩)
    rw [if_neg (by simp [empty, ends])]
    simp

/-- What a join puts in front of a path does not depend on the path. -/
theorem exists_front_of_join (path : String) :
    ∃ front : List Char, ∀ next, isAbsolute next = false →
      (join path next).toList = front ++ next.toList := by
  by_cases closed : path = "" ∨ path.toList.getLast? = some '/'
  · refine ⟨path.toList, fun next relative => ?_⟩
    rw [join, if_neg (by simp [relative]), if_pos closed, String.toList_append]
  · refine ⟨path.toList ++ ['/'], fun next relative => ?_⟩
    rw [join, if_neg (by simp [relative]), if_neg closed, String.toList_append,
      String.toList_append]
    rfl

theorem parts_join (relative : isAbsolute next = false) :
    parts (join path next) = parts path ++ parts next := by
  have behind {first : List Char} (joined : (join path next).toList = first ++ '/' :: next.toList) :
      parts (join path next) = parts (String.ofList first) ++ parts next := by
    rw [parts_append_slash joined, String.ofList_toList]
  rcases join_cases path relative with ⟨rfl, same⟩ | ⟨front, split, joined⟩ | ⟨_, joined⟩
  · rw [same]
    rfl
  · rw [behind joined, parts_append_slash split]
    simp [parts, Text.splitAt]
  · rw [behind joined, String.ofList_toList]

theorem isAbsolute_join (relative : isAbsolute next = false) :
    isAbsolute (join path next) = isAbsolute path := by
  rcases join_cases path relative with ⟨rfl, same⟩ | ⟨front, split, joined⟩ | ⟨filled, joined⟩
  · rw [same, relative]
    rfl
  · rw [isAbsolute, isAbsolute, joined, split]
    cases front <;> rfl
  · have chars : path.toList ≠ [] := fun empty => filled (String.toList_eq_nil_iff.mp empty)
    rw [isAbsolute, isAbsolute, joined, List.head?_append, List.head?_eq_some_head chars]
    rfl

theorem isAbsolute_of_notMem (none : '/' ∉ next.toList) : isAbsolute next = false := by
  refine decide_eq_false fun head => none ?_
  exact List.mem_of_mem_head? head

theorem parts_foldl_join (directories : List String) (path : String)
    (plain : ∀ name ∈ directories, '/' ∉ name.toList ∧ name ≠ "") :
    parts (directories.foldl join path) = parts path ++ directories := by
  induction directories generalizing path with
  | nil => rw [List.foldl_nil, List.append_nil]
  | cons name rest ih =>
      obtain ⟨⟨none, filled⟩, others⟩ := List.forall_mem_cons.mp plain
      rw [List.foldl_cons, ih _ others, parts_join (isAbsolute_of_notMem none),
        parts_of_notMem none filled, List.append_assoc, List.singleton_append]

theorem isAbsolute_foldl_join (directories : List String) (path : String)
    (plain : ∀ name ∈ directories, '/' ∉ name.toList) :
    isAbsolute (directories.foldl join path) = isAbsolute path := by
  induction directories generalizing path with
  | nil => rfl
  | cons name rest ih =>
      obtain ⟨none, others⟩ := List.forall_mem_cons.mp plain
      rw [List.foldl_cons, ih _ others, isAbsolute_join (isAbsolute_of_notMem none)]

theorem endsInSlash_join (relative : isAbsolute next = false) (filled : next ≠ "") :
    endsInSlash (join path next) = endsInSlash next := by
  have chars : next.toList ≠ [] := fun empty => filled (String.toList_eq_nil_iff.mp empty)
  rcases join_cases path relative with ⟨_, same⟩ | ⟨_, _, joined⟩ | ⟨_, joined⟩
  · rw [same]
  all_goals
    rw [endsInSlash, endsInSlash, joined, List.getLast?_append, List.getLast?_cons,
      List.getLast?_eq_some_getLast chars]
    rfl

end Files.Path
end ScopeGraph
