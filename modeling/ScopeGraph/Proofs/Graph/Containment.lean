import Mathlib.Data.List.DropRight
import Mathlib.Data.List.Forall2
import ScopeGraph.Graph.Containment
import ScopeGraph.Proofs.Files.Path

/-!
# Containments are normal forms

A trimmed text starts and ends with a character that is no blank, so taking blanks out of its inside
neither empties it nor brings a blank to an end.  The folders and the file name of a path are
therefore trimmed texts without slashes and dots, and the path that joins them is read as the same
folders and the same file name.
-/
set_option autoImplicit false

namespace ScopeGraph

/-! ## Trimmed texts -/

namespace Text

variable {chars inner : List Char}

/-- Nothing but White_Space. -/
def OnlyBlanks (chars : List Char) : Prop := ∀ c ∈ chars, isBlank c

instance (chars : List Char) : Decidable (OnlyBlanks chars) :=
  inferInstanceAs (Decidable (∀ c ∈ chars, isBlank c))

theorem OnlyBlanks.append {front back : List Char} (first : OnlyBlanks front)
    (second : OnlyBlanks back) : OnlyBlanks (front ++ back) :=
  fun c member => (List.mem_append.mp member).elim (first c) (second c)

/-- There is no blank at either end. -/
structure Trimmed (chars : List Char) : Prop where
  front : ∀ c ∈ chars.head?, isBlank c = false
  back : ∀ c ∈ chars.getLast?, isBlank c = false

/-- The inner text is what is left of a text without the blanks around it. -/
structure TrimsTo (chars inner : List Char) : Prop where
  around : ∃ before after, chars = before ++ (inner ++ after) ∧ OnlyBlanks before ∧ OnlyBlanks after
  trimmed : Trimmed inner

theorem trimsTo_trim (chars : List Char) : TrimsTo chars (trim chars) := by
  have rest : chars.dropWhile isBlank = trim chars ++ (dropBlanks chars).rtakeWhile isBlank :=
    List.rdropWhile_append_rtakeWhile.symm
  refine ⟨⟨chars.takeWhile isBlank, (dropBlanks chars).rtakeWhile isBlank, ?_, ?_, ?_⟩, ?_, ?_⟩
  · rw [← rest, List.takeWhile_append_dropWhile]
  · exact fun c => List.mem_takeWhile_imp
  · exact fun c => List.mem_rtakeWhile_imp
  · intro c head
    have first := List.head?_dropWhile_not isBlank chars
    rw [rest, List.head?_append, Option.mem_def.mp head] at first
    exact first
  · intro c last
    obtain ⟨filled, rfl⟩ := List.mem_getLast?_eq_getLast last
    exact Bool.eq_false_iff.mpr (List.rdropWhile_last_not isBlank (dropBlanks chars) filled)

theorem dropBlanks_append {front rest : List Char} (blank : OnlyBlanks front)
    (stops : ∀ c ∈ rest.head?, isBlank c = false) : dropBlanks (front ++ rest) = rest := by
  rw [dropBlanks, List.dropWhile_append_of_pos blank]
  cases rest with
  | nil => rfl
  | cons c rest => exact List.dropWhile_cons_of_neg (by simp [stops c rfl])

theorem TrimsTo.trim_eq (trims : TrimsTo chars inner) : trim chars = inner := by
  obtain ⟨⟨before, after, rfl, blankBefore, blankAfter⟩, front, back⟩ := trims
  by_cases empty : inner = []
  · subst empty
    have dropped : dropBlanks (before ++ after) = [] :=
      List.dropWhile_eq_nil_iff.mpr (blankBefore.append blankAfter)
    rw [List.nil_append, trim, dropped]
    rfl
  · have start : dropBlanks (before ++ (inner ++ after)) = inner ++ after := by
      refine dropBlanks_append blankBefore ?_
      rw [List.head?_append_of_ne_nil _ empty]
      exact front
    have stop : dropBlanks (after.reverse ++ inner.reverse) = inner.reverse := by
      refine dropBlanks_append (fun c member => blankAfter c (List.mem_reverse.mp member)) ?_
      rw [List.head?_reverse]
      exact back
    rw [trim, start, List.reverse_append, stop, List.reverse_reverse]

theorem Trimmed.trim_eq (trimmed : Trimmed chars) : trim chars = chars :=
  TrimsTo.trim_eq ⟨⟨[], [], by simp, nofun, nofun⟩, trimmed⟩

theorem trim_eq_nil_iff : trim chars = [] ↔ OnlyBlanks chars := by
  constructor
  · intro empty
    obtain ⟨before, after, parts, blankBefore, blankAfter⟩ := (trimsTo_trim chars).around
    rw [parts, empty, List.nil_append]
    exact blankBefore.append blankAfter
  · intro blank
    exact TrimsTo.trim_eq ⟨⟨chars, [], by simp, blank, nofun⟩, ⟨nofun, nofun⟩⟩

theorem trim_subset (chars : List Char) : trim chars ⊆ chars := by
  obtain ⟨before, after, parts, _, _⟩ := (trimsTo_trim chars).around
  intro c member
  rw [parts]
  exact List.mem_append_right before (List.mem_append_left after member)

/-- Where all but blanks are kept, a trimmed text keeps its ends. -/
theorem Trimmed.ends_filter (trimmed : Trimmed chars) {keeps : Char → Bool}
    (keepsText : ∀ c, isBlank c = false → keeps c) :
    (chars.filter keeps).head? = chars.head? ∧ (chars.filter keeps).getLast? = chars.getLast? := by
  constructor
  · cases chars with
    | nil => rfl
    | cons c rest =>
        rw [List.filter_cons_of_pos (keepsText c (trimmed.front c rfl))]
        rfl
  · rcases List.eq_nil_or_concat chars with rfl | ⟨rest, c, rfl⟩
    · rfl
    · have kept := keepsText c (trimmed.back c (by simp))
      simp [List.filter_append, kept]

end Text

namespace Containment

/-! ## The components of a path -/

/-- The directories and the last component of a path: slashes stand between them and nowhere
else. -/
structure Divides (path : String) (directories : List String) (last : String) : Prop where
  joined : "/".intercalate (directories ++ [last]) = path
  undivided : ∀ component ∈ directories ++ [last], '/' ∉ component.toList

theorem exists_divides (path : String) : ∃ directories last, Divides path directories last := by
  let components := (Text.splitAt '/' path.toList).map String.ofList
  have filled : components ≠ [] := by
    rw [ne_eq, List.map_eq_nil_iff, Text.splitAt_eq_splitOn]
    exact List.splitOn_ne_nil '/' path.toList
  have whole : components.dropLast ++ [components.getLast filled] = components :=
    List.dropLast_concat_getLast filled
  have joined : "/".intercalate components = path := by
    rw [← String.toList_inj, String.toList_intercalate, List.map_map, Text.splitAt_eq_splitOn]
    simp [Function.comp_def]
  refine ⟨components.dropLast, components.getLast filled, ?_, ?_⟩
  · rw [whole, joined]
  · rw [whole]
    intro component member
    exact Text.notMem_of_mem_splitAt (Files.Path.mem_map_ofList.mp member)

/-- A directory that is no folder: it is blank or has a dot. -/
def Dropped (directory : String) : Prop :=
  Text.OnlyBlanks directory.toList ∨ '.' ∈ directory.toList

instance (directory : String) : Decidable (Dropped directory) :=
  inferInstanceAs (Decidable (_ ∨ _))

theorem isFolder_iff (directory : String) : isFolder directory.toList ↔ ¬ Dropped directory := by
  rw [Dropped, not_or, ← Text.trim_eq_nil_iff, and_comm]
  simp [isFolder]

/-- What stands before the first dot. -/
def beforeDot (component : String) : List Char := component.toList.takeWhile (· ≠ '.')

theorem stem_eq_nil_iff (component : String) :
    stem component.toList = [] ↔ Text.OnlyBlanks (beforeDot component) :=
  Text.trim_eq_nil_iff

/-- The containment that the components of a path give. -/
def ofComponents (directories : List String) (last : String) : Containment where
  folders := (directories.filter fun directory => ¬ Dropped directory).map fun directory =>
    String.ofList (folderName directory.toList)
  fileName := String.ofList (stem last.toList)

section Divided

variable {path last : String} {directories : List String} (divides : Divides path directories last)
include divides

theorem Divides.splitAt_eq :
    Text.splitAt '/' path.toList = (directories ++ [last]).map String.toList := by
  have undivided : ∀ part ∈ (directories ++ [last]).map String.toList, '/' ∉ part := by
    intro part member
    obtain ⟨component, listed, rfl⟩ := List.mem_map.mp member
    exact divides.undivided component listed
  rw [Text.splitAt_eq_splitOn, ← divides.joined, String.toList_intercalate]
  exact List.splitOn_intercalate '/' undivided (by simp)

theorem Divides.ofPath_eq :
    ofPath path =
      if Text.OnlyBlanks (beforeDot last) then .error (.invalidPath (.noFileName path))
      else .ok (ofComponents directories last) := by
  have split := divides.splitAt_eq
  have kept : directories.filter (fun directory => isFolder directory.toList) =
      directories.filter fun directory => ¬ Dropped directory := by
    refine List.filter_congr fun directory _ => ?_
    rw [Bool.eq_iff_iff, isFolder_iff, decide_eq_true_eq]
  rw [List.map_append, List.map_singleton] at split
  simp only [ofPath, split, List.getLast?_concat, Option.getD_some, List.dropLast_concat,
    List.filter_map, List.map_map, stem_eq_nil_iff, ofComponents, ← kept]
  rfl

end Divided

/-! ## Normal forms -/

/-- A name as folders and files have it. -/
structure IsName (name : String) : Prop where
  filled : name ≠ ""
  trimmed : Text.Trimmed name.toList
  undivided : '/' ∉ name.toList
  undotted : '.' ∉ name.toList

structure Normal (place : Containment) : Prop where
  folders : ∀ folder ∈ place.folders, IsName folder ∧ ' ' ∉ folder.toList
  fileName : IsName place.fileName

/-- The path through the folders to the file. -/
def path (place : Containment) : String := "/".intercalate (place.folders ++ [place.fileName])

namespace IsName

variable {name : String} (isName : IsName name)
include isName

theorem not_onlyBlanks : ¬ Text.OnlyBlanks name.toList := by
  rw [← Text.trim_eq_nil_iff, isName.trimmed.trim_eq, String.toList_eq_nil_iff]
  exact isName.filled

theorem not_dropped : ¬ Dropped name := not_or.mpr ⟨isName.not_onlyBlanks, isName.undotted⟩

theorem beforeDot_eq : beforeDot name = name.toList := by
  refine List.takeWhile_eq_self_iff.mpr fun c member => ?_
  exact decide_eq_true fun dot => isName.undotted (dot ▸ member)

theorem stem_eq : String.ofList (stem name.toList) = name := by
  have whole : stem name.toList = Text.trim (beforeDot name) := rfl
  rw [whole, isName.beforeDot_eq, isName.trimmed.trim_eq, String.ofList_toList]

theorem folderName_eq (solid : ' ' ∉ name.toList) :
    String.ofList (folderName name.toList) = name := by
  have kept : name.toList.filter (· ≠ ' ') = name.toList :=
    List.filter_eq_self.mpr fun c member => decide_eq_true fun space => solid (space ▸ member)
  rw [folderName, isName.trimmed.trim_eq, kept, String.ofList_toList]

end IsName

theorem Normal.divides {place : Containment} (normal : place.Normal) :
    Divides place.path place.folders place.fileName := by
  refine ⟨rfl, fun component member => ?_⟩
  rcases List.mem_append.mp member with folder | file
  · exact (normal.folders component folder).1.undivided
  · rw [List.mem_singleton.mp file]
    exact normal.fileName.undivided

theorem Normal.ofPath_path {place : Containment} (normal : place.Normal) :
    ofPath place.path = .ok place := by
  have named : ¬ Text.OnlyBlanks (beforeDot place.fileName) := by
    rw [normal.fileName.beforeDot_eq]
    exact normal.fileName.not_onlyBlanks
  have kept : place.folders.filter (fun folder => ¬ Dropped folder) = place.folders :=
    List.filter_eq_self.mpr fun folder member =>
      decide_eq_true (normal.folders folder member).1.not_dropped
  have names : ∀ folder ∈ place.folders, String.ofList (folderName folder.toList) = folder := by
    intro folder member
    obtain ⟨isName, solid⟩ := normal.folders folder member
    exact isName.folderName_eq solid
  rw [normal.divides.ofPath_eq, if_neg named, ofComponents, kept, normal.fileName.stem_eq,
    List.map_congr_left names, List.map_id']

/-! ## Reading gives normal forms -/

theorem isName_ofList {chars component : List Char} (trimmed : Text.Trimmed chars)
    (filled : chars ≠ []) (within : chars ⊆ component) (undivided : '/' ∉ component)
    (undotted : '.' ∉ component) : IsName (String.ofList chars) := by
  constructor
  case filled => exact fun empty => filled (String.ofList_eq_empty_iff.mp empty)
  all_goals rw [String.toList_ofList]
  case trimmed => exact trimmed
  case undivided => exact fun slash => undivided (within slash)
  case undotted => exact fun dot => undotted (within dot)

section Components

variable {component : String} (undivided : '/' ∉ component.toList)
include undivided

theorem isName_stem (named : ¬ Text.OnlyBlanks (beforeDot component)) :
    IsName (String.ofList (stem component.toList)) := by
  refine isName_ofList (Text.trimsTo_trim _).trimmed (mt (stem_eq_nil_iff component).mp named)
    (Text.trim_subset _) ?_ ?_
  · exact fun slash => undivided (List.takeWhile_subset _ slash)
  · intro dot
    have other := List.mem_takeWhile_imp dot
    exact of_decide_eq_true other rfl

/-- No blank of the inside comes to an end of the folder, as the ends of the trimmed name stay. -/
theorem isName_folderName (kept : ¬ Dropped component) :
    IsName (String.ofList (folderName component.toList)) := by
  have trimmed := (Text.trimsTo_trim component.toList).trimmed
  have keepsText : ∀ c, Text.isBlank c = false → decide (c ≠ ' ') := by
    intro c text
    refine decide_eq_true ?_
    rintro rfl
    cases text
  obtain ⟨head, last⟩ : (folderName component.toList).head? = (Text.trim component.toList).head? ∧
      (folderName component.toList).getLast? = (Text.trim component.toList).getLast? :=
    trimmed.ends_filter keepsText
  refine isName_ofList ⟨head ▸ trimmed.front, last ▸ trimmed.back⟩ ?_ ?_ undivided
    (fun dot => kept (Or.inr dot))
  · intro empty
    rw [empty] at head
    exact kept (Or.inl (Text.trim_eq_nil_iff.mp (List.head?_eq_none_iff.mp head.symm)))
  · exact List.Subset.trans (List.filter_subset_self _) (Text.trim_subset _)

end Components

theorem space_notMem_folderName (component : List Char) : ' ' ∉ folderName component := by
  intro space
  exact of_decide_eq_true (List.mem_filter.mp space).2 rfl

theorem Divides.normal_ofComponents {path last : String} {directories : List String}
    (divides : Divides path directories last) (named : ¬ Text.OnlyBlanks (beforeDot last)) :
    (ofComponents directories last).Normal := by
  refine ⟨?_, isName_stem (divides.undivided last (by simp)) named⟩
  intro folder member
  obtain ⟨directory, listed, rfl⟩ := List.mem_map.mp member
  obtain ⟨inside, kept⟩ := List.mem_filter.mp listed
  refine ⟨?_, ?_⟩
  · exact isName_folderName (divides.undivided directory (List.mem_append_left _ inside))
      (of_decide_eq_true kept)
  · rw [String.toList_ofList]
    exact space_notMem_folderName directory.toList

/-- The folder is named like the directory, but trimmed and without U+0020. -/
def FolderOf (directory folder : String) : Prop :=
  ∃ inner, Text.TrimsTo directory.toList inner ∧
    folder = String.ofList (inner.filter (· ≠ ' '))

/-- The folders are the directories that are not dropped, in their order, and the file is named by
the last component up to its first dot. -/
structure ReadFrom (place : Containment) (directories : List String) (last : String) : Prop where
  folders : List.Forall₂ FolderOf (directories.filter fun directory => ¬ Dropped directory)
    place.folders
  fileName : Text.TrimsTo (beforeDot last) place.fileName.toList

theorem readFrom_ofComponents (directories : List String) (last : String) :
    (ofComponents directories last).ReadFrom directories last := by
  constructor
  case folders =>
    refine List.forall₂_map_right_iff.mpr (List.forall₂_same.mpr fun directory _ => ?_)
    exact ⟨_, Text.trimsTo_trim directory.toList, rfl⟩
  case fileName =>
    rw [ofComponents, String.toList_ofList]
    exact Text.trimsTo_trim (beforeDot last)

/-- The directories and the last component of a path decide whether it has a containment.  If there
is one, it is in normal form, and the path that joins its names has the same containment. -/
theorem containments_are_normal_forms (path : String) :
    ∃ directories last, Divides path directories last ∧
      (ofPath path = .error (.invalidPath (.noFileName path)) ↔
        Text.OnlyBlanks (beforeDot last)) ∧
      (¬ Text.OnlyBlanks (beforeDot last) →
        ∃ place, ofPath path = .ok place ∧ place.ReadFrom directories last ∧ place.Normal ∧
          ofPath place.path = .ok place) := by
  obtain ⟨directories, last, divides⟩ := exists_divides path
  have read := divides.ofPath_eq
  refine ⟨directories, last, divides, ?_, ?_⟩
  · rw [read]
    split <;> simp [*]
  · intro named
    rw [if_neg named] at read
    have normal := divides.normal_ofComponents named
    exact ⟨_, read, readFrom_ofComponents directories last, normal, normal.ofPath_path⟩

-- Inside of a folder name other blanks stay, here U+00A0; a file name keeps U+0020, too.
example : ofPath " lib /\t/a\u00a0 b/.git// main v2.test.js" =
    .ok ⟨["lib", "a\u00a0b"], "main v2"⟩ := by
  decide

end Containment
end ScopeGraph
