import ScopeGraph.Artifact
import ScopeGraph.Proofs.Files.Path

/-!
# Where artifacts lie

The path of an artifact is the root with further parts behind it: the directories of the source
path and the parts of the file name, which has as many as the qualified name has slashes.  None of
them is `..` unless the qualified name holds one between two slashes, or begins with `./` while the
source path has no name at all.
-/
set_option autoImplicit false

namespace ScopeGraph

open Files

/-- What stands between two slashes of a text. -/
def Files.Path.between (text : String) : List String :=
  (Text.splitAt '/' text.toList).tail.dropLast.map String.ofList

namespace Layout

variable (layout : Layout) (sourcePath qualifiedName : String) (kind : ArtifactKind)

/-! ## The file name -/

theorem fileName_toList (base : String) :
    (fileName base qualifiedName kind).toList =
      base.toList ++ '.' :: (qualifiedName.toList ++ '.' :: kind.extension.toList) := by
  simp [fileName, toString, String.toList_append]

theorem extension_plain : '/' ∉ '.' :: kind.extension.toList := by cases kind <;> decide

theorem extension_length : 2 ≤ kind.extension.toList.length := by cases kind <;> decide

/-- The file name has the parts of the qualified name, with more text in front of the first one and
behind the last one. -/
theorem splitAt_fileName {base : String} (plain : '/' ∉ base.toList) :
    ('/' ∉ qualifiedName.toList ∧
        Text.splitAt '/' (fileName base qualifiedName kind).toList =
          [(fileName base qualifiedName kind).toList]) ∨
      ∃ first back inner last, qualifiedName.toList = first ++ '/' :: back ∧ '/' ∉ first ∧
        Text.splitAt '/' qualifiedName.toList = first :: (inner ++ [last]) ∧
        Text.splitAt '/' (fileName base qualifiedName kind).toList =
          (base.toList ++ '.' :: first) :: (inner ++ [last ++ '.' :: kind.extension.toList]) := by
  have ending := extension_plain kind
  by_cases member : '/' ∈ qualifiedName.toList
  · refine Or.inr ?_
    obtain ⟨first, back, split, firstPlain⟩ := List.eq_append_cons_of_mem member
    obtain ⟨inner, last, backSplit, longer⟩ := Text.splitAt_append_of_notMem back ending
    have frontPlain : '/' ∉ base.toList ++ '.' :: first := by simp [plain, firstPlain]
    have name : (fileName base qualifiedName kind).toList =
        (base.toList ++ '.' :: first) ++ '/' :: (back ++ '.' :: kind.extension.toList) := by
      simp [fileName_toList, split]
    refine ⟨first, back, inner, last, split, firstPlain, ?_, ?_⟩
    · rw [split, Text.splitAt_append_cons, Text.splitAt_of_notMem firstPlain, backSplit]
      rfl
    · rw [name, Text.splitAt_append_cons, Text.splitAt_of_notMem frontPlain, longer]
      rfl
  · refine Or.inl ⟨member, Text.splitAt_of_notMem ?_⟩
    rw [fileName_toList]
    simp [plain, member] at ending ⊢
    exact ending

/-! ## Parts below the root -/

/-- The name of the source file. -/
def base : String := (Path.names sourcePath).getLast?.getD ""

/-- The parts that a locator adds to those of the root. -/
def below : List String :=
  (Path.names sourcePath).dropLast ++
    Path.parts (fileName (base sourcePath) qualifiedName kind)

theorem base_cases :
    (Path.names sourcePath = [] ∧ base sourcePath = "") ∨
      base sourcePath ∈ Path.names sourcePath := by
  rw [base]
  cases last : (Path.names sourcePath).getLast? with
  | none => exact Or.inl ⟨List.getLast?_eq_none_iff.mp last, rfl⟩
  | some name => exact Or.inr (List.mem_of_getLast? last)

theorem plain_of_mem_names {sourcePath name : String} (member : name ∈ Path.names sourcePath) :
    '/' ∉ name.toList ∧ name ≠ "" := by
  have part := (Path.mem_names.mp member).1
  exact ⟨Path.notMem_of_mem_parts part, (Path.mem_parts.mp part).2⟩

theorem base_plain : '/' ∉ (base sourcePath).toList := by
  rcases base_cases sourcePath with ⟨_, empty⟩ | member
  · rw [empty]
    exact List.not_mem_nil
  · exact (plain_of_mem_names member).1

theorem base_ne_dot : base sourcePath ≠ "." := by
  rcases base_cases sourcePath with ⟨_, empty⟩ | member
  · rw [empty]
    decide
  · exact (Path.mem_names.mp member).2.1

theorem base_eq_empty_iff : base sourcePath = "" ↔ Path.names sourcePath = [] := by
  constructor
  · intro empty
    rcases base_cases sourcePath with ⟨none, _⟩ | member
    · exact none
    · exact absurd empty (plain_of_mem_names member).2
  · intro none
    rw [base, none]
    rfl

theorem isAbsolute_fileName :
    Path.isAbsolute (fileName (base sourcePath) qualifiedName kind) = false := by
  refine decide_eq_false ?_
  rw [fileName_toList]
  have plain := base_plain sourcePath
  cases chars : (base sourcePath).toList with
  | nil => simp
  | cons c rest =>
      rw [chars] at plain
      simp only [List.cons_append, List.head?_cons, Option.some.injEq]
      exact fun same => plain (same ▸ List.mem_cons_self)

section Locator

theorem plain_directories (name : String) (member : name ∈ (Path.names sourcePath).dropLast) :
    '/' ∉ name.toList ∧ name ≠ "" :=
  plain_of_mem_names (List.dropLast_subset _ member)

theorem locator_eq :
    layout.locator sourcePath qualifiedName kind =
      Path.join ((Path.names sourcePath).dropLast.foldl Path.join layout.root)
        (fileName (base sourcePath) qualifiedName kind) := rfl

theorem parts_locator :
    Path.parts (layout.locator sourcePath qualifiedName kind) =
      Path.parts layout.root ++ below sourcePath qualifiedName kind := by
  rw [locator_eq, Path.parts_join (isAbsolute_fileName sourcePath qualifiedName kind),
    Path.parts_foldl_join _ _ (plain_directories sourcePath), List.append_assoc]
  rfl

theorem isAbsolute_locator :
    Path.isAbsolute (layout.locator sourcePath qualifiedName kind) =
      Path.isAbsolute layout.root := by
  rw [locator_eq, Path.isAbsolute_join (isAbsolute_fileName sourcePath qualifiedName kind)]
  refine Path.isAbsolute_foldl_join _ _ fun name member => ?_
  exact (plain_directories sourcePath name member).1

theorem endsInSlash_locator :
    Path.endsInSlash (layout.locator sourcePath qualifiedName kind) = false := by
  have chars := fileName_toList qualifiedName kind (base sourcePath)
  have filled : fileName (base sourcePath) qualifiedName kind ≠ "" := by
    intro empty
    simp [empty] at chars
  rw [locator_eq, Path.endsInSlash_join (isAbsolute_fileName sourcePath qualifiedName kind) filled,
    Path.endsInSlash, chars]
  cases kind <;> simp [ArtifactKind.extension, List.getLast?_append, List.getLast?_cons]

/-- The qualified name leads an artifact up from a directory it would lie in. -/
def Climbs : Prop :=
  ".." ∈ Path.between qualifiedName ∨
    Path.names sourcePath = [] ∧ "./".toList <+: qualifiedName.toList

instance : Decidable (Climbs sourcePath qualifiedName) := inferInstanceAs (Decidable (_ ∨ _ ∧ _))

theorem dotSlash_prefix_iff {first back : List Char} (plain : '/' ∉ first) :
    "./".toList <+: first ++ '/' :: back ↔ first = ['.'] := by
  cases first with
  | nil => simp
  | cons c rest =>
      cases rest with
      | nil => simp [eq_comm]
      | cons d rest =>
          have other : '/' ≠ d := by
            intro same
            exact plain (same ▸ List.mem_cons_of_mem _ List.mem_cons_self)
          simp [other]

theorem dots_eq_front_iff {first : List Char} :
    "..".toList = (base sourcePath).toList ++ '.' :: first ↔
      Path.names sourcePath = [] ∧ first = ['.'] := by
  rw [← base_eq_empty_iff, ← String.toList_eq_nil_iff]
  cases chars : (base sourcePath).toList with
  | nil => simp [eq_comm]
  | cons c rest =>
      cases rest with
      | nil =>
          have other : '.' ≠ c := by
            rintro rfl
            exact base_ne_dot sourcePath (String.toList_injective chars)
          simp [other]
      | cons d rest => simp

theorem parent_mem_below :
    ".." ∈ below sourcePath qualifiedName kind ↔ Climbs sourcePath qualifiedName := by
  have directories : ".." ∉ (Path.names sourcePath).dropLast := by
    intro member
    exact (Path.mem_names.mp (List.dropLast_subset _ member)).2.2 rfl
  have length := extension_length kind
  have longer (front : List Char) : "..".toList ≠ front ++ '.' :: kind.extension.toList := by
    intro same
    have := congrArg List.length same
    simp at this
    omega
  rw [below, List.mem_append, or_iff_right directories, Path.mem_parts, and_iff_left (by decide),
    Climbs, Path.between, Path.mem_map_ofList]
  rcases splitAt_fileName qualifiedName kind (base_plain sourcePath) with
    ⟨plain, split⟩ | ⟨first, back, inner, last, whole, plain, nameSplit, split⟩
  · have noStart : ¬ "./".toList <+: qualifiedName.toList := by
      intro start
      exact plain (start.subset (by decide))
    have single := longer ((base sourcePath).toList ++ '.' :: qualifiedName.toList)
    rw [List.append_assoc, List.cons_append, ← fileName_toList] at single
    rw [split, List.mem_singleton, Text.splitAt_of_notMem plain]
    simp only [single, noStart, List.tail_cons, List.dropLast_nil, List.not_mem_nil, and_false,
      or_false]
  · rw [split, nameSplit, whole, dotSlash_prefix_iff plain, List.mem_cons, List.mem_append,
      List.mem_singleton, dots_eq_front_iff, List.tail_cons, List.dropLast_concat]
    simp only [longer, or_false]
    exact or_comm

theorem below_named : (below sourcePath qualifiedName kind).filter (· ≠ ".") ≠ [] := by
  have name : (fileName (base sourcePath) qualifiedName kind).toList =
      ((base sourcePath).toList ++ '.' :: qualifiedName.toList) ++
        '.' :: kind.extension.toList := by
    rw [fileName_toList, List.append_assoc, List.cons_append]
  obtain ⟨before, last, _, split⟩ := Text.splitAt_append_of_notMem
    ((base sourcePath).toList ++ '.' :: qualifiedName.toList) (extension_plain kind)
  have length := extension_length kind
  have longer (short : String) (small : short.toList.length ≤ 1) :
      String.ofList (last ++ '.' :: kind.extension.toList) ≠ short := by
    intro same
    rw [← same, String.toList_ofList, List.length_append, List.length_cons] at small
    omega
  have part : String.ofList (last ++ '.' :: kind.extension.toList) ∈
      Path.parts (fileName (base sourcePath) qualifiedName kind) := by
    rw [Path.mem_parts, name, split, String.toList_ofList]
    exact ⟨List.mem_append_right _ (List.mem_singleton_self _), longer "" (by decide)⟩
  refine List.ne_nil_of_mem (List.mem_filter.mpr ⟨List.mem_append_right _ part, ?_⟩)
  exact decide_eq_true (longer "." (by decide))

/-! ## Plain names -/

section Plain

variable {sourcePath qualifiedName}

theorem not_climbs_of_notMem (plain : '/' ∉ qualifiedName.toList) :
    ¬ Climbs sourcePath qualifiedName := by
  rintro (inner | ⟨_, start⟩)
  · rw [Path.between, Text.splitAt_of_notMem plain] at inner
    cases inner
  · exact plain (start.subset (by decide))

theorem filter_below_of_notMem (plain : '/' ∉ qualifiedName.toList) :
    (below sourcePath qualifiedName kind).filter (· ≠ ".") =
      (Path.names sourcePath).dropLast.filter (· ≠ ".") ++
        [fileName (base sourcePath) qualifiedName kind] := by
  have length := extension_length kind
  have chars := fileName_toList qualifiedName kind (base sourcePath)
  have longer (short : String) (small : short.toList.length ≤ 1) :
      fileName (base sourcePath) qualifiedName kind ≠ short := by
    intro same
    rw [← same, chars, List.length_append, List.length_cons, List.length_append,
      List.length_cons] at small
    omega
  have noSlash : '/' ∉ (fileName (base sourcePath) qualifiedName kind).toList := by
    have ending := extension_plain kind
    have start := base_plain sourcePath
    rw [chars]
    simp_all
  have kept : [fileName (base sourcePath) qualifiedName kind].filter (· ≠ ".") =
      [fileName (base sourcePath) qualifiedName kind] := by
    simp [longer "." (by decide)]
  rw [below, Path.parts_of_notMem noSlash (longer "" (by decide)), List.filter_append, kept]

theorem ending_inj {first second : List Char} {kind otherKind : ArtifactKind}
    (same : first ++ '.' :: kind.extension.toList = second ++ '.' :: otherKind.extension.toList) :
    first = second ∧ kind = otherKind := by
  have last := congrArg List.getLast? same
  have kinds : kind = otherKind := by
    cases kind <;> cases otherKind <;>
      simp [ArtifactKind.extension, List.getLast?_append, List.getLast?_cons] at last ⊢
  rw [kinds] at same
  exact ⟨List.append_cancel_right same, kinds⟩

theorem fileName_inj {base otherName : String} {otherKind : ArtifactKind}
    (same : fileName base qualifiedName kind = fileName base otherName otherKind) :
    qualifiedName = otherName ∧ kind = otherKind := by
  have chars := congrArg String.toList same
  rw [fileName_toList, fileName_toList] at chars
  obtain ⟨names, kinds⟩ := ending_inj (List.cons.inj (List.append_cancel_left chars)).2
  exact ⟨String.toList_injective names, kinds⟩

end Plain

/-! ## Different artifacts -/

/-- The text with slashes for backslashes. -/
def slashed (text : String) : String :=
  String.ofList (text.toList.map fun c => if c = '\\' then '/' else c)

theorem recordedLocator_eq_slashed :
    layout.recordedLocator sourcePath qualifiedName kind =
      slashed (layout.locator sourcePath qualifiedName kind) := rfl

theorem exists_front_of_locator :
    ∃ front : List Char, ∀ (qualifiedName : String) (kind : ArtifactKind),
      (layout.locator sourcePath qualifiedName kind).toList =
        front ++ '.' :: (qualifiedName.toList ++ '.' :: kind.extension.toList) := by
  obtain ⟨front, joined⟩ := Path.exists_front_of_join
    ((Path.names sourcePath).dropLast.foldl Path.join layout.root)
  refine ⟨front ++ (base sourcePath).toList, fun qualifiedName kind => ?_⟩
  rw [locator_eq, joined _ (isAbsolute_fileName sourcePath qualifiedName kind), fileName_toList,
    List.append_assoc]

theorem locator_eq_iff {first second : String} {kind otherKind : ArtifactKind} :
    layout.locator sourcePath first kind = layout.locator sourcePath second otherKind ↔
      first = second ∧ kind = otherKind := by
  obtain ⟨front, chars⟩ := exists_front_of_locator layout sourcePath
  constructor
  · intro same
    have texts := congrArg String.toList same
    rw [chars, chars] at texts
    obtain ⟨names, kinds⟩ := ending_inj (List.cons.inj (List.append_cancel_left texts)).2
    exact ⟨String.toList_injective names, kinds⟩
  · rintro ⟨rfl, rfl⟩
    rfl

theorem recordedLocator_eq_iff {first second : String} {kind otherKind : ArtifactKind} :
    layout.recordedLocator sourcePath first kind =
        layout.recordedLocator sourcePath second otherKind ↔
      slashed first = slashed second ∧ kind = otherKind := by
  obtain ⟨front, chars⟩ := exists_front_of_locator layout sourcePath
  have recorded (qualifiedName : String) (kind : ArtifactKind) :
      (layout.recordedLocator sourcePath qualifiedName kind).toList =
        (slashed (String.ofList front)).toList ++
          '.' :: ((slashed qualifiedName).toList ++ '.' :: kind.extension.toList) := by
    rw [recordedLocator_eq_slashed, slashed, chars]
    cases kind <;> simp [slashed, ArtifactKind.extension]
  constructor
  · intro same
    have texts := congrArg String.toList same
    rw [recorded, recorded] at texts
    obtain ⟨names, kinds⟩ := ending_inj (List.cons.inj (List.append_cancel_left texts)).2
    exact ⟨String.toList_injective names, kinds⟩
  · rintro ⟨names, rfl⟩
    apply String.toList_injective
    rw [recorded, recorded, names]

/-! ## Components -/

theorem root_notMem_components (parts : List String) :
    .root ∉ parts.map Component.ofName := by
  intro member
  obtain ⟨part, _, same⟩ := List.mem_map.mp member
  rw [Component.ofName] at same
  split at same <;> cases same

theorem components_normal_iff (parts : List String) :
    (∀ component ∈ (parts.filter (· ≠ ".")).map Component.ofName,
        ∃ name, component = .normal name) ↔ ".." ∉ parts := by
  constructor
  · intro normal member
    have kept : ".." ∈ parts.filter (· ≠ ".") := List.mem_filter.mpr ⟨member, rfl⟩
    obtain ⟨name, same⟩ := normal _ (List.mem_map_of_mem kept)
    cases same
  · intro level component member
    obtain ⟨part, kept, rfl⟩ := List.mem_map.mp member
    refine ⟨part, if_neg fun dots => level ?_⟩
    exact dots ▸ (List.mem_filter.mp kept).1

theorem moves_locator :
    Path.moves (layout.locator sourcePath qualifiedName kind) =
      Path.moves layout.root ++
        ((below sourcePath qualifiedName kind).filter (· ≠ ".")).map Component.ofName := by
  rw [Path.moves_eq, Path.moves_eq, isAbsolute_locator, parts_locator, List.filter_append,
    List.map_append, List.append_assoc]

end Locator

end Layout
end ScopeGraph
