import ScopeGraph.Proofs.Run.Writes
import ScopeGraph.Scope.Extract

/-!
# Artifacts and the output root

The path of an artifact begins with the output root.  Behind it there are names only, unless the
qualified name of the declaration climbs; then the artifact can lie anywhere.
-/
set_option autoImplicit false

namespace ScopeGraph

open Files Files.Tree

namespace Layout

variable (layout : Layout)

/-- The path of an artifact is the root with more components behind it.  None of them is the root
of the file system, and all of them are names exactly if the qualified name does not climb.  Where
none does and no link lies below the directory of the root, writing the artifacts of a scope
creates and changes files below that directory only. -/
theorem artifacts_stay_below_root :
    (∀ (sourcePath qualifiedName : String) (kind : ArtifactKind), ∃ rest,
      Path.moves (layout.locator sourcePath qualifiedName kind) = Path.moves layout.root ++ rest ∧
        rest ≠ [] ∧ .root ∉ rest ∧
        ((∀ component ∈ rest, ∃ name, component = .normal name) ↔
          ¬ Climbs sourcePath qualifiedName)) ∧
      ∀ (scope : Scope) (tree : Tree),
        let final := (layout.writeAll scope tree).2
        (∀ entry ∈ scope.entries, ¬ Climbs scope.sourcePath entry.qualifiedName) →
        (∀ directory, final.Leads layout.root directory → tree.DirectBelow directory) →
        ∀ (location : Location) (body : Body), final.item? location = some (.file body) →
          tree.item? location = some (.file body) ∨
            ∃ directory names, final.Leads layout.root directory ∧ names ≠ [] ∧
              location = directory ++ names := by
  constructor
  · intro sourcePath qualifiedName kind
    refine ⟨_, moves_locator layout sourcePath qualifiedName kind, ?_, ?_, ?_⟩
    · rw [ne_eq, List.map_eq_nil_iff]
      exact below_named sourcePath qualifiedName kind
    · exact root_notMem_components _
    · rw [components_normal_iff, parent_mem_below]
  · intro scope tree final level direct location body holds
    simp only [final, writeAll_eq] at direct holds ⊢
    rcases ArtifactReport.file_after_writeFiles (.none, tree) holds with
      before | ⟨file, member, _, reached⟩
    · exact Or.inl before
    · obtain ⟨more, below⟩ := below_of_mem_files level member
      obtain ⟨directory, leads, located⟩ := reached.below below
      refine Or.inr ⟨directory, _, leads, ?_, located (direct directory leads)⟩
      rw [ne_eq, List.map_eq_nil_iff]
      exact below.named

end Layout

/-- A class with a doc comment and a method whose key holds a slash. -/
def slashedKey : Scope where
  sourcePath := "app.js"
  functions := []
  classes := [("A", ⟨.classDecl, "A", "app.js", "class A \x7b 'a/b'() \x7b\x7d \x7d",
    some "/** A. */", 1, 1,
    [("'a/b'", ⟨.method, "'a/b'", "app.js", "'a/b'() \x7b\x7d", none, 1, 1, [], []⟩)], []⟩)]
  exports := []

theorem directBelow_of_no_items (here directory : Location) :
    (Tree.mk here []).DirectBelow directory := by
  intro rest target below found
  cases location : directory ++ rest with
  | nil =>
      rw [location] at found
      cases found
  | cons name others =>
      rw [location] at found
      cases found

theorem artifacts_of_slashedKey_stay_below_root :
    let final := (Layout.writeAll ⟨"out"⟩ slashedKey ⟨[], []⟩).2
    let location : Location := [.text "out", .text "app.js.A.'a", .text "b'.js"]
    final.item? location = some (.file (.text "'a/b'() \x7b\x7d")) ∧
      ∃ directory names, final.Leads "out" directory ∧ names ≠ [] ∧
        location = directory ++ names := by
  intro final location
  have written : final.item? location = some (.file (.text "'a/b'() \x7b\x7d")) := by decide +kernel
  have stays := (Layout.artifacts_stay_below_root ⟨"out"⟩).2 slashedKey ⟨[], []⟩ (by decide +kernel)
    (fun directory _ => directBelow_of_no_items [] directory) location _ written
  exact ⟨written, stays.resolve_left nofun⟩

/-- A class with the method `'/../../aside/b'`. -/
def climbingKey : Source where
  path := "app.js"
  text := "class A \x7b '/../../aside/b'() \x7b\x7d \x7d"
  root :=
    ⟨.other "program", none, ⟨0, 33⟩, true, false, false,
      [⟨.classDeclaration, none, ⟨0, 33⟩, true, false, false,
        [⟨.identifier, some .name, ⟨6, 7⟩, true, false, false, []⟩,
          ⟨.other "class_body", some .body, ⟨8, 33⟩, true, false, false,
            [⟨.methodDefinition, none, ⟨10, 31⟩, true, false, false,
              [⟨.other "string", some .name, ⟨10, 26⟩, true, false, false,
                  [⟨.other "string_fragment", none, ⟨11, 25⟩, true, false, false, []⟩]⟩,
                ⟨.other "formal_parameters", none, ⟨26, 28⟩, true, false, false, []⟩,
                ⟨.other "statement_block", some .body, ⟨29, 31⟩, true, false, false,
                  []⟩]⟩]⟩]⟩]⟩
  comments := []

theorem artifact_of_climbingKey_leaves_root :
    let scope := (climbingKey.scope .zero).1
    let tree : Tree := ⟨[], [([.text "out"], .directory),
      ([.text "out", .text "app.js.A.'"], .directory), ([.text "aside"], .directory)]⟩
    (∃ entry ∈ scope.entries, .parent ∈
        Path.moves (Layout.locator ⟨"out"⟩ scope.sourcePath entry.qualifiedName .code)) ∧
      (Layout.writeAll ⟨"out"⟩ scope tree).2.item? [.text "aside", .text "b'.js"] =
        some (.file (.text "'/../../aside/b'() \x7b\x7d")) := by
  decide +kernel

end ScopeGraph
