import ScopeGraph.Proofs.Files.Below
import ScopeGraph.Run.Pipeline

/-!
# Recorded paths identify files

Walks add names that stand between slashes and are neither `.` nor `..`, so the location of a
canonical path has no others.  A path made of such names has them as its parts, and starts with a
slash only if it was put there.  So a recorded path tells whether it is relative to the base
directory, and which names lead on from there.
-/
set_option autoImplicit false

namespace ScopeGraph

namespace Files

/-! ## The names of canonical paths -/

/-- A text that can be a component of a canonical path. -/
structure IsComponent (name : String) : Prop where
  filled : name ≠ ""
  undivided : '/' ∉ name.toList
  leads : name ≠ "." ∧ name ≠ ".."

/-- If the name is a text, it can be a component of a canonical path. -/
def Name.Proper : Name → Prop
  | .text content => IsComponent content
  | .raw _ => True

/-- Every name that the step goes down by is proper. -/
def Step.Proper (step : Step) : Prop := ∀ name, step = .down name → name.Proper

theorem Step.proper_ofName {part : String} (filled : part ≠ "") (undivided : '/' ∉ part.toList) :
    (Step.ofName (.text part)).Proper := by
  intro name down
  rw [Step.ofName] at down
  split at down
  · cases down
  · next dot =>
      split at down
      · cases down
      · next dots =>
          cases down
          have noDot : part ≠ "." := fun same => dot (congrArg Name.text same)
          have noDots : part ≠ ".." := fun same => dots (congrArg Name.text same)
          exact ⟨filled, undivided, noDot, noDots⟩

theorem Path.proper_of_mem_steps {path : String} {step : Step} (member : step ∈ Path.steps path) :
    step.Proper := by
  have ofPart : ∀ step ∈ (Path.parts path).map Path.stepOf, step.Proper := by
    intro step inside
    obtain ⟨part, listed, rfl⟩ := List.mem_map.mp inside
    exact Step.proper_ofName (Path.mem_parts.mp listed).2 (Path.notMem_of_mem_parts listed)
  rcases Path.steps_cases path with plain | ⟨_, closed⟩
  · rw [plain] at member
    exact ofPart step member
  · rw [closed] at member
    rcases List.mem_append.mp member with inside | last
    · exact ofPart step inside
    · rw [List.mem_singleton.mp last]
      nofun

namespace Tree

variable (tree : Tree) (creating : Bool)

/-- A leg that steps down by proper names only keeps the names of its location proper. -/
theorem leg_proper {steps : List Step} (down : ∀ step ∈ steps, step.Proper) {location : Location}
    (proper : ∀ name ∈ location, name.Proper) :
    match tree.leg creating location steps with
    | .arrived place => ∀ name ∈ place.location, name.Proper
    | .refused _ => True
    | .link directory _ rest =>
      (∀ name ∈ directory, name.Proper) ∧ ∀ step ∈ rest, step.Proper := by
  induction steps generalizing location with
  | nil => exact proper
  | cons step rest ih =>
      obtain ⟨first, others⟩ := List.forall_mem_cons.mp down
      cases step with
      | stay => exact ih others proper
      | slash => exact ih others proper
      | up =>
          refine ih others ?_
          intro name member
          exact proper name (List.dropLast_subset location member)
      | down name =>
          have longer : ∀ other ∈ location ++ [name], other.Proper := by
            intro other member
            rcases List.mem_append.mp member with inside | last
            · exact proper other inside
            · rw [List.mem_singleton.mp last]
              exact first name rfl
          have next := ih others longer
          have becomes := tree.leg_down creating location name rest
          generalize tree.leg creating location (.down name :: rest) = result at becomes ⊢
          cases becomes with
          | refused refusal => trivial
          | directory short found => exact next
          | link short target found => exact ⟨proper, others⟩
          | file short last body found => exact longer
          | vacant short last found => exact longer

variable {tree creating}

theorem walk_proper {steps : List Step} (down : ∀ step ∈ steps, step.Proper) {location : Location}
    (proper : ∀ name ∈ location, name.Proper) {budget : Nat} {place : Place}
    (arrives : tree.walk creating budget location steps = .ok place) :
    ∀ name ∈ place.location, name.Proper := by
  induction budget using Nat.strongRecOn generalizing location steps with
  | ind budget ih =>
      have leg := tree.leg_proper creating down proper
      rw [walk.eq_def] at arrives
      cases ends : tree.leg creating location steps with
      | arrived found =>
          rw [ends] at arrives leg
          cases arrives
          exact leg
      | refused refusal =>
          rw [ends] at arrives
          cases arrives
      | link directory target rest =>
          rw [ends] at arrives leg
          cases budget with
          | zero => cases arrives
          | succ left =>
              refine ih left (Nat.lt_succ_self left) ?_ ?_ arrives
              · intro step member
                rcases List.mem_append.mp member with ofTarget | ofRest
                · exact Path.proper_of_mem_steps ofTarget
                · exact leg.2 step ofRest
              · intro name member
                rw [startOf] at member
                split at member
                · cases member
                · exact leg.1 name member

/-- The location of a canonical path has proper names only. -/
theorem canonical_proper {path : String} {location : Location}
    (here : ∀ name ∈ tree.here, name.Proper) (found : tree.canonical path = .ok location) :
    ∀ name ∈ location, name.Proper := by
  rw [canonical] at found
  split at found
  · cases found
  · split at found
    · next place item arrives =>
        cases found
        refine walk_proper (fun step => Path.proper_of_mem_steps) ?_ arrives
        intro name member
        rw [startOf] at member
        split at member
        · cases member
        · exact here name member
    · cases found
    · cases found

end Tree

/-! ## Paths made of names -/

namespace Path

variable {names : List String}

theorem parts_intercalate (components : ∀ name ∈ names, IsComponent name) :
    parts ("/".intercalate names) = names := by
  induction names with
  | nil => rfl
  | cons name rest ih =>
      obtain ⟨first, others⟩ := List.forall_mem_cons.mp components
      have single := parts_of_notMem first.undivided first.filled
      cases rest with
      | nil => rwa [String.intercalate_singleton]
      | cons next rest =>
          have divided : ("/".intercalate (name :: next :: rest)).toList =
              name.toList ++ '/' :: ("/".intercalate (next :: rest)).toList := by
            rw [String.intercalate_cons_cons]
            simp
          rw [parts_append_slash divided, String.ofList_toList, String.ofList_toList, single,
            ih others, List.singleton_append]

theorem isAbsolute_intercalate (components : ∀ name ∈ names, IsComponent name) :
    isAbsolute ("/".intercalate names) = false := by
  cases names with
  | nil => rfl
  | cons name rest =>
      obtain ⟨first, _⟩ := List.forall_mem_cons.mp components
      have chars : name.toList ≠ [] := fun empty =>
        first.filled (String.toList_eq_nil_iff.mp empty)
      have begun := String.intercalate_cons_append (s := "/") (t := name) (u := "") (l := rest)
      rw [String.append_empty] at begun
      rw [isAbsolute, begun, String.toList_append, List.head?_append,
        List.head?_eq_some_head chars, Option.some_or, ← List.head?_eq_some_head chars]
      exact decide_eq_false fun head => first.undivided (List.mem_of_mem_head? head)

theorem endsInSlash_append_intercalate (components : ∀ name ∈ names, IsComponent name)
    (named : names ≠ []) (front : String) :
    endsInSlash (front ++ "/".intercalate names) = false := by
  induction names generalizing front with
  | nil => exact absurd rfl named
  | cons name rest ih =>
      obtain ⟨first, others⟩ := List.forall_mem_cons.mp components
      by_cases last : rest = []
      · have chars : name.toList ≠ [] := fun empty =>
          first.filled (String.toList_eq_nil_iff.mp empty)
        rw [last, String.intercalate_singleton, endsInSlash, String.toList_append,
          List.getLast?_append, List.getLast?_eq_some_getLast chars, Option.some_or,
          ← List.getLast?_eq_some_getLast chars]
        exact decide_eq_false fun ends => first.undivided (List.mem_of_getLast? ends)
      · rw [String.intercalate_cons_of_ne_nil last, ← String.append_assoc]
        exact ih others last _

theorem components_congr {path other : String} (parts_eq : parts path = parts other)
    (absolute : isAbsolute path = isAbsolute other) : components path = components other := by
  rw [components, components, parts_eq, absolute]

end Path
end Files

open Files (IsComponent Location Name Path.components Path.isAbsolute Path.join Path.parts Tree)

section Names

variable {names : List String} (components : ∀ name ∈ names, IsComponent name)

theorem map_shown_text (names : List String) : (names.map Name.text).map Name.shown = names := by
  rw [List.map_map]
  exact List.map_id' names

theorem relativePath_text (names : List String) :
    relativePath (names.map .text) = "/".intercalate names := by
  rw [relativePath, map_shown_text]

include components

theorem parts_relativePath : Path.parts (relativePath (names.map .text)) = names := by
  rw [relativePath_text]
  exact Files.Path.parts_intercalate components

theorem isAbsolute_relativePath :
    Path.isAbsolute (relativePath (names.map .text)) = false := by
  rw [relativePath_text]
  exact Files.Path.isAbsolute_intercalate components

theorem parts_absolutePath : Path.parts (absolutePath (names.map .text)) = names := by
  have slash : (absolutePath (names.map .text)).toList =
      [] ++ '/' :: (relativePath (names.map .text)).toList := by
    rw [absolutePath, String.toList_append]
    rfl
  rw [Files.Path.parts_append_slash slash, String.ofList_toList, parts_relativePath components]
  rfl

end Names

theorem isAbsolute_absolutePath (location : Location) :
    Path.isAbsolute (absolutePath location) = true := by
  rw [absolutePath, Files.Path.isAbsolute, String.toList_append]
  rfl

/-! ## Below the base directory -/

theorem below?_eq_some_iff (base location rest : Location) :
    below? base location = some rest ↔ location = base ++ rest := by
  fun_induction below? base location with
  | case1 location => rw [Option.some.injEq, List.nil_append]
  | case2 name directory => simp
  | case3 name directory rest' ih => rw [ih, List.cons_append, List.cons.injEq, and_iff_right rfl]
  | case4 name directory first rest' differ =>
      have other : first ≠ name := Ne.symm differ
      simp [other]

/-- A recorded path is either made of what follows the base directory or is the path from the
root. -/
theorem recordedPath_cases (base? : Option Location) (location : Location) :
    (∃ base rest, base? = some base ∧ location = base ++ rest ∧
        recordedPath base? location = relativePath rest) ∨
      (∀ base, base? = some base → ¬ base <+: location) ∧
        recordedPath base? location = absolutePath location := by
  rw [recordedPath]
  cases found : base?.bind fun base => below? base location with
  | some rest =>
      obtain ⟨base, set, below⟩ := Option.bind_eq_some_iff.mp found
      exact Or.inl ⟨base, rest, set, (below?_eq_some_iff base location rest).mp below, rfl⟩
  | none =>
      refine Or.inr ⟨?_, rfl⟩
      rintro base rfl ⟨rest, same⟩
      rw [Option.bind_some, (below?_eq_some_iff base location rest).mpr same.symm] at found
      cases found

/-- What the path recorded for the file at a location says about it. -/
structure Records (base? : Option Location) (location : Location) (recorded : String) : Prop where
  /-- It is relative exactly if the base directory leads to the file, name by name. -/
  relative_iff : Path.isAbsolute recorded = false ↔
    ∃ base, base? = some base ∧ base <+: location
  /-- Behind the base directory it is the path of the file.  The base directory itself is recorded
  as the empty path, and joining that only adds a slash. -/
  rejoined : ∀ base, base? = some base → base <+: location →
    Path.components (Path.join (absolutePath base) recorded) =
        Path.components (absolutePath location) ∧
      (location ≠ base → Path.join (absolutePath base) recorded = absolutePath location)
  otherwise : (∀ base, base? = some base → ¬ base <+: location) →
    recorded = absolutePath location

section Texts

variable {names : List String} (components : ∀ name ∈ names, IsComponent name)
include components

theorem join_relativePath {front rest : List String} (parts : names = front ++ rest)
    (filled : rest ≠ []) :
    Path.join (absolutePath (front.map .text)) (relativePath (rest.map .text)) =
      absolutePath (names.map .text) := by
  subst parts
  have relative := isAbsolute_relativePath fun name member =>
    components name (List.mem_append_right front member)
  rw [Files.Path.join, relative, if_neg Bool.false_ne_true]
  by_cases fromRoot : front = []
  · subst fromRoot
    rfl
  · have unclosed := of_decide_eq_false (Files.Path.endsInSlash_append_intercalate
      (fun name member => components name (List.mem_append_left rest member)) fromRoot "/")
    have begun : absolutePath (front.map .text) = "/" ++ "/".intercalate front := by
      rw [absolutePath, relativePath_text]
    have filledFront : absolutePath (front.map .text) ≠ "" := by
      intro empty
      have absolute := isAbsolute_absolutePath (front.map .text)
      rw [empty] at absolute
      cases absolute
    rw [if_neg (by rw [not_or, begun]; exact ⟨begun ▸ filledFront, unclosed⟩), absolutePath,
      absolutePath, relativePath_text, relativePath_text, relativePath_text,
      String.intercalate_append_of_ne_nil fromRoot filled]
    simp only [String.append_assoc]

theorem components_join_relativePath {front rest : List String} (parts : names = front ++ rest) :
    Path.components (Path.join (absolutePath (front.map .text)) (relativePath (rest.map .text))) =
      Path.components (absolutePath (names.map .text)) := by
  have inFront : ∀ name ∈ front, IsComponent name := fun name member =>
    components name (parts ▸ List.mem_append_left rest member)
  have inRest : ∀ name ∈ rest, IsComponent name := fun name member =>
    components name (parts ▸ List.mem_append_right front member)
  have relative := isAbsolute_relativePath inRest
  refine Files.Path.components_congr ?_ ?_
  · rw [Files.Path.parts_join relative, parts_absolutePath inFront, parts_relativePath inRest,
      parts_absolutePath components, parts]
  · rw [Files.Path.isAbsolute_join relative, isAbsolute_absolutePath, isAbsolute_absolutePath]

theorem records_recordedPath (base? : Option Location) :
    Records base? (names.map .text) (recordedPath base? (names.map .text)) := by
  rcases recordedPath_cases base? (names.map .text) with
    ⟨base, rest, set, parts, recorded⟩ | ⟨outside, recorded⟩
  · obtain ⟨front, back, namesParts, rfl, rfl⟩ := List.map_eq_append_iff.mp parts
    have relative := isAbsolute_relativePath fun name member =>
      components name (namesParts ▸ List.mem_append_right front member)
    have within : front.map Name.text <+: names.map Name.text := ⟨_, parts.symm⟩
    rw [recorded]
    constructor
    case relative_iff => exact iff_of_true relative ⟨_, set, within⟩
    case rejoined =>
      intro other otherSet _
      cases Option.some.inj (set.symm.trans otherSet)
      refine ⟨components_join_relativePath components namesParts, fun differs => ?_⟩
      refine join_relativePath components namesParts fun empty => differs ?_
      rw [parts, empty, List.map_nil, List.append_nil]
    case otherwise => exact fun outside => absurd within (outside _ set)
  · rw [recorded]
    constructor
    case relative_iff =>
      refine iff_of_false ?_ fun ⟨base, set, within⟩ => outside base set within
      rw [isAbsolute_absolutePath]
      exact Bool.noConfusion
    case rejoined => exact fun base set within => absurd within (outside base set)
    case otherwise => exact fun _ => rfl

theorem names_absolutePath : Files.Path.names (absolutePath (names.map .text)) = names := by
  have staying : names.filter (· ≠ ".") = names :=
    List.filter_eq_self.mpr fun name member => by simpa using (components name member).leads.1
  have normal : names.map Files.Component.ofName = names.map Files.Component.normal :=
    List.map_congr_left fun name member => if_neg (components name member).leads.2
  rw [Files.Path.names, Files.Path.components, if_pos (isAbsolute_absolutePath _),
    parts_absolutePath components, staying, normal]
  exact List.filterMap_map.trans List.filterMap_some

/-- The base directory and a recorded path give the file back, so it is the only one recorded by
that path. -/
theorem Records.names_eq {others : List String}
    (otherComponents : ∀ name ∈ others, IsComponent name) {base? : Option Location}
    {recorded : String} (first : Records base? (names.map .text) recorded)
    (second : Records base? (others.map .text) recorded) : names = others := by
  have samePath : Path.components (absolutePath (names.map .text)) =
      Path.components (absolutePath (others.map .text)) := by
    by_cases relative : Path.isAbsolute recorded = false
    · obtain ⟨base, set, within⟩ := first.relative_iff.mp relative
      obtain ⟨base', set', otherWithin⟩ := second.relative_iff.mp relative
      cases Option.some.inj (set.symm.trans set')
      rw [← (first.rejoined base set within).1, (second.rejoined base set otherWithin).1]
    · have outside := mt first.relative_iff.mpr relative
      have otherOutside := mt second.relative_iff.mpr relative
      rw [← first.otherwise fun base set within => outside ⟨base, set, within⟩,
        ← second.otherwise fun base set within => otherOutside ⟨base, set, within⟩]
  rw [← names_absolutePath components, ← names_absolutePath otherComponents, Files.Path.names,
    Files.Path.names, samePath]

end Texts

theorem Files.Tree.components_of_canonical {tree : Tree} {path : String} {names : List String}
    (here : ∀ name ∈ tree.here, name.Proper) (found : tree.canonical path = .ok (names.map .text)) :
    ∀ name ∈ names, IsComponent name :=
  fun _ member => canonical_proper here found _ (List.mem_map_of_mem member)

/-- Under one base directory a file whose canonical path is text has a recorded path.  It is
relative exactly below that directory and leads back to the file, and no other such file is recorded
by it, even if the file tree has changed in between. -/
theorem recorded_paths_identify_files (pipeline : Pipeline) {tree : Tree} {input : String}
    {names : List String} (here : ∀ name ∈ tree.here, name.Proper)
    (found : tree.canonical input = .ok (names.map .text)) :
    ∃ recorded, pipeline.sourcePath tree input = .ok recorded ∧
      Records pipeline.base? (names.map .text) recorded ∧
      ∀ (later : Tree) (other : String) (others : List String),
        (∀ name ∈ later.here, name.Proper) → later.canonical other = .ok (others.map .text) →
        pipeline.sourcePath later other = .ok recorded → others = names := by
  have components := Files.Tree.components_of_canonical here found
  have first := records_recordedPath components pipeline.base?
  refine ⟨_, by rw [Pipeline.sourcePath, found], first, ?_⟩
  intro later other others otherHere otherFound same
  have otherComponents := Files.Tree.components_of_canonical otherHere otherFound
  have second := records_recordedPath otherComponents pipeline.base?
  rw [Pipeline.sourcePath, otherFound] at same
  rw [Except.ok.inj same] at second
  exact (first.names_eq components otherComponents second).symm

/-- Next to the directory `/srv/app` there is one whose name starts with the same letters. -/
def neighbours : Tree where
  here := [.text "srv"]
  items :=
    [([.text "srv"], .directory),
      ([.text "srv", .text "app"], .directory),
      ([.text "srv", .text "app", .text "é.js"], .file (.text "")),
      ([.text "srv", .text "apple"], .directory),
      ([.text "srv", .text "apple", .text "é.js"], .file (.text ""))]

theorem neighbours_are_told_apart :
    ∃ pipeline, Pipeline.ofConfig { Config.standard with baseDir? := some "app" } neighbours =
        .ok pipeline ∧
      pipeline.sourcePath neighbours "app/é.js" = .ok "é.js" ∧
      Path.join "/srv/app" "é.js" = "/srv/app/é.js" ∧
      pipeline.sourcePath neighbours "apple/é.js" = .ok "/srv/apple/é.js" ∧
      Records (some [.text "srv", .text "app"]) [.text "srv", .text "apple", .text "é.js"]
        "/srv/apple/é.js" := by
  let pipeline : Pipeline := ⟨true, ⟨"output"⟩, some [.text "srv", .text "app"]⟩
  have built : Pipeline.ofConfig { Config.standard with baseDir? := some "app" } neighbours =
      .ok pipeline := rfl
  have below : pipeline.sourcePath neighbours "app/é.js" = .ok "é.js" := rfl
  have here : ∀ name ∈ neighbours.here, name.Proper := by
    intro name member
    rw [List.mem_singleton.mp member]
    exact ⟨by decide, by decide, by decide⟩
  have found : neighbours.canonical "apple/é.js" = .ok (["srv", "apple", "é.js"].map .text) := rfl
  obtain ⟨recorded, beside, records, _⟩ := recorded_paths_identify_files pipeline here found
  have path : pipeline.sourcePath neighbours "apple/é.js" = .ok "/srv/apple/é.js" := rfl
  rw [path] at beside
  cases beside
  exact ⟨pipeline, built, below, rfl, path, records⟩

end ScopeGraph
