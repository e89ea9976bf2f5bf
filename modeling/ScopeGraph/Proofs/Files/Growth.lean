import ScopeGraph.Proofs.Files.Walk

/-!
# Trees that grow

Making directories and writing files leaves directories and links as they are, and a file stays a
file.  What a walk has found in a tree it finds in the grown tree as well.
-/
set_option autoImplicit false

namespace ScopeGraph.Files
namespace Tree

/-! ## Putting an item -/

theorem find?_place (location : Location) (item : Item) (items : List (Location × Item))
    (other : Location) :
    (put.place location item items).find? (·.1 = other) =
      if other = location then some (location, item) else items.find? (·.1 = other) := by
  induction items with
  | nil => by_cases same : other = location <;> simp [put.place, same, Ne.symm]
  | cons entry rest ih =>
      rw [put.place]
      by_cases here : entry.1 = location
      · by_cases same : other = location <;> simp [here, same, Ne.symm]
      · by_cases same : entry.1 = other
        · have apart : other ≠ location := same ▸ here
          simp [same, apart]
        · simp [here, same, ih]

theorem item?_put (tree : Tree) {location : Location} (below : location ≠ []) (item : Item)
    (other : Location) :
    (tree.put location item).item? other =
      if other = location then some item else tree.item? other := by
  cases other with
  | nil => rw [if_neg (Ne.symm below), item?, item?]
  | cons name rest =>
      have lookup (tree : Tree) : tree.item? (name :: rest) =
          (tree.items.find? (·.1 = name :: rest)).map Prod.snd := rfl
      rw [lookup, lookup, put, find?_place]
      split <;> rfl

/-! ## Growth -/

/-- Directories and links are what they were, and files are still files. -/
structure Grows (tree grown : Tree) : Prop where
  here : grown.here = tree.here
  directory : ∀ location, tree.item? location = some .directory →
    grown.item? location = some .directory
  file : ∀ location body, tree.item? location = some (.file body) →
    ∃ later, grown.item? location = some (.file later)
  link : ∀ location target, grown.item? location = some (.link target) ↔
    tree.item? location = some (.link target)

/-- Directories came to places where there was nothing; all else is what it was. -/
structure AddsDirectories (tree grown : Tree) : Prop where
  here : grown.here = tree.here
  item : ∀ location, grown.item? location = tree.item? location ∨
    tree.item? location = none ∧ grown.item? location = some .directory

variable {tree grown last : Tree}

theorem Grows.refl (tree : Tree) : Grows tree tree :=
  ⟨rfl, fun _ found => found, fun _ body found => ⟨body, found⟩, fun _ _ => Iff.rfl⟩

theorem Grows.trans (first : Grows tree grown) (second : Grows grown last) : Grows tree last where
  here := second.here.trans first.here
  directory location found := second.directory location (first.directory location found)
  file location body found := by
    obtain ⟨later, kept⟩ := first.file location body found
    exact second.file location later kept
  link location target := (second.link location target).trans (first.link location target)

theorem AddsDirectories.refl (tree : Tree) : AddsDirectories tree tree :=
  ⟨rfl, fun _ => Or.inl rfl⟩

theorem AddsDirectories.trans (first : AddsDirectories tree grown)
    (second : AddsDirectories grown last) : AddsDirectories tree last where
  here := second.here.trans first.here
  item location := by
    rcases second.item location with kept | ⟨vacant, made⟩
    · rw [kept]
      exact first.item location
    · rcases first.item location with kept | ⟨_, made'⟩
      · exact Or.inr ⟨kept ▸ vacant, made⟩
      · rw [made'] at vacant
        cases vacant

theorem AddsDirectories.file_iff (adds : AddsDirectories tree grown) (location : Location)
    (body : Body) :
    grown.item? location = some (.file body) ↔ tree.item? location = some (.file body) := by
  rcases adds.item location with kept | ⟨vacant, made⟩
  · rw [kept]
  · simp [vacant, made]

theorem AddsDirectories.grows (adds : AddsDirectories tree grown) : Grows tree grown where
  here := adds.here
  directory location found := by
    rcases adds.item location with kept | ⟨vacant, _⟩
    · rw [kept, found]
    · rw [found] at vacant
      cases vacant
  file location body found := ⟨body, (adds.file_iff location body).mpr found⟩
  link location target := by
    rcases adds.item location with kept | ⟨vacant, made⟩
    · rw [kept]
    · simp [vacant, made]

theorem AddsDirectories.put {location : Location} (below : location ≠ [])
    (vacant : tree.item? location = none) :
    AddsDirectories tree (tree.put location .directory) where
  here := rfl
  item other := by
    rw [item?_put tree below]
    split
    · next same => exact Or.inr ⟨same ▸ vacant, rfl⟩
    · exact Or.inl rfl

/-- A file may be put where there is nothing or a file. -/
def TakesFile (tree : Tree) (location : Location) : Prop :=
  location ≠ [] ∧ (tree.item? location = none ∨ ∃ body, tree.item? location = some (.file body))

theorem Grows.put_file {location : Location} (takes : tree.TakesFile location) (body : Body) :
    Grows tree (tree.put location (.file body)) := by
  obtain ⟨below, before⟩ := takes
  have item := item?_put tree below (.file body)
  refine ⟨rfl, fun other found => ?_, fun other old found => ?_, fun other target => ?_⟩
  all_goals
    rw [item other]
    split
  · next same =>
    subst same
    rcases before with none | ⟨_, file⟩ <;> simp_all
  · exact found
  · exact ⟨body, rfl⟩
  · exact ⟨old, found⟩
  · next same =>
    subst same
    rcases before with none | ⟨_, file⟩ <;> simp [*]
  · exact Iff.rfl

/-! ## Walks in a grown tree -/

/-- What a place has become in a grown tree, if a file is there. -/
inductive Becomes (grown : Tree) : Place → Place → Prop
  | directory (location : Location) :
      Becomes grown (.item location .directory) (.item location .directory)
  | file (location : Location) (old body : Body)
      (found : grown.item? location = some (.file body)) :
      Becomes grown (.item location (.file old)) (.item location (.file body))
  | created (location : Location) (body : Body)
      (found : grown.item? location = some (.file body)) :
      Becomes grown (.vacant location) (.item location (.file body))

theorem leg_grows (grows : Grows tree grown) (creating : Bool) (location : Location)
    (steps : List Step) :
    match tree.leg creating location steps with
    | .arrived place => ∀ later, Becomes grown place later →
        grown.leg false location steps = .arrived later
    | .refused _ => True
    | .link directory target rest =>
        grown.leg false location steps = .link directory target rest := by
  induction steps generalizing location with
  | nil =>
      rintro later ⟨⟩
      rfl
  | cons step rest ih =>
      cases step with
      | stay => exact ih location
      | slash => exact ih location
      | up => exact ih location.dropLast
      | down name =>
          have down := tree.leg_down creating location name rest
          have next := ih (location ++ [name])
          generalize tree.leg creating location (.down name :: rest) = result at down ⊢
          cases down with
          | refused refusal => trivial
          | directory short found =>
              rw [grown.leg_down_false short, grows.directory _ found]
              exact next
          | link short target found =>
              rw [grown.leg_down_false short, (grows.link _ target).mpr found]
          | file short last body found =>
              -- What the file holds may have changed since.
              rintro later (_ | ⟨_, _, body, now⟩)
              rw [grown.leg_down_false short, now]
              exact if_pos last
          | vacant short last found =>
              rintro later (_ | _ | ⟨_, body, now⟩)
              rw [grown.leg_down_false short, now]
              exact if_pos last

theorem walk_grows (grows : Grows tree grown) {creating : Bool} {budget : Nat}
    {location : Location} {steps : List Step} {place later : Place}
    (becomes : Becomes grown place later)
    (arrives : tree.walk creating budget location steps = .ok place) :
    grown.walk false budget location steps = .ok later := by
  induction budget using Nat.strongRecOn generalizing location steps with
  | ind budget ih =>
      have legs := leg_grows grows creating location steps
      rw [walk.eq_def] at arrives ⊢
      cases ends : tree.leg creating location steps with
      | arrived found =>
          rw [ends] at arrives legs
          cases arrives
          rw [legs later becomes]
      | refused refusal =>
          rw [ends] at arrives
          cases arrives
      | link directory target rest =>
          rw [ends] at arrives legs
          rw [legs]
          cases budget with
          | zero => cases arrives
          | succ left => exact ih left (Nat.lt_succ_self left) arrives

/-! ## Changes make a tree grow -/

theorem room_vacant {path : String} {location : Location} (found : tree.room path = .ok location) :
    location ≠ [] ∧ tree.item? location = none := by
  simp only [room] at found
  split at found
  · cases found
  split at found
  · cases found
  · cases found
  split at found
  · split at found
    · cases found
    split at found
    · cases found
    next free =>
    cases found
    refine ⟨List.append_ne_nil_of_right_ne_nil _ (List.cons_ne_nil _ _), ?_⟩
    exact Option.not_isSome_iff_eq_none.mp free
  · cases found

theorem addsDirectories_makeDirectory (tree : Tree) (path : String) :
    AddsDirectories tree (tree.makeDirectory path).tree := by
  rw [makeDirectory]
  split
  · next location found =>
    obtain ⟨below, vacant⟩ := room_vacant found
    exact .put below vacant
  · exact .refl tree

theorem addsDirectories_settleDirectory (tree : Tree) (path : String) :
    AddsDirectories tree (tree.settleDirectory path).tree := by
  have adds := addsDirectories_makeDirectory tree path
  rw [settleDirectory]
  split
  · next made same => exact same ▸ adds
  · split <;> exact .refl tree

theorem addsDirectories_makeNested (tree : Tree) (paths : List String) :
    AddsDirectories tree (tree.makeNested paths).tree := by
  induction paths with
  | nil => exact .refl tree
  | cons path parents ih =>
      have adds := addsDirectories_makeDirectory tree path
      rw [makeNested]
      split
      · exact .refl tree
      split
      · next made same => exact same ▸ adds
      · split
        · next refusal left same => exact same ▸ ih
        · next grown same =>
          rw [same] at ih
          exact ih.trans (addsDirectories_settleDirectory grown path)
      · exact addsDirectories_settleDirectory tree path

/-- A walk ends with a leg that arrives. -/
theorem exists_leg_of_walk {creating : Bool} {budget : Nat} {location : Location}
    {steps : List Step} {place : Place}
    (arrives : tree.walk creating budget location steps = .ok place) :
    ∃ start left, tree.leg creating start left = .arrived place := by
  induction budget using Nat.strongRecOn generalizing location steps with
  | ind budget ih =>
      rw [walk.eq_def] at arrives
      cases ends : tree.leg creating location steps with
      | arrived found =>
          rw [ends] at arrives
          cases arrives
          exact ⟨location, steps, ends⟩
      | refused refusal =>
          rw [ends] at arrives
          cases arrives
      | link directory target rest =>
          rw [ends] at arrives
          cases budget with
          | zero => cases arrives
          | succ left => exact ih left (Nat.lt_succ_self left) arrives

theorem leg_takesFile {creating : Bool} {location : Location} {steps : List Step} {place : Place}
    (arrives : tree.leg creating location steps = .arrived place)
    (file : ∀ directory, place ≠ .item directory .directory) :
    tree.TakesFile place.location := by
  induction steps generalizing location with
  | nil =>
      cases arrives
      exact absurd rfl (file location)
  | cons step rest ih =>
      cases step with
      | stay => exact ih arrives
      | slash => exact ih arrives
      | up => exact ih arrives
      | down name =>
          have below : location ++ [name] ≠ [] :=
            List.append_ne_nil_of_right_ne_nil _ (List.cons_ne_nil _ _)
          have down := tree.leg_down creating location name rest
          rw [arrives] at down
          generalize result : Leg.arrived place = leg at down
          cases down with
          | refused refusal => cases result
          | directory short found => exact ih result.symm
          | link short target found => cases result
          | file short last body found =>
              cases result
              exact ⟨below, Or.inr ⟨body, found⟩⟩
          | vacant short last found =>
              cases result
              exact ⟨below, Or.inl found⟩

theorem destination_cases {path : String} {location : Location}
    (leads : tree.destination path = .ok location) :
    ∃ place, tree.find true path = .ok place ∧ place.location = location ∧
      (place = .vacant location ∨ ∃ body, place = .item location (.file body)) := by
  rw [destination] at leads
  split at leads
  · next body found =>
    cases leads
    exact ⟨_, found, rfl, Or.inr ⟨body, rfl⟩⟩
  · next found =>
    cases leads
    exact ⟨_, found, rfl, Or.inl rfl⟩
  · cases leads
  · cases leads

theorem find_eq_ok {creating : Bool} {path : String} {place : Place} :
    tree.find creating path = .ok place ↔ Path.fault? path = none ∧
      tree.walk creating linkBudget (startOf path tree.here) (Path.steps path) = .ok place := by
  rw [find]
  cases Path.fault? path <;> simp

theorem destination_takesFile {path : String} {location : Location}
    (leads : tree.destination path = .ok location) : tree.TakesFile location := by
  obtain ⟨place, found, same, kinds⟩ := destination_cases leads
  obtain ⟨start, left, arrives⟩ := exists_leg_of_walk (find_eq_ok.mp found).2
  rw [← same]
  refine leg_takesFile arrives fun directory place' => ?_
  rcases kinds with vacant | ⟨body, file⟩
  · rw [vacant] at place'
    cases place'
  · rw [file] at place'
    cases place'

/-- Directories are made first.  If all goes well, the file is put where the path leads then. -/
theorem writeNested_cases (tree : Tree) (path : String) (body : Body) :
    ∃ grown, AddsDirectories tree grown ∧
      ((∃ refusal, tree.writeNested path body = ⟨.error refusal, grown⟩) ∨
        ∃ location, grown.destination path = .ok location ∧
          tree.writeNested path body = ⟨.ok (), grown.put location (.file body)⟩) := by
  have written (grown : Tree) :
      (∃ refusal, grown.write path body = ⟨.error refusal, grown⟩) ∨
        ∃ location, grown.destination path = .ok location ∧
          grown.write path body = ⟨.ok (), grown.put location (.file body)⟩ := by
    rw [write]
    cases leads : grown.destination path with
    | ok location => exact Or.inr ⟨location, rfl, rfl⟩
    | error refusal => exact Or.inl ⟨refusal, rfl⟩
  rw [writeNested]
  cases Path.parent? path with
  | none => exact ⟨tree, .refl tree, written tree⟩
  | some parent =>
      have adds : AddsDirectories tree (tree.makeDirectories parent).tree :=
        addsDirectories_makeNested tree (Path.ancestors parent)
      rcases made : tree.makeDirectories parent with ⟨result, grown⟩
      rw [made] at adds
      simp only [made]
      cases result with
      | ok _ => exact ⟨grown, adds, written grown⟩
      | error refusal => exact ⟨grown, adds, Or.inl ⟨refusal, rfl⟩⟩

/-! ## What a path leads to -/

/-- A path leads to a directory; the empty path leads to the current one. -/
def Leads (tree : Tree) (path : String) (directory : Location) : Prop :=
  tree.walk false linkBudget (startOf path tree.here) (Path.steps path) =
    .ok (.item directory .directory)

theorem Leads.grows {path : String} {directory : Location} (leads : tree.Leads path directory)
    (grows : Grows tree grown) : grown.Leads path directory := by
  rw [Leads, grows.here]
  exact walk_grows grows (.directory directory) leads

theorem DirectBelow.of_grows {directory : Location} (direct : tree.DirectBelow directory)
    (grows : Grows tree grown) : grown.DirectBelow directory := by
  intro rest target below found
  exact direct rest target below ((grows.link _ target).mp found)

/-- Between two trees there was one where a file of this path would be put at a location. -/
def Reached (tree grown : Tree) (path : String) (location : Location) : Prop :=
  ∃ between, Grows tree between ∧ Grows between grown ∧ between.destination path = .ok location

theorem Reached.of_grows {before : Tree} {path : String} {location : Location}
    (reached : Reached tree grown path location) (grows : Grows before tree) :
    Reached before grown path location := by
  obtain ⟨between, first, second, leads⟩ := reached
  exact ⟨between, grows.trans first, second, leads⟩

theorem Reached.find {path : String} {location : Location} {body : Body}
    (reached : Reached tree grown path location)
    (holds : grown.item? location = some (.file body)) :
    grown.find false path = .ok (.item location (.file body)) := by
  obtain ⟨between, _, grows, leads⟩ := reached
  obtain ⟨place, found, _, kinds⟩ := destination_cases leads
  obtain ⟨sound, arrives⟩ := find_eq_ok.mp found
  have becomes : Becomes grown place (.item location (.file body)) := by
    rcases kinds with vacant | ⟨old, file⟩
    · rw [vacant]
      exact .created location body holds
    · rw [file]
      exact .file location old body holds
  rw [find_eq_ok, grows.here]
  exact ⟨sound, walk_grows grows becomes arrives⟩

theorem Reached.canonical {path : String} {location : Location} {body : Body}
    (reached : Reached tree grown path location)
    (holds : grown.item? location = some (.file body)) :
    grown.canonical path = .ok location := by
  obtain ⟨sound, arrives⟩ := find_eq_ok.mp (reached.find holds)
  have filled : Path.void? path = none := by
    rw [Path.fault?] at sound
    split at sound
    · cases sound
    · next filled => exact filled
  simp only [Tree.canonical, filled, arrives]

theorem Reached.readText {path content : String} {location : Location}
    (reached : Reached tree grown path location)
    (holds : grown.item? location = some (.file (.text content))) :
    grown.readText path = .ok content := by
  have found := reached.find holds
  simp only [Tree.readText, Tree.resolve, found, Body.text?]

theorem Leads.unique {path : String} {first second : Location} (leads : tree.Leads path first)
    (also : tree.Leads path second) : first = second := by
  rw [Leads, leads] at also
  cases also
  rfl

end Tree
end ScopeGraph.Files
