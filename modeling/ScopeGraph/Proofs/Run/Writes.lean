import ScopeGraph.Proofs.Artifact
import ScopeGraph.Proofs.Files.Below
import ScopeGraph.Run.Artifacts

/-!
# Runs of writes

One write makes the tree grow, and the file it writes is the last thing that happens to the tree.
Over a whole run this gives what the tree holds in the end: each file is from before or was written
for an artifact, and where every write went well, each artifact has got to a location that holds the
content of some artifact of that location.
-/
set_option autoImplicit false

namespace ScopeGraph

open Files Files.Tree

namespace ArtifactReport

/-! ## One write -/

theorem write_cases (state : ArtifactReport × Tree) (file : ArtifactFile) :
    ∃ grown, AddsDirectories state.2 grown ∧
      ((∃ report, write state file = (report, grown) ∧ report.failed = state.1.failed + 1) ∨
        ∃ report location, grown.destination file.path = .ok location ∧
          write state file = (report, grown.put location (.file (.text file.content))) ∧
          report.failed = state.1.failed) := by
  obtain ⟨grown, adds, outcome⟩ := writeNested_cases state.2 file.path (.text file.content)
  refine ⟨grown, adds, ?_⟩
  rw [write]
  rcases outcome with ⟨refusal, failed⟩ | ⟨location, leads, written⟩
  · rw [failed]
    exact Or.inl ⟨_, rfl, rfl⟩
  · rw [written]
    exact Or.inr ⟨_, location, leads, rfl, rfl⟩

theorem grows_write (state : ArtifactReport × Tree) (file : ArtifactFile) :
    Grows state.2 (write state file).2 := by
  obtain ⟨grown, adds, ⟨report, failed, _⟩ | ⟨report, location, leads, written, _⟩⟩ :=
    write_cases state file
  · rw [failed]
    exact adds.grows
  · rw [written]
    exact adds.grows.trans (.put_file (destination_takesFile leads) _)

theorem failed_le_write (state : ArtifactReport × Tree) (file : ArtifactFile) :
    state.1.failed ≤ (write state file).1.failed := by
  obtain ⟨grown, _, ⟨report, failed, count⟩ | ⟨report, location, _, written, count⟩⟩ :=
    write_cases state file
  · simp only [failed]
    omega
  · simp only [written]
    omega

/-- After a write, a file is from before or the one that was written. -/
theorem file_after_write {state : ArtifactReport × Tree} {file : ArtifactFile} {location : Location}
    {body : Body} (holds : (write state file).2.item? location = some (.file body)) :
    state.2.item? location = some (.file body) ∨
      body = .text file.content ∧ Reached state.2 (write state file).2 file.path location := by
  obtain ⟨grown, adds, ⟨report, failed, _⟩ | ⟨report, target, leads, written, _⟩⟩ :=
    write_cases state file
  · rw [failed] at holds
    exact Or.inl ((adds.file_iff location body).mp holds)
  · have takes := destination_takesFile leads
    rw [written] at holds ⊢
    rw [item?_put grown takes.1] at holds
    split at holds
    · next same =>
      cases holds
      exact Or.inr ⟨rfl, grown, adds.grows, .put_file takes _, same ▸ leads⟩
    · exact Or.inl ((adds.file_iff location body).mp holds)

theorem reached_by_write {state : ArtifactReport × Tree} {file : ArtifactFile}
    (count : (write state file).1.failed = state.1.failed) :
    ∃ location, Reached state.2 (write state file).2 file.path location ∧
      (write state file).2.item? location = some (.file (.text file.content)) := by
  obtain ⟨grown, adds, ⟨report, failed, more⟩ | ⟨report, location, leads, written, _⟩⟩ :=
    write_cases state file
  · simp only [failed] at count
    omega
  · have takes := destination_takesFile leads
    rw [written]
    refine ⟨location, ⟨grown, adds.grows, .put_file takes _, leads⟩, ?_⟩
    rw [item?_put grown takes.1, if_pos rfl]

/-! ## A run of writes -/

def writeFiles (files : List ArtifactFile) (state : ArtifactReport × Tree) :
    ArtifactReport × Tree :=
  files.foldl write state

theorem writeFiles_cons (file : ArtifactFile) (rest : List ArtifactFile)
    (state : ArtifactReport × Tree) :
    writeFiles (file :: rest) state = writeFiles rest (write state file) :=
  List.foldl_cons ..

theorem grows_writeFiles (files : List ArtifactFile) (state : ArtifactReport × Tree) :
    Grows state.2 (writeFiles files state).2 := by
  induction files generalizing state with
  | nil => exact .refl state.2
  | cons file rest ih =>
      rw [writeFiles_cons]
      exact (grows_write state file).trans (ih (write state file))

theorem failed_le_writeFiles (files : List ArtifactFile) (state : ArtifactReport × Tree) :
    state.1.failed ≤ (writeFiles files state).1.failed := by
  induction files generalizing state with
  | nil => exact Nat.le_refl _
  | cons file rest ih =>
      rw [writeFiles_cons]
      exact Nat.le_trans (failed_le_write state file) (ih (write state file))

theorem file_after_writeFiles {files : List ArtifactFile} (state : ArtifactReport × Tree)
    {location : Location} {body : Body}
    (holds : (writeFiles files state).2.item? location = some (.file body)) :
    state.2.item? location = some (.file body) ∨
      ∃ file ∈ files, body = .text file.content ∧
        Reached state.2 (writeFiles files state).2 file.path location := by
  induction files generalizing state with
  | nil => exact Or.inl holds
  | cons file rest ih =>
      have grows := grows_write state file
      rw [writeFiles_cons] at holds ⊢
      rcases ih (write state file) holds with before | ⟨other, member, same, reached⟩
      · rcases file_after_write before with old | ⟨same, between, first, second, leads⟩
        · exact Or.inl old
        · refine Or.inr ⟨file, List.mem_cons_self, same, between, first, ?_, leads⟩
          exact second.trans (grows_writeFiles rest (write state file))
      · exact Or.inr ⟨other, List.mem_cons_of_mem _ member, same, reached.of_grows grows⟩

/-- Where no write fails, each file got to a place that holds what some file put there. -/
theorem reached_by_writeFiles {files : List ArtifactFile} (state : ArtifactReport × Tree)
    (count : (writeFiles files state).1.failed = state.1.failed) (file : ArtifactFile)
    (member : file ∈ files) :
    ∃ location, Reached state.2 (writeFiles files state).2 file.path location ∧
      ∃ other ∈ files, Reached state.2 (writeFiles files state).2 other.path location ∧
        (writeFiles files state).2.item? location = some (.file (.text other.content)) := by
  induction files generalizing state with
  | nil => cases member
  | cons head rest ih =>
      have grows := grows_write state head
      have growsRest := grows_writeFiles rest (write state head)
      have atHead := failed_le_write state head
      have atRest := failed_le_writeFiles rest (write state head)
      rw [writeFiles_cons] at count ⊢
      have headCount : (write state head).1.failed = state.1.failed := by omega
      rcases List.mem_cons.mp member with same | inRest
      · obtain ⟨location, ⟨between, first, second, leads⟩, put⟩ := reached_by_write headCount
        have reached : Reached state.2 (writeFiles rest (write state head)).2 head.path location :=
          ⟨between, first, second.trans growsRest, leads⟩
        -- The location still has a file in the end, but one of the later writes may have put it.
        obtain ⟨body, holds⟩ := growsRest.file _ _ put
        rw [same]
        refine ⟨location, reached, ?_⟩
        rcases file_after_writeFiles _ holds with kept | ⟨other, inside, content, later⟩
        · rw [put] at kept
          cases kept
          exact ⟨head, List.mem_cons_self, reached, holds⟩
        · exact ⟨other, List.mem_cons_of_mem _ inside, later.of_grows grows, content ▸ holds⟩
      · obtain ⟨location, reached, other, inside, otherReached, holds⟩ :=
          ih (write state head) (by omega) inRest
        exact ⟨location, reached.of_grows grows, other, List.mem_cons_of_mem _ inside,
          otherReached.of_grows grows, holds⟩

end ArtifactReport

namespace Layout

variable (layout : Layout)

/-! ## The artifacts of a scope -/

theorem writeAll_eq (scope : Scope) (tree : Tree) :
    layout.writeAll scope tree = ArtifactReport.writeFiles (layout.files scope) (.none, tree) :=
  rfl

theorem below_locator {sourcePath qualifiedName : String}
    (level : ¬ Climbs sourcePath qualifiedName) (kind : ArtifactKind) :
    Path.Below layout.root (layout.locator sourcePath qualifiedName kind)
      (below sourcePath qualifiedName kind) where
  parts := parts_locator layout sourcePath qualifiedName kind
  absolute := isAbsolute_locator layout sourcePath qualifiedName kind
  unclosed := endsInSlash_locator layout sourcePath qualifiedName kind
  level := fun member => level ((parent_mem_below sourcePath qualifiedName kind).mp member)
  named := below_named sourcePath qualifiedName kind

variable (scope : Scope)

theorem mem_files {file : ArtifactFile} :
    file ∈ layout.files scope ↔ ∃ entry ∈ scope.entries, ∃ kind,
      file.path = layout.locator scope.sourcePath entry.qualifiedName kind ∧
      match kind with
      | .code => file.content = entry.descriptor.code
      | .doc => entry.descriptor.doc? = some file.content := by
  obtain ⟨path, content⟩ := file
  rw [files, List.mem_flatMap]
  refine exists_congr fun entry => and_congr_right fun _ => ?_
  rw [filesOf, List.mem_cons, ArtifactFile.mk.injEq]
  constructor
  · rintro (same | member)
    · exact ⟨.code, same⟩
    · split at member
      · next doc has =>
        obtain ⟨paths, contents⟩ := ArtifactFile.mk.inj (List.mem_singleton.mp member)
        exact ⟨.doc, paths, contents ▸ has⟩
      · cases member
  · rintro ⟨kind, same, holds⟩
    cases kind with
    | code => exact Or.inl ⟨same, holds⟩
    | doc =>
        dsimp only at same holds
        simp only [holds, same]
        exact Or.inr (List.mem_singleton_self _)

variable {layout scope}

theorem exists_file {entry : Entry} (member : entry ∈ scope.entries) (kind : ArtifactKind)
    {content : String}
    (holds : match kind with
      | .code => content = entry.descriptor.code
      | .doc => entry.descriptor.doc? = some content) :
    ∃ file ∈ layout.files scope,
      file.path = layout.locator scope.sourcePath entry.qualifiedName kind ∧
        file.content = content := by
  refine ⟨⟨layout.locator scope.sourcePath entry.qualifiedName kind, content⟩,
    (mem_files layout scope).mpr ⟨entry, member, kind, ?_, holds⟩, ?_, ?_⟩
  all_goals dsimp only

theorem below_of_mem_files
    (level : ∀ entry ∈ scope.entries, ¬ Climbs scope.sourcePath entry.qualifiedName)
    {file : ArtifactFile} (member : file ∈ layout.files scope) :
    ∃ more, Path.Below layout.root file.path more := by
  obtain ⟨entry, inside, kind, path, _⟩ := (mem_files layout scope).mp member
  rw [path]
  exact ⟨_, below_locator layout (level entry inside) kind⟩

end Layout
end ScopeGraph
