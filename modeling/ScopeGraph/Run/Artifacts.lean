import ScopeGraph.Artifact
import ScopeGraph.Files.Change
import ScopeGraph.Scope.Entries

/-!
# Writing artifacts

The code of each declaration, and its doc comment if it has one, goes to the file of its locator.
A file that cannot be written is counted and does not keep the others from being written.
-/
set_option autoImplicit false

namespace ScopeGraph

open Files (Tree)

structure ArtifactFile where
  path : String
  content : String
  deriving DecidableEq, Repr

structure ArtifactReport where
  written : Nat
  failed : Nat
  deriving DecidableEq, Repr

namespace Layout

def filesOf (layout : Layout) (sourcePath : String) (entry : Entry) : List ArtifactFile :=
  let file (kind : ArtifactKind) (content : String) : ArtifactFile :=
    ⟨layout.locator sourcePath entry.qualifiedName kind, content⟩
  file .code entry.descriptor.code ::
    match entry.descriptor.doc? with
    | some doc => [file .doc doc]
    | none => []

def files (layout : Layout) (scope : Scope) : List ArtifactFile :=
  scope.entries.flatMap (layout.filesOf scope.sourcePath)

end Layout

namespace ArtifactReport

def none : ArtifactReport := ⟨0, 0⟩

/-- Writes one file and counts it. -/
def write (state : ArtifactReport × Tree) (file : ArtifactFile) : ArtifactReport × Tree :=
  match state.2.writeNested file.path (.text file.content) with
  | ⟨.ok (), tree⟩ => ({ state.1 with written := state.1.written + 1 }, tree)
  | ⟨.error _, tree⟩ => ({ state.1 with failed := state.1.failed + 1 }, tree)

end ArtifactReport

/-- Writes the artifacts of a scope. -/
def Layout.writeAll (layout : Layout) (scope : Scope) (tree : Tree) : ArtifactReport × Tree :=
  (layout.files scope).foldl ArtifactReport.write (.none, tree)

end ScopeGraph
