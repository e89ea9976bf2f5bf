import ScopeGraph.Files.Path

/-!
# Artifacts

The code and the doc comment of each declaration are kept in files of their own.  Their place
follows from the output root, the source path and the qualified name of the declaration.
-/
set_option autoImplicit false

namespace ScopeGraph

inductive ArtifactKind where
  | code
  | doc
  deriving DecidableEq, Repr

def ArtifactKind.extension : ArtifactKind → String
  | code => "js"
  | doc => "jsdoc"

structure Layout where
  root : String
  deriving DecidableEq, Repr

namespace Layout

def fileName (base qualifiedName : String) (kind : ArtifactKind) : String :=
  s!"{base}.{qualifiedName}.{kind.extension}"

/-- The names of the source path lead from the root to the directory of the artifact. -/
def locator (layout : Layout) (sourcePath qualifiedName : String) (kind : ArtifactKind) : String :=
  let names := Files.Path.names sourcePath
  let directory := names.dropLast.foldl Files.Path.join layout.root
  Files.Path.join directory (fileName (names.getLast?.getD "") qualifiedName kind)

/-- The locator as the graph records it, with slashes for backslashes. -/
def recordedLocator (layout : Layout) (sourcePath qualifiedName : String) (kind : ArtifactKind) :
    String :=
  String.ofList ((layout.locator sourcePath qualifiedName kind).toList.map fun c =>
    if c = '\\' then '/' else c)

end Layout
end ScopeGraph
