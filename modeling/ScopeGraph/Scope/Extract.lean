import ScopeGraph.Scope.Declaration
import ScopeGraph.Scope.Docs
import ScopeGraph.Source

/-!
# From a source file to its scope

Declarations are described one after another, each before what it holds.  A declaration without a
name gets the next of the numbered names of the run.  Within a container a later description
replaces an earlier one of the same name.
-/
set_option autoImplicit false

namespace ScopeGraph

open Syntax

/-- What one run has counted so far. -/
structure Tally where
  /-- Names made up for declarations without one. -/
  anonymous : Nat
  /-- Calls whose callee has no name. -/
  unresolved : Nat
  deriving DecidableEq, Repr

namespace Tally

def zero : Tally := ⟨0, 0⟩

def nextName (tally : Tally) (kind : DeclKind) : String × Tally :=
  (s!"{kind.anonymousStem}_{tally.anonymous}", { tally with anonymous := tally.anonymous + 1 })

/-- The declared name, or the next made-up one. -/
def nameFor (tally : Tally) (kind : DeclKind) : Option String → String × Tally
  | some name => (name, tally)
  | none => tally.nextName kind

def addUnresolved (tally : Tally) (count : Nat) : Tally :=
  { tally with unresolved := tally.unresolved + count }

end Tally

namespace Members

def addAll (members : Members) (descriptors : List Descriptor) : Members :=
  Listing.setAll members (descriptors.map fun descriptor => (descriptor.name, descriptor))

end Members

namespace Declaration
variable (source : Source)

def chains (declaration : Declaration) : List CallChain :=
  match declaration.body? with
  | some body => CallChain.unique (body.callChains source.text)
  | none => []

def unresolvedCalls (declaration : Declaration) : Nat :=
  match declaration.body? with
  | some body => body.unresolvedCalls source.text
  | none => 0

def descriptor (declaration : Declaration) (name : String) (inner : List Descriptor) :
    Descriptor where
  kind := declaration.kind
  name := name
  sourcePath := source.path
  code := declaration.node.text source.text
  doc? := docFor? source.text source.comments declaration.node
  lineStart := Text.row source.text declaration.node.span.start + 1
  lineEnd := Text.row source.text declaration.node.span.stop + 1
  members := Members.addAll [] inner
  chains := declaration.chains source

mutual

def describe (declaration : Declaration) (tally : Tally) : Descriptor × Tally :=
  let named := tally.nameFor declaration.kind (declaration.name? source.text)
  let inner := describeAll declaration.inner named.2
  (declaration.descriptor source named.1 inner.1,
    inner.2.addUnresolved (declaration.unresolvedCalls source))
termination_by 2 * declaration.weight
decreasing_by
  have := declaration.weightAll_inner_lt
  omega

def describeAll (declarations : List Declaration) (tally : Tally) : List Descriptor × Tally :=
  match declarations with
  | [] => ([], tally)
  | declaration :: rest =>
    let first := describe declaration tally
    let others := describeAll rest first.2
    (first.1 :: others.1, others.2)
termination_by 2 * weightAll declarations + 1
decreasing_by
  · simp only [weightAll]; omega
  · have := declaration.node.weight_pos
    simp only [weightAll, weight] at *
    omega

end

end Declaration

namespace Source

/-- The file-level declarations, the shallow ones first. -/
def declarations (source : Source) : List Declaration :=
  source.root.scopesByDepth.map Declaration.ofScope

/-- The file-level statements that may carry an export, the shallow ones first. -/
def exportStatements (source : Source) : List Node :=
  (source.root.byDepth Node.isOpen).filter (·.nodeClass = .exportLike)

def exportTable (source : Source) : ExportTable :=
  ExportTable.recordAll source.text [] source.exportStatements

def describeAll (source : Source) (tally : Tally) : List Descriptor × Tally :=
  Declaration.describeAll source source.declarations tally

def members (source : Source) (tally : Tally) : Members × Tally :=
  let described := source.describeAll tally
  (Members.addAll [] described.1, described.2)

/-- The scope of the file: functions and classes are kept apart. -/
def scope (source : Source) (tally : Tally) : Scope × Tally :=
  let described := source.describeAll tally
  ({ sourcePath := source.path
     functions := Members.addAll [] (described.1.filter (·.kind ≠ .classDecl))
     classes := Members.addAll [] (described.1.filter (·.kind = .classDecl))
     exports := source.exportTable }, described.2)

end Source
end ScopeGraph
