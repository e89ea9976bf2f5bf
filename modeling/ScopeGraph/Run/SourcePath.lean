import ScopeGraph.Files.Tree

/-!
# Recorded source paths

A source file is recorded by the names that lead to it: relative to the base directory if it lies
below, else from the root.
-/
set_option autoImplicit false

namespace ScopeGraph

open Files (Location Name)

/-- What is left of the names of a file below a directory. -/
def below? : Location → Location → Option Location
  | [], location => some location
  | _ :: _, [] => none
  | name :: directory, first :: rest => if name = first then below? directory rest else none

def relativePath (location : Location) : String := "/".intercalate (location.map Name.shown)

def absolutePath (location : Location) : String := "/" ++ relativePath location

def recordedPath (base? : Option Location) (location : Location) : String :=
  match base?.bind fun base => below? base location with
  | some relative => relativePath relative
  | none => absolutePath location

end ScopeGraph
