import ScopeGraph.Error
import ScopeGraph.Text.Characters

/-!
# Folders and file name of a source path

The last component of a path gives the file name: what stands before its first dot, trimmed.  The
other components are the folders; those that are blank or have a dot are left out, and the rest
are trimmed and lose their blanks U+0020.
-/
set_option autoImplicit false

namespace ScopeGraph

structure Containment where
  folders : List String
  fileName : String
  deriving DecidableEq, Repr

namespace Containment

/-- A directory component that counts as a folder. -/
def isFolder (component : List Char) : Bool :=
  !component.contains '.' && Text.trim component ≠ []

def folderName (component : List Char) : List Char := (Text.trim component).filter (· ≠ ' ')

def stem (component : List Char) : List Char := Text.trim (component.takeWhile (· ≠ '.'))

def ofPath (path : String) : Except Error Containment :=
  let components := Text.splitAt '/' path.toList
  let fileName := stem (components.getLast?.getD [])
  if fileName = [] then .error (.invalidPath (.noFileName path))
  else
    .ok
      { folders := (components.dropLast.filter isFolder).map (String.ofList ∘ folderName)
        fileName := String.ofList fileName }

end Containment
end ScopeGraph
