import ScopeGraph.Text.Characters

/-!
# Paths

A path is a text whose components stand between slashes.  Repeated and trailing slashes and `.`
components mean nothing, except for a `.` in front.
-/
set_option autoImplicit false

namespace ScopeGraph.Files

inductive Component where
  | root
  | current
  | parent
  | normal (name : String)
  deriving DecidableEq, Repr

namespace Component

def ofName (name : String) : Component := if name = ".." then .parent else .normal name

end Component

namespace Path

def isAbsolute (path : String) : Bool := path.toList.head? = some '/'

def parts (path : String) : List String :=
  ((Text.splitAt '/' path.toList).filter (· ≠ [])).map String.ofList

def components (path : String) : List Component :=
  let rest := (parts path).filter (· ≠ ".")
  if isAbsolute path then .root :: rest.map Component.ofName
  else if (parts path).head? = some "." then .current :: rest.map Component.ofName
  else rest.map Component.ofName

/-- Cuts off what no parent is taken from: the slash of the root, or a `.` in front. -/
def fork : List Char → List Char × List Char
  | '/' :: rest => (['/'], rest)
  | ['.'] => (['.'], [])
  | '.' :: '/' :: rest => (['.'], '/' :: rest)
  | chars => ([], chars)

/-- The parts up to the last one that means something. -/
def dropIdle (parts : List (List Char)) : List (List Char) :=
  (parts.reverse.dropWhile fun part => part = [] ∨ part = ['.']).reverse

/-- The path up to its last component, as it is written there; the root and the empty path have no
parent. -/
def parent? (path : String) : Option String :=
  let (head, body) := fork path.toList
  match (dropIdle (Text.splitAt '/' body)).reverse with
  | [] => if head = ['.'] then some "" else none
  | _ :: above =>
    some (String.ofList (head ++ ['/'].intercalate (dropIdle above.reverse)))

def ancestors (path : String) : List String := climb (components path).length path
where
  climb : Nat → String → List String
    | 0, path => [path]
    | height + 1, path =>
      match parent? path with
      | some parent => path :: climb height parent
      | none => [path]

/-- The path of `next` as seen from `path`: an absolute path stands for itself. -/
def join (path next : String) : String :=
  if isAbsolute next then next
  else if path = "" ∨ path.toList.getLast? = some '/' then path ++ next
  else path ++ "/" ++ next

def names (path : String) : List String :=
  (components path).filterMap fun component =>
    match component with
    | .normal name => some name
    | _ => none

end Path
end ScopeGraph.Files
