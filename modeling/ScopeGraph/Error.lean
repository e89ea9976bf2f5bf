/-!
# What can go wrong

Errors are kept as causes; their wording is fixed here, once.
-/
set_option autoImplicit false

namespace ScopeGraph

inductive Refusal where
  | notFound
  | alreadyExists
  | notDirectory
  | isDirectory
  | nameTooLong
  | tooManyLinks
  | nulInPath
  | notUnicode
  | sinkFull
  | flushRefused
  deriving DecidableEq, Repr

def Refusal.message : Refusal → String
  | notFound => "No such file or directory (os error 2)"
  | alreadyExists => "File exists (os error 17)"
  | notDirectory => "Not a directory (os error 20)"
  | isDirectory => "Is a directory (os error 21)"
  | nameTooLong => "File name too long (os error 36)"
  | tooManyLinks => "Too many levels of symbolic links (os error 40)"
  | nulInPath => "file name contained an unexpected NUL byte"
  | notUnicode => "stream did not contain valid UTF-8"
  | sinkFull => "sink full"
  | flushRefused => "flush refused"

/-- Why a path cannot stand for a source file. -/
inductive PathFault where
  /-- Nothing is left of the last component before its first dot. -/
  | noFileName (path : String)
  | unresolved (path : String) (refusal : Refusal)
  | unresolvedBase (directory : String) (refusal : Refusal)
  deriving DecidableEq, Repr

def PathFault.message : PathFault → String
  | noFileName path => s!"cannot derive a file name from '{path}'"
  | unresolved path refusal => s!"{path}: {refusal.message}"
  | unresolvedBase directory refusal => s!"base_dir {directory}: {refusal.message}"

/-- A place in a text, counted from zero. -/
structure Position where
  row : Nat
  column : Nat
  deriving DecidableEq, Repr

inductive Error where
  /-- The text does not parse; the place is that of the first faulty node, if there is one. -/
  | parse (path : String) (place : Option Position)
  /-- The database refused. -/
  | storage
  | io (refusal : Refusal)
  | serialization
  | invalidPath (fault : PathFault)
  /-- The operation at `index` failed and its transaction was rolled back. -/
  | graphOperation (index : Nat) (source : Error)
  | storeClosed
  | adapter (detail : String)
  deriving DecidableEq, Repr

namespace Error

def placeText : Option Position → String
  | some place => s!"{place.row + 1}:{place.column + 1}"
  | none => "?"

def message : Error → String
  | parse path place => s!"Parse error: {path}: syntax error at {placeText place}"
  | storage => "Storage error"
  | io refusal => s!"IO error: {refusal.message}"
  | serialization => "Serialization error"
  | invalidPath fault => s!"Invalid source path: {fault.message}"
  | graphOperation index source =>
    s!"Graph operation #{index} failed, transaction rolled back: {source.message}"
  | storeClosed => "Graph store is closed"
  | adapter detail => s!"Adapter error: {detail}"

/-- The messages of an error and of what caused it, outermost first. -/
def chain : Error → List String
  | io refusal => [message (io refusal), refusal.message]
  | graphOperation index source => message (graphOperation index source) :: source.chain
  | error => [error.message]

end Error
end ScopeGraph
