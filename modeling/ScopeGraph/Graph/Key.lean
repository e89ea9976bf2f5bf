import ScopeGraph.Dictionary
import ScopeGraph.Json.Basic

/-!
# Keys of the property graph

A node is found by its label and a few identifying fields.  The canonical text of a key names it
in the database: field order does not show in it, and of a repeated field the last value counts.
-/
set_option autoImplicit false

namespace ScopeGraph

inductive Label where
  /-- A directory on the way to a source file. -/
  | folder
  | file
  /-- A function at file level. -/
  | function
  /-- A class at file level. -/
  | classDecl
  /-- A nested declaration. -/
  | method
  /-- A name on a call chain. -/
  | callee
  deriving DecidableEq, Repr

namespace Label

def name : Label → String
  | folder => "folder"
  | file => "file"
  | function => "Function"
  | classDecl => "Class"
  | method => "Method"
  | callee => "Callee"

/-- The name in reports for machines. -/
def title : Label → String
  | folder => "Folder"
  | file => "File"
  | label => label.name

def all : List Label := [folder, file, function, classDecl, method, callee]

end Label

inductive RelKind where
  /-- From a folder to a folder in it. -/
  | folder
  /-- From a folder to a file, or from a file to a declaration at file level. -/
  | contains
  /-- From a nested declaration to the one that holds it. -/
  | parent
  /-- From a declaration to a callee, or from a callee to the next one of a chain. -/
  | calls
  deriving DecidableEq, Repr

namespace RelKind

def name : RelKind → String
  | folder => "folder"
  | contains => "contains"
  | parent => "parent"
  | calls => "calls"

def all : List RelKind := [folder, contains, parent, calls]

end RelKind

structure NodeKey where
  label : Label
  fields : List (String × String)
  deriving DecidableEq, Repr

namespace NodeKey

def get? (key : NodeKey) (field : String) : Option String :=
  (key.fields.find? (·.1 = field)).map Prod.snd

def name? (key : NodeKey) : Option String := key.get? "name"

/-- The fields as a dictionary; of a repeated field the last value counts. -/
def dictionary (key : NodeKey) : Properties := Dictionary.ofList key.fields

def canonical (key : NodeKey) : String :=
  Json.render (.object
    [("key", .object (key.dictionary.entries.map fun entry => (entry.1, .string entry.2))),
     ("label", .string key.label.name)])

def display (key : NodeKey) : String :=
  let fields := key.fields.map fun field => field.1 ++ "=" ++ field.2
  key.label.name ++ "\x7b" ++ ", ".intercalate fields ++ "\x7d"

end NodeKey
end ScopeGraph
