import ScopeGraph.Scope.CallChain
import ScopeGraph.Scope.Exports

/-!
# Scope trees

A descriptor records one function, class or method with the declarations nested in it.  A scope
holds the file-level functions and classes of one source file and its export table.
-/
set_option autoImplicit false

namespace ScopeGraph

/-- What a descriptor was made from. -/
inductive DeclKind where
  /-- A function declaration or expression, an arrow function, or a method of an object literal. -/
  | function
  | classDecl
  /-- A method of a class body. -/
  | method
  deriving DecidableEq, Repr

namespace DeclKind

def name : DeclKind → String
  | function => "function"
  | classDecl => "class"
  | method => "method"

def anonymousStem : DeclKind → String
  | classDecl => "anonymous_class"
  | function | method => "anonymous_function"

end DeclKind

structure Descriptor where
  kind : DeclKind
  name : String
  sourcePath : String
  /-- The text of the declaration. -/
  code : String
  doc? : Option String
  /-- First and last line, counted from one. -/
  lineStart : Nat
  lineEnd : Nat
  /-- Nested declarations by name. -/
  members : List (String × Descriptor)
  chains : List CallChain

abbrev Members := Listing Descriptor

structure Scope where
  sourcePath : String
  functions : Members
  classes : Members
  exports : ExportTable

namespace Descriptor

mutual

/-- How many descriptors are nested in this one, at any depth. -/
def descendantCount : Descriptor → Nat
  | ⟨_, _, _, _, _, _, _, members, _⟩ => descriptorCount members

def descriptorCount : List (String × Descriptor) → Nat
  | [] => 0
  | (_, member) :: rest => 1 + member.descendantCount + descriptorCount rest

end

mutual

/-- How many call chains this descriptor and the nested ones have. -/
def chainCount : Descriptor → Nat
  | ⟨_, _, _, _, _, _, _, members, chains⟩ => chains.length + chainCountAll members

def chainCountAll : List (String × Descriptor) → Nat
  | [] => 0
  | (_, member) :: rest => member.chainCount + chainCountAll rest

end

end Descriptor

namespace Scope

def topLevel (scope : Scope) : List Descriptor := scope.functions.values ++ scope.classes.values

def descriptorCount (scope : Scope) : Nat :=
  Descriptor.descriptorCount scope.functions + Descriptor.descriptorCount scope.classes

def chainCount (scope : Scope) : Nat :=
  Descriptor.chainCountAll scope.functions + Descriptor.chainCountAll scope.classes

end Scope
end ScopeGraph
