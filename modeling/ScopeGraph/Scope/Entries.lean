import ScopeGraph.Scope.Descriptor

/-!
# Entries of a scope

The entries of a scope are its descriptors, each before its members, with their qualified names:
the names from the file level down, joined by dots.  A class at file level that shares its name
with a function there is qualified by `class`, which no function can be called.
-/
set_option autoImplicit false

namespace ScopeGraph

structure Entry where
  qualifiedName : String
  /-- The qualified name of the declaration that holds this one. -/
  owner? : Option String
  depth : Nat
  descriptor : Descriptor

namespace Descriptor

mutual

def entries (qualifiedName : String) (owner? : Option String) (depth : Nat) :
    Descriptor → List Entry
  | ⟨kind, name, sourcePath, code, doc?, lineStart, lineEnd, members, chains⟩ =>
    ⟨qualifiedName, owner?, depth,
      ⟨kind, name, sourcePath, code, doc?, lineStart, lineEnd, members, chains⟩⟩ ::
      memberEntries qualifiedName (depth + 1) members

def memberEntries (owner : String) (depth : Nat) : List (String × Descriptor) → List Entry
  | [] => []
  | (_, member) :: rest =>
    member.entries (owner ++ "." ++ member.name) (some owner) depth ++
      memberEntries owner depth rest

end

end Descriptor

namespace Scope

def topLevelName (scope : Scope) (descriptor : Descriptor) : String :=
  if descriptor.kind = .classDecl ∧ descriptor.name ∈ scope.functions.names then
    "class." ++ descriptor.name
  else descriptor.name

def entries (scope : Scope) : List Entry :=
  scope.topLevel.flatMap fun descriptor =>
    descriptor.entries (scope.topLevelName descriptor) none 0

end Scope
end ScopeGraph
