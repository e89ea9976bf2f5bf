import ScopeGraph.Files.Tree
import ScopeGraph.Run.Pipeline
import ScopeGraph.Syntax.OutlineText

/-!
# Syntax trees beside the sources

The syntax tree of a source file is read from the outline beside it, a file with `.tree` behind the
name of the source.  A text without an outline counts as one whole error.
-/
set_option autoImplicit false

namespace ScopeGraph.CommandLine

open Files (Location Tree)
open Syntax (Node)

def outlineOf (source : Location) : Option Location :=
  source.getLast?.map fun name => source.dropLast ++ [name.extend ".tree"]

def textAt? (tree : Tree) (location : Location) : Option String :=
  match tree.item? location with
  | some (.file body) => body.text?
  | _ => none

def outlined (tree : Tree) : List (String × Node) :=
  tree.items.filterMap fun entry => do
    let text ← textAt? tree entry.1
    let outline ← (outlineOf entry.1).bind (textAt? tree)
    let root ← Syntax.Outline.ofText? outline
    return (text, root)

/-- A tree that is nothing but an error. -/
def unknownTree (text : String) : Node where
  kind := .ofName "ERROR"
  field := none
  span := ⟨0, text.utf8ByteSize⟩
  named := true
  faulty := true
  flagged := true
  children := []

def grammarOf (tree : Tree) : Grammar := fun text =>
  (((outlined tree).find? (·.1 = text)).map Prod.snd).getD (unknownTree text)

end ScopeGraph.CommandLine
