import ScopeGraph.Syntax.Outline
import ScopeGraph.Text.Characters

/-!
# Outlines as text

Each line of an outline has the depth of a node, its marks, its kind, the bytes where it starts and
ends, and the field it stands in if it has one, with blanks between them.  The marks are `n` for a
named node, `e` for an error, `c` for a node that contains an error, and a dash for none of these.
-/
set_option autoImplicit false

namespace ScopeGraph.Syntax

namespace OutlineRow

def ofWords? : List (List Char) → Option OutlineRow
  | depth :: marks :: kind :: start :: stop :: field => do
    let depth ← (String.ofList depth).toNat?
    let start ← (String.ofList start).toNat?
    let stop ← (String.ofList stop).toNat?
    return {
      depth
      kind := String.ofList kind
      span := ⟨start, stop⟩
      field := field.head?.map String.ofList
      named := 'n' ∈ marks
      faulty := 'e' ∈ marks
      flagged := 'c' ∈ marks }
  | _ => none

def ofLine? (line : List Char) : Option OutlineRow :=
  ofWords? ((Text.splitAt ' ' line).filter (· ≠ []))

end OutlineRow

/-- The tree of an outline. -/
def Outline.ofText? (text : String) : Option Node :=
  let lines := (Text.splitAt '\n' text.toList).filter (· ≠ [])
  (lines.mapM OutlineRow.ofLine?).bind Outline.root?

end ScopeGraph.Syntax
