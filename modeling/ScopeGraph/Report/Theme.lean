/-!
# Styles of terminal output

A style is a list of terminal attributes around a text; the plain theme leaves every text as it is.
-/
set_option autoImplicit false

namespace ScopeGraph

inductive Slot where
  | header
  | success
  | error
  | warning
  | info
  | dim
  | muted
  | function
  | classDecl
  | method
  deriving DecidableEq, Repr

inductive Theme where
  | plain
  | colored
  deriving DecidableEq, Repr

/-- Attribute numbers: colours first, then bold (1) or dimmed (2). -/
def Slot.attributes : Slot → String
  | header => "36;1"
  | success => "32;1"
  | error => "31;1"
  | warning => "33;1"
  | info => "35"
  | dim => "37;2"
  | muted => "90"
  | function => "34;1"
  | classDecl => "33"
  | method => "36"

def Theme.style (theme : Theme) (slot : Slot) (text : String) : String :=
  match theme with
  | plain => text
  | colored => "\x1b[" ++ slot.attributes ++ "m" ++ text ++ "\x1b[0m"

end ScopeGraph
