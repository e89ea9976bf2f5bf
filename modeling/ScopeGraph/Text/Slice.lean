/-!
# Positions in a source text

Offsets count bytes of the UTF-8 form.  A slice is taken between two offsets that stand between
characters; a slice that would cut a character open is the empty text.  Rows and columns count
from zero, and a column counts bytes.
-/
set_option autoImplicit false

namespace ScopeGraph

/-- The bytes `start ≤ i < stop` of a text. -/
structure Span where
  start : Nat
  stop : Nat
  deriving DecidableEq, Repr

namespace Text

def dropBytes : Nat → List Char → Option (List Char)
  | 0, rest => some rest
  | _ + 1, [] => none
  | n + 1, c :: rest =>
    if c.utf8Size ≤ n + 1 then dropBytes (n + 1 - c.utf8Size) rest else none

def takeBytes : Nat → List Char → Option (List Char)
  | 0, _ => some []
  | _ + 1, [] => none
  | n + 1, c :: rest =>
    if c.utf8Size ≤ n + 1 then (takeBytes (n + 1 - c.utf8Size) rest).map (c :: ·) else none

/-- The characters of a span, or nothing if the span does not respect character boundaries. -/
def cut (chars : List Char) (span : Span) : Option (List Char) :=
  if span.start ≤ span.stop then
    (dropBytes span.start chars).bind (takeBytes (span.stop - span.start))
  else none

def slice (text : String) (span : Span) : String :=
  String.ofList ((cut text.toList span).getD [])

def breaksBefore : Nat → List Char → Nat
  | 0, _ => 0
  | _ + 1, [] => 0
  | n + 1, c :: rest => (if c = '\n' then 1 else 0) + breaksBefore (n + 1 - c.utf8Size) rest

/-- Bytes between the last line break before byte `n` and byte `n`; `seen` bytes of the current
line have gone by. -/
def bytesInLine (seen : Nat) : Nat → List Char → Nat
  | 0, _ => seen
  | _ + 1, [] => seen
  | n + 1, c :: rest =>
    bytesInLine (if c = '\n' then 0 else seen + c.utf8Size) (n + 1 - c.utf8Size) rest

def row (text : String) (offset : Nat) : Nat := breaksBefore offset text.toList

def column (text : String) (offset : Nat) : Nat := bytesInLine 0 offset text.toList

end Text
end ScopeGraph
