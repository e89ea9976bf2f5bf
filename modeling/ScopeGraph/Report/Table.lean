import ScopeGraph.Text.Characters
import ScopeGraph.Text.Width

/-!
# Tables of metrics

A table has a header and two columns, drawn with rounded corners.  A cell may take several lines;
columns are as wide as their widest line.  A table without rows is the empty text.
-/
set_option autoImplicit false

namespace ScopeGraph.Table

structure Row where
  metric : String
  value : String
  deriving DecidableEq, Repr

def header : Row := ⟨"Metric", "Value"⟩

def cellLines (cell : String) : List (List Char) := Text.splitAt '\n' cell.toList

def cellWidth (cell : String) : Nat :=
  ((cellLines cell).map Text.Width.ofLine).foldl max 0

def columnWidth (cells : List String) : Nat := (cells.map cellWidth).foldl max 0

/-- A line of a cell between two blanks, filled up to the width of its column. -/
def pad (width : Nat) (line : List Char) : List Char :=
  ' ' :: line ++ List.replicate (width - Text.Width.ofLine line) ' ' ++ [' ']

def drawLine (left right : Nat) (line : List Char × List Char) : List Char :=
  '│' :: pad left line.1 ++ '│' :: pad right line.2 ++ ['│']

/-- Both lists, the shorter one filled up with empty lines. -/
def sideBySide : List (List Char) → List (List Char) → List (List Char × List Char)
  | [], lines => lines.map fun line => ([], line)
  | lines, [] => lines.map fun line => (line, [])
  | first :: rest, first' :: rest' => (first, first') :: sideBySide rest rest'

def drawRow (left right : Nat) (row : Row) : List (List Char) :=
  (sideBySide (cellLines row.metric) (cellLines row.value)).map (drawLine left right)

def rule (left right : Nat) (first middle last : Char) : List Char :=
  first :: List.replicate (left + 2) '─' ++ middle :: List.replicate (right + 2) '─' ++ [last]

def draw (rows : List Row) : String :=
  if rows = [] then ""
  else
    let left := columnWidth ((header :: rows).map Row.metric)
    let right := columnWidth ((header :: rows).map Row.value)
    let lines :=
      rule left right '╭' '┬' '╮' :: drawRow left right header ++
        rule left right '├' '┼' '┤' :: rows.flatMap (drawRow left right) ++
        [rule left right '╰' '┴' '╯']
    "\n".intercalate (lines.map String.ofList)

end ScopeGraph.Table
