import ScopeGraph.Text.Characters

/-!
# Writing TOML strings

A string takes the first of these forms that shows it without escapes: between double quotes,
between single quotes, and both again with three quotes over several lines.  If none fits, it is
written with escapes.
-/
set_option autoImplicit false

namespace ScopeGraph.Toml

def isControl (c : Char) : Bool :=
  (c.toNat < 32 && c ≠ '\t' && c ≠ '\n') || c.toNat = 127

def longestRun (wanted : Char) (current : Nat) : List Char → Nat
  | [] => current
  | c :: rest =>
    if c = wanted then longestRun wanted (current + 1) rest
    else max current (longestRun wanted 0 rest)

def escapeCode (c : Char) : List Char :=
  let n := c.toNat
  ['\\', 'u', Text.upperHexDigit (n / 4096 % 16), Text.upperHexDigit (n / 256 % 16),
    Text.upperHexDigit (n / 16 % 16), Text.upperHexDigit (n % 16)]

/-- The characters of a string between double quotes.  A quote is escaped where more than `allowed`
of them would stand in a row; `run` counts those that just came. -/
def escaped (multiline : Bool) (allowed run : Nat) : List Char → List Char
  | [] => []
  | c :: rest =>
    if c = '"' then
      if run < allowed then '"' :: escaped multiline allowed (run + 1) rest
      else '\\' :: '"' :: escaped multiline allowed 0 rest
    else if c = '\x08' then '\\' :: 'b' :: escaped multiline allowed 0 rest
    else if c = '\t' then '\\' :: 't' :: escaped multiline allowed 0 rest
    else if c = '\n' then
      if multiline then '\n' :: escaped multiline allowed 0 rest
      else '\\' :: 'n' :: escaped multiline allowed 0 rest
    else if c = '\x0c' then '\\' :: 'f' :: escaped multiline allowed 0 rest
    else if c = '\r' then '\\' :: 'r' :: escaped multiline allowed 0 rest
    else if c = '\\' then '\\' :: '\\' :: escaped multiline allowed 0 rest
    else if isControl c then escapeCode c ++ escaped multiline allowed 0 rest
    else c :: escaped multiline allowed 0 rest

inductive Form where
  | basic
  | literal
  | basicLines
  | literalLines
  deriving DecidableEq, Repr

def formOf (content : List Char) : Form :=
  let controls := content.any isControl
  let backslash := '\\' ∈ content
  let newline := '\n' ∈ content
  let double := longestRun '"' 0 content
  let single := longestRun '\'' 0 content
  if ¬ controls ∧ ¬ backslash ∧ ¬ newline ∧ double = 0 then .basic
  else if ¬ controls ∧ ¬ newline ∧ single = 0 then .literal
  else if ¬ controls ∧ ¬ backslash ∧ double ≤ 2 then .basicLines
  else if ¬ controls ∧ single ≤ 2 then .literalLines
  else if newline then .basicLines
  else .basic

/-- A content with a line break starts on a line of its own. -/
def leadIn (content : List Char) : List Char := if '\n' ∈ content then ['\n'] else []

def quoteIn (form : Form) (content : List Char) : List Char :=
  match form with
  | .basic => '"' :: escaped false 0 0 content ++ ['"']
  | .literal => '\'' :: content ++ ['\'']
  | .basicLines =>
    ['"', '"', '"'] ++ leadIn content ++ escaped true 2 0 content ++ ['"', '"', '"']
  | .literalLines =>
    ['\'', '\'', '\''] ++ leadIn content ++ content ++ ['\'', '\'', '\'']

def quoted (content : String) : String :=
  String.ofList (quoteIn (formOf content.toList) content.toList)

end ScopeGraph.Toml
