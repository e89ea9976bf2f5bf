import ScopeGraph.Text.Characters

/-!
# JSON texts

Values are written compactly or over several lines.  A string is written with the short escapes
where there is one, with `\u` and four lower-case hexadecimal digits for the other control
characters below U+0020, and plainly otherwise.
-/
set_option autoImplicit false

namespace ScopeGraph

inductive Json where
  | null
  | bool (value : Bool)
  | number (value : Nat)
  | string (value : String)
  | array (items : List Json)
  | object (entries : List (String × Json))
deriving Inhabited

namespace Json

def escape (c : Char) : List Char :=
  if c = '"' then ['\\', '"']
  else if c = '\\' then ['\\', '\\']
  else if c = '\n' then ['\\', 'n']
  else if c = '\r' then ['\\', 'r']
  else if c = '\t' then ['\\', 't']
  else if c = '\x08' then ['\\', 'b']
  else if c = '\x0c' then ['\\', 'f']
  else if c.toNat < 32 then
    ['\\', 'u', '0', '0', Text.lowerHexDigit (c.toNat / 16), Text.lowerHexDigit (c.toNat % 16)]
  else [c]

def quote (text : String) : List Char := '"' :: text.toList.flatMap escape ++ ['"']

mutual

def compact : Json → List Char
  | null => "null".toList
  | bool value => (if value then "true" else "false").toList
  | number value => (toString value).toList
  | string value => quote value
  | array items => '[' :: compactItems items ++ [']']
  | object entries => '\x7b' :: compactEntries entries ++ ['\x7d']

def compactItems : List Json → List Char
  | [] => []
  | [item] => item.compact
  | item :: next :: rest => item.compact ++ ',' :: compactItems (next :: rest)

def compactEntries : List (String × Json) → List Char
  | [] => []
  | [(name, value)] => quote name ++ ':' :: value.compact
  | (name, value) :: next :: rest =>
    quote name ++ ':' :: value.compact ++ ',' :: compactEntries (next :: rest)

end

def render (json : Json) : String := String.ofList json.compact

/-- A line break and two blanks per level. -/
def newLine (depth : Nat) : List Char := '\n' :: List.replicate (2 * depth) ' '

mutual

/-- Over several lines; `depth` is the level at which the value stands. -/
def spread (depth : Nat) : Json → List Char
  | null => "null".toList
  | bool value => (if value then "true" else "false").toList
  | number value => (toString value).toList
  | string value => quote value
  | array [] => ['[', ']']
  | array (item :: rest) =>
    '[' :: spreadItems (depth + 1) (item :: rest) ++ newLine depth ++ [']']
  | object [] => ['\x7b', '\x7d']
  | object (entry :: rest) =>
    '\x7b' :: spreadEntries (depth + 1) (entry :: rest) ++ newLine depth ++ ['\x7d']

def spreadItems (depth : Nat) : List Json → List Char
  | [] => []
  | [item] => newLine depth ++ item.spread depth
  | item :: next :: rest =>
    newLine depth ++ item.spread depth ++ ',' :: spreadItems depth (next :: rest)

def spreadEntries (depth : Nat) : List (String × Json) → List Char
  | [] => []
  | [(name, value)] => newLine depth ++ quote name ++ ':' :: ' ' :: value.spread depth
  | (name, value) :: next :: rest =>
    newLine depth ++ quote name ++ ':' :: ' ' :: value.spread depth ++
      ',' :: spreadEntries depth (next :: rest)

end

def renderSpread (json : Json) : String := String.ofList (json.spread 0)

end Json
end ScopeGraph
