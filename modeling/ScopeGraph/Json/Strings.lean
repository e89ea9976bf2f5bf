import ScopeGraph.Dictionary
import ScopeGraph.Json.Basic

/-!
# JSON objects of strings

Properties are stored as the text of a JSON object whose values are strings.  The reader goes
through the text character by character; it refuses everything else, a lone surrogate and a control
character inside of a string included.  Of several entries with one name the last counts.
-/
set_option autoImplicit false

namespace ScopeGraph

namespace Properties

def toJson (properties : Properties) : Json :=
  .object (properties.entries.map fun entry => (entry.1, .string entry.2))

def toText (properties : Properties) : String := properties.toJson.render

/-- What may come next between two strings. -/
inductive Place where
  | start
  /-- After the opening brace. -/
  | firstName
  /-- After a comma. -/
  | name
  | colon (name : String)
  | value (name : String)
  /-- After a value. -/
  | next
  | finished

inductive Inside where
  | plain
  | escaped
  /-- Hexadecimal digits still to come, and the number so far. -/
  | unit (digits : Nat) (value : Nat)
  /-- After the first half of a surrogate pair. -/
  | backslash (high : Nat)
  | letter (high : Nat)
  | lowUnit (high : Nat) (digits : Nat) (value : Nat)

inductive Reader where
  | between (place : Place) (done : Properties)
  /-- `chars` are the characters of the string, the last one first. -/
  | string (place : Place) (inside : Inside) (chars : List Char) (done : Properties)

def isJsonBlank (c : Char) : Bool := c = ' ' || c = '\n' || c = '\t' || c = '\r'

def shortEscape? (c : Char) : Option Char :=
  if c = '"' then some '"'
  else if c = '\\' then some '\\'
  else if c = '/' then some '/'
  else if c = 'b' then some '\x08'
  else if c = 'f' then some '\x0c'
  else if c = 'n' then some '\n'
  else if c = 'r' then some '\r'
  else if c = 't' then some '\t'
  else none

namespace Reader

def closeString (place : Place) (text : String) (done : Properties) : Option Reader :=
  match place with
  | .firstName | .name => some (.between (.colon text) done)
  | .value name => some (.between .next (done.insert name text))
  | _ => none

/-- A character between two strings. -/
def stepBetween (place : Place) (done : Properties) (c : Char) : Option Reader :=
  if isJsonBlank c then some (.between place done)
  else
    match place with
    | .start => if c = '\x7b' then some (.between .firstName done) else none
    | .firstName =>
      if c = '"' then some (.string .firstName .plain [] done)
      else if c = '\x7d' then some (.between .finished done)
      else none
    | .name => if c = '"' then some (.string .name .plain [] done) else none
    | .colon name => if c = ':' then some (.between (.value name) done) else none
    | .value name => if c = '"' then some (.string (.value name) .plain [] done) else none
    | .next =>
      if c = ',' then some (.between .name done)
      else if c = '\x7d' then some (.between .finished done)
      else none
    | .finished => none

def closeUnit (place : Place) (chars : List Char) (done : Properties) (unit : Nat) :
    Option Reader :=
  if 0xD800 ≤ unit ∧ unit < 0xDC00 then some (.string place (.backslash unit) chars done)
  else if 0xDC00 ≤ unit ∧ unit < 0xE000 then none
  else some (.string place .plain (Char.ofNat unit :: chars) done)

def closePair (place : Place) (chars : List Char) (done : Properties) (high low : Nat) :
    Option Reader :=
  if 0xDC00 ≤ low ∧ low < 0xE000 then
    let code := 0x10000 + (high - 0xD800) * 0x400 + (low - 0xDC00)
    some (.string place .plain (Char.ofNat code :: chars) done)
  else none

def stepInside (place : Place) (inside : Inside) (chars : List Char) (done : Properties)
    (c : Char) : Option Reader :=
  match inside with
  | .plain =>
    if c = '"' then closeString place (String.ofList chars.reverse) done
    else if c = '\\' then some (.string place .escaped chars done)
    else if c.toNat < 32 then none
    else some (.string place .plain (c :: chars) done)
  | .escaped =>
    if c = 'u' then some (.string place (.unit 4 0) chars done)
    else (shortEscape? c).map fun plain => .string place .plain (plain :: chars) done
  | .unit digits value =>
    (Text.hexValue? c).bind fun digit =>
      if digits = 1 then closeUnit place chars done (value * 16 + digit)
      else some (.string place (.unit (digits - 1) (value * 16 + digit)) chars done)
  | .backslash high => if c = '\\' then some (.string place (.letter high) chars done) else none
  | .letter high => if c = 'u' then some (.string place (.lowUnit high 4 0) chars done) else none
  | .lowUnit high digits value =>
    (Text.hexValue? c).bind fun digit =>
      if digits = 1 then closePair place chars done high (value * 16 + digit)
      else some (.string place (.lowUnit high (digits - 1) (value * 16 + digit)) chars done)

def step : Reader → Char → Option Reader
  | .between place done, c => stepBetween place done c
  | .string place inside chars done, c => stepInside place inside chars done c

def run : Reader → List Char → Option Reader
  | reader, [] => some reader
  | reader, c :: rest => (reader.step c).bind fun next => run next rest

end Reader

def ofText? (text : String) : Option Properties :=
  match Reader.run (.between .start .empty) text.toList with
  | some (.between .finished done) => some done
  | _ => none

end Properties
end ScopeGraph
