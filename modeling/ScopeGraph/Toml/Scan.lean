import ScopeGraph.Text.Characters

/-!
# Blanks, comments and strings of TOML

A reader takes what it reads from the front of a text and gives back the rest.
-/
set_option autoImplicit false

namespace ScopeGraph.Toml

abbrev Reader (α : Type) := List Char → Option (α × List Char)

def isGap (c : Char) : Bool := c = ' ' || c = '\t'

def isPlain (c : Char) : Bool := c = '\t' || (32 ≤ c.toNat && c.toNat ≠ 127)

def skipGaps (text : List Char) : List Char := text.dropWhile isGap

def lineBreak? : List Char → Option (List Char)
  | '\n' :: rest => some rest
  | '\r' :: '\n' :: rest => some rest
  | _ => none

def skipComment : List Char → List Char
  | '#' :: rest => rest.dropWhile isPlain
  | text => text

def endLine? (text : List Char) : Option (List Char) :=
  match skipComment (skipGaps text) with
  | [] => some []
  | rest => lineBreak? rest

def skipSpace (inComment : Bool) : List Char → List Char
  | [] => []
  | '\r' :: '\n' :: rest => skipSpace false rest
  | c :: rest =>
    if (inComment && isPlain c) then skipSpace true rest
    else if isGap c || c = '\n' then skipSpace false rest
    else if c = '#' then skipSpace true rest
    else c :: rest

/-! ## Strings -/

/-- The four forms of a string. -/
structure Quoting where
  quote : Char
  escapes : Bool
  multiline : Bool
  deriving DecidableEq, Repr

/-- Where the reading of a string is. -/
inductive Mode where
  | plain
  /-- Behind a backslash. -/
  | escaped
  /-- Inside of a character code, with the digits that are to come and the value so far. -/
  | code (left value : Nat)
  /-- Behind a backslash and gaps, before the line break that must follow. -/
  | lineEnd
  /-- Behind a line break that counts as nothing. -/
  | trimming
  deriving DecidableEq, Repr

inductive Action where
  | push (c : Char) (next : Mode)
  | skip (next : Mode)
  /-- The end of the string, with the quotes that still belong to it. -/
  | close (quotes : List Char) (rest : List Char)
  | refuse

def charOfCode? (code : Nat) : Option Char :=
  if code.isValidChar then some (Char.ofNat code) else none

namespace Quoting

/-- A quote ends the string, but a string over several lines ends with three of them; up to two
more in front of those belong to it. -/
def atQuote (quoting : Quoting) (rest : List Char) : Action :=
  if quoting.multiline then
    match (rest.takeWhile (· = quoting.quote)).length with
    | 0 | 1 => .push quoting.quote .plain
    | 2 => .close [] (rest.drop 2)
    | 3 => .close [quoting.quote] (rest.drop 3)
    | _ => .close [quoting.quote, quoting.quote] (rest.drop 4)
  else .close [] rest

def atPlain (quoting : Quoting) (c : Char) (rest : List Char) : Action :=
  if c = quoting.quote then quoting.atQuote rest
  else if c = '\\' ∧ quoting.escapes then .skip .escaped
  else if c = '\n' then if quoting.multiline then .push '\n' .plain else .refuse
  else if c = '\r' then
    if quoting.multiline ∧ rest.head? = some '\n' then .skip .plain else .refuse
  else if isPlain c then .push c .plain
  else .refuse

def atLineEnd (quoting : Quoting) (c : Char) (rest : List Char) : Action :=
  if !quoting.multiline then .refuse
  else if isGap c then .skip .lineEnd
  else if c = '\n' then .skip .trimming
  else if c = '\r' ∧ rest.head? = some '\n' then .skip .lineEnd
  else .refuse

def atEscape (quoting : Quoting) (c : Char) (rest : List Char) : Action :=
  match c with
  | 'b' => .push '\x08' .plain
  | 't' => .push '\t' .plain
  | 'n' => .push '\n' .plain
  | 'f' => .push '\x0c' .plain
  | 'r' => .push '\r' .plain
  | '"' => .push '"' .plain
  | '\\' => .push '\\' .plain
  | 'u' => .skip (.code 4 0)
  | 'U' => .skip (.code 8 0)
  | _ => quoting.atLineEnd c rest

def atCode (left value : Nat) (c : Char) : Action :=
  match Text.hexValue? c with
  | none => .refuse
  | some digit =>
    if left ≤ 1 then
      match charOfCode? (value * 16 + digit) with
      | some decoded => .push decoded .plain
      | none => .refuse
    else .skip (.code (left - 1) (value * 16 + digit))

def step (quoting : Quoting) (mode : Mode) (c : Char) (rest : List Char) : Action :=
  match mode with
  | .plain => quoting.atPlain c rest
  | .escaped => quoting.atEscape c rest
  | .code left value => atCode left value c
  | .lineEnd => quoting.atLineEnd c rest
  | .trimming =>
    if isGap c ∨ c = '\n' ∨ (c = '\r' ∧ rest.head? = some '\n') then .skip .trimming
    else quoting.atPlain c rest

def body (quoting : Quoting) (mode : Mode) : Reader (List Char)
  | [] => none
  | c :: rest =>
    match quoting.step mode c rest with
    | .push decoded next =>
      (body quoting next rest).map fun read => (decoded :: read.1, read.2)
    | .skip next => body quoting next rest
    | .close quotes after => some (quotes, after)
    | .refuse => none

def read (quoting : Quoting) (text : List Char) : Option (String × List Char) :=
  (quoting.body .plain text).map fun read => (String.ofList read.1, read.2)

/-- The line break right behind the opening quotes does not count. -/
def readLines (quote : Char) (escapes : Bool) (text : List Char) : Option (String × List Char) :=
  read ⟨quote, escapes, true⟩ ((lineBreak? text).getD text)

end Quoting

def shortString? : Reader String
  | '"' :: rest => Quoting.read ⟨'"', true, false⟩ rest
  | '\'' :: rest => Quoting.read ⟨'\'', false, false⟩ rest
  | _ => none

def string? : Reader String
  | '"' :: '"' :: '"' :: rest => Quoting.readLines '"' true rest
  | '\'' :: '\'' :: '\'' :: rest => Quoting.readLines '\'' false rest
  | text => shortString? text

/-! ## Keys -/

def isKeyChar (c : Char) : Bool := c.isAlphanum || c = '-' || c = '_'

def simpleKey? (text : List Char) : Option (String × List Char) :=
  match shortString? text with
  | some read => some read
  | none =>
    match text.takeWhile isKeyChar with
    | [] => none
    | name => some (String.ofList name, text.dropWhile isKeyChar)

/-- Names between dots, at most as many as the fuel. -/
def keyPath? : Nat → Reader (List String)
  | 0, _ => none
  | fuel + 1, text =>
    match simpleKey? (skipGaps text) with
    | none => none
    | some (name, rest) =>
      match skipGaps rest with
      | '.' :: more => (keyPath? fuel more).map fun read => (name :: read.1, read.2)
      | more => some ([name], more)

/-- The number of names in a key, and the depth of nested values, stay below this. -/
def nestingLimit : Nat := 80

def key? (text : List Char) : Option ((List String × String) × List Char) :=
  match keyPath? (nestingLimit - 1) text with
  | some (names, rest) => names.getLast?.map fun last => ((names.dropLast, last), rest)
  | none => none

end ScopeGraph.Toml
