import ScopeGraph.Toml.Scalar

/-!
# TOML documents

A document is a list of lines: blank ones, headers and entries.  An entry goes into the table of
the last header before it.
-/
set_option autoImplicit false

namespace ScopeGraph.Toml

/-- The items of an array behind its bracket, at most as many as the fuel. -/
def items? (read : Reader Value) : Nat → Reader (List Value)
  | 0, _ => none
  | fuel + 1, text =>
    match skipSpace false text with
    | ']' :: rest => some ([], rest)
    | start =>
      match read start with
      | none => none
      | some (item, behind) =>
        match skipSpace false behind with
        | ',' :: rest => (items? read fuel rest).map fun others => (item :: others.1, others.2)
        | ']' :: rest => some ([item], rest)
        | _ => none

def entry? (read : Reader Value) (text : List Char) :
    Option (((List String × String) × Value) × List Char) :=
  match key? text with
  | some (key, '=' :: rest) => (read (skipGaps rest)).map fun value => ((key, value.1), value.2)
  | _ => none

def inlineEntries? (read : Reader Value) : Nat → Table → Reader Table
  | 0, _, _ => none
  | fuel + 1, table, text =>
    match entry? read text with
    | none => none
    | some (((path, key), value), behind) =>
      match table.insert path key value with
      | none => none
      | some grown =>
        match skipGaps behind with
        | ',' :: rest => inlineEntries? read fuel grown rest
        | '\x7d' :: rest => some (grown, rest)
        | _ => none

def inlineTable? (read : Reader Value) (text : List Char) : Option (Table × List Char) :=
  match skipGaps text with
  | '\x7d' :: rest => some ([], rest)
  | start => inlineEntries? read (start.length + 1) [] start

/-- Reads a value with less than so many levels of nesting. -/
def value? : Nat → Reader Value
  | _, '"' :: rest => (string? ('"' :: rest)).map fun read => (.string read.1, read.2)
  | _, '\'' :: rest => (string? ('\'' :: rest)).map fun read => (.string read.1, read.2)
  | 0, '[' :: _ => none
  | 0, '\x7b' :: _ => none
  | depth + 1, '[' :: rest =>
    (items? (value? depth) (rest.length + 1) rest).map fun read => (.array read.1, read.2)
  | depth + 1, '\x7b' :: rest =>
    (inlineTable? (value? depth) rest).map fun read => (.inline read.1, read.2)
  | _, text => bare? text

def documentValue? : Reader Value := value? (nestingLimit - 1)

/-- A document that is being read: its root and the header that entries stand under. -/
structure Draft where
  root : Table
  header : List String

namespace Draft

def start : Draft := ⟨[], []⟩

def openTable (draft : Draft) (path : List String) (name : String) : Option Draft :=
  (draft.root.alter (Table.openTable name) path).map fun root => ⟨root, path ++ [name]⟩

def openElement (draft : Draft) (path : List String) (name : String) : Option Draft :=
  (draft.root.alter (Table.openElement name) path).map fun root => ⟨root, path ++ [name]⟩

def insert (draft : Draft) (path : List String) (name : String) (value : Value) : Option Draft :=
  (draft.root.alter (Table.insert path name value) draft.header).map fun root =>
    { draft with root }

end Draft

def line? (draft : Draft) : Reader Draft
  | '[' :: '[' :: rest =>
    match key? rest with
    | some ((path, name), ']' :: ']' :: behind) =>
      (draft.openElement path name).bind fun next =>
        (endLine? behind).map fun after => (next, after)
    | _ => none
  | '[' :: rest =>
    match key? rest with
    | some ((path, name), ']' :: behind) =>
      (draft.openTable path name).bind fun next => (endLine? behind).map fun after => (next, after)
    | _ => none
  | text =>
    match endLine? text with
    | some after => some (draft, after)
    | none =>
      match entry? documentValue? text with
      | some (((path, name), value), behind) =>
        (draft.insert path name value).bind fun next =>
          (endLine? behind).map fun after => (next, after)
      | none => none

def lines? : Nat → Draft → List Char → Option Draft
  | 0, _, _ => none
  | fuel + 1, draft, text =>
    match skipGaps text with
    | [] => some draft
    | start =>
      match line? draft start with
      | some (next, rest) => lines? fuel next rest
      | none => none

/-- Reads a document; a byte order mark in front does not count. -/
def parse? (text : String) : Option Table :=
  let chars := text.toList
  let start := if chars.head? = some '\uFEFF' then chars.tail else chars
  (lines? (start.length + 1) .start start).map Draft.root

end ScopeGraph.Toml
