import ScopeGraph.Listing

/-!
# TOML values and tables

A table remembers how it came about, because that decides what may still be added to it.
-/
set_option autoImplicit false

namespace ScopeGraph.Toml

/-- How a table came about. -/
inductive Origin where
  /-- It has a header of its own. -/
  | header
  /-- It stands on the way to a table with a header. -/
  | implied
  /-- It stands on the way of a dotted key. -/
  | dotted
  deriving DecidableEq, Repr

inductive Value where
  | string (content : String)
  | integer (value : Int)
  /-- A float is kept as it was written. -/
  | float (digits : String)
  | boolean (value : Bool)
  /-- A date, a time or both, as written. -/
  | dateTime (written : String)
  | array (items : List Value)
  /-- A table between braces; nothing can be added to it. -/
  | inline (entries : List (String × Value))
  | table (origin : Origin) (entries : List (String × Value))
  /-- An array of tables with headers; the last one is open for additions. -/
  | tables (all : List (List (String × Value)))

abbrev Table := Listing Value

namespace Table

/-- Adds an entry below a dotted path.  A table with a header of its own is closed to dotted keys,
and the entry goes only into a table that dotted keys made. -/
def insertDotted (key : String) (value : Value) (receives : Bool) :
    List String → Table → Option Table
  | [], table =>
    if receives && (table.get? key).isNone then some (table.set key value) else none
  | name :: path, table =>
    match table.get? name with
    | none =>
      (insertDotted key value true path []).map fun inner =>
        table.set name (.table .dotted inner)
    | some (.table .dotted inner) =>
      (insertDotted key value true path inner).map fun grown =>
        table.set name (.table .dotted grown)
    | some (.table .implied inner) =>
      (insertDotted key value false path inner).map fun grown =>
        table.set name (.table .implied grown)
    | some (.tables all) =>
      match all.getLast? with
      | none => none
      | some last =>
        (insertDotted key value false path last).map fun grown =>
          table.set name (.tables (all.dropLast ++ [grown]))
    | some _ => none

def insert (path : List String) (key : String) (value : Value) (table : Table) : Option Table :=
  insertDotted key value true path table

/-- Changes the table that a header path leads to; tables that are missing on the way are
implied. -/
def alter (change : Table → Option Table) : List String → Table → Option Table
  | [], table => change table
  | name :: path, table =>
    match table.get? name with
    | none => (alter change path []).map fun inner => table.set name (.table .implied inner)
    | some (.table origin inner) =>
      (alter change path inner).map fun grown => table.set name (.table origin grown)
    | some (.tables all) =>
      match all.getLast? with
      | none => none
      | some last =>
        (alter change path last).map fun grown =>
          table.set name (.tables (all.dropLast ++ [grown]))
    | some _ => none

/-- Opens the table of a header: a new one, or one that was implied so far. -/
def openTable (name : String) (table : Table) : Option Table :=
  match table.get? name with
  | none => some (table.set name (.table .header []))
  | some (.table .implied inner) => some (table.set name (.table .header inner))
  | some _ => none

def openElement (name : String) (table : Table) : Option Table :=
  match table.get? name with
  | none => some (table.set name (.tables [[]]))
  | some (.tables all) => some (table.set name (.tables (all ++ [[]])))
  | some _ => none

end Table
end ScopeGraph.Toml
