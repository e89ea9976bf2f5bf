import ScopeGraph.Error
import ScopeGraph.Files.Name
import ScopeGraph.Files.Path
import ScopeGraph.Graph.Content

/-!
# File trees

A file tree gives an item to each location, a location being the names from the root down.  Paths
are looked up from the current directory; the links met on the way are followed, up to a limit.
-/
set_option autoImplicit false

namespace ScopeGraph.Files

inductive Body where
  | text (content : String)
  /-- Bytes that need not be text. -/
  | bytes (content : List UInt8)
  | graph (content : Content)
  /-- A graph database that lacks some of its tables. -/
  | unfinished
  deriving DecidableEq, Repr

namespace Body

def text? : Body → Option String
  | text content => some content
  | bytes content => String.fromUTF8? ⟨content.toArray⟩
  | graph _ | unfinished => none

def bytes? : Body → Option (List UInt8)
  | text content => some content.toUTF8.toList
  | bytes content => some content
  | graph _ | unfinished => none

def ofBytes (content : List UInt8) : Body :=
  match String.fromUTF8? ⟨content.toArray⟩ with
  | some readable => .text readable
  | none => .bytes content

end Body

inductive Item where
  | directory
  | file (body : Body)
  | link (target : String)
  deriving DecidableEq, Repr

/-- The names that lead from the root to an item. -/
abbrev Location := List Name

structure Tree where
  here : Location
  items : List (Location × Item)
  deriving DecidableEq, Repr

inductive Step where
  | down (name : Name)
  | up
  | stay
  /-- A slash at the end of a path. -/
  | slash
  deriving DecidableEq, Repr

def Step.ofName (name : Name) : Step :=
  if name = .text "." then .stay else if name = .text ".." then .up else .down name

inductive Place where
  | item (location : Location) (item : Item)
  /-- Nothing is there, but its directory is. -/
  | vacant (location : Location)
  deriving DecidableEq, Repr

/-- What becomes of a walk before it has to follow a link. -/
inductive Leg where
  | arrived (place : Place)
  | refused (refusal : Refusal)
  | link (directory : Location) (target : String) (rest : List Step)
  deriving DecidableEq, Repr

namespace Path

def endsInSlash (path : String) : Bool := path.toList.getLast? = some '/'

def steps (path : String) : List Step :=
  match (parts path).map fun part => Step.ofName (.text part) with
  | [] => []
  | steps => if endsInSlash path then steps ++ [.slash] else steps

def void? (path : String) : Option Refusal :=
  if '\x00' ∈ path.toList then some .nulInPath
  else if path = "" then some .notFound
  else none

/-- Paths that are refused before any walk. -/
def fault? (path : String) : Option Refusal :=
  match void? path with
  | some refusal => some refusal
  | none => if 4096 ≤ path.utf8ByteSize then some .nameTooLong else none

end Path

namespace Tree

def item? (tree : Tree) : Location → Option Item
  | [] => some .directory
  | location => (tree.items.find? (·.1 = location)).map Prod.snd

def erase (tree : Tree) (location : Location) : Tree :=
  { tree with items := tree.items.filter (·.1 ≠ location) }

def put (tree : Tree) (location : Location) (item : Item) : Tree :=
  { tree with items := place tree.items }
where
  place : List (Location × Item) → List (Location × Item)
    | [] => [(location, item)]
    | entry :: rest => if entry.1 = location then (location, item) :: rest else entry :: place rest

/-- Walks from a directory until it arrives, is refused or meets a link.  A walk that is to create
a file refuses a name with a slash behind it. -/
def leg (tree : Tree) (creating : Bool) (location : Location) : List Step → Leg
  | [] => .arrived (.item location .directory)
  | .stay :: rest | .slash :: rest => leg tree creating location rest
  | .up :: rest => leg tree creating location.dropLast rest
  | .down name :: rest =>
    if creating ∧ rest = [.slash] then .refused .isDirectory
    else if Name.longest < name.size then .refused .nameTooLong
    else
      match tree.item? (location ++ [name]) with
      | some .directory => leg tree creating (location ++ [name]) rest
      | some (.link target) => .link location target rest
      | some (.file body) =>
        if rest = [] then .arrived (.item (location ++ [name]) (.file body))
        else .refused .notDirectory
      | none =>
        if rest = [] then .arrived (.vacant (location ++ [name])) else .refused .notFound

def startOf (path : String) (directory : Location) : Location :=
  if Path.isAbsolute path then [] else directory

/-- Walks and follows links, as many as the budget allows. -/
def walk (tree : Tree) (creating : Bool) (budget : Nat) (location : Location) (steps : List Step) :
    Except Refusal Place :=
  match tree.leg creating location steps with
  | .arrived place => .ok place
  | .refused refusal => .error refusal
  | .link directory target rest =>
    match budget with
    | 0 => .error .tooManyLinks
    | left + 1 =>
      tree.walk creating left (startOf target directory) (Path.steps target ++ rest)

def linkBudget : Nat := 40

def find (tree : Tree) (creating : Bool) (path : String) : Except Refusal Place :=
  match Path.fault? path with
  | some refusal => .error refusal
  | none => tree.walk creating linkBudget (startOf path tree.here) (Path.steps path)

/-! ## Questions -/

def resolve (tree : Tree) (path : String) : Except Refusal (Location × Item) :=
  match tree.find false path with
  | .ok (.item location item) => .ok (location, item)
  | .ok (.vacant _) => .error .notFound
  | .error refusal => .error refusal

/-- The location that a path leads to, which may be a path of any length. -/
def canonical (tree : Tree) (path : String) : Except Refusal Location :=
  match Path.void? path with
  | some refusal => .error refusal
  | none =>
    match tree.walk false linkBudget (startOf path tree.here) (Path.steps path) with
    | .ok (.item location _) => .ok location
    | .ok (.vacant _) => .error .notFound
    | .error refusal => .error refusal

def has (tree : Tree) (path : String) : Bool := (tree.resolve path).isOk

def hasDirectory (tree : Tree) (path : String) : Bool :=
  match tree.resolve path with
  | .ok (_, .directory) => true
  | _ => false

def readText (tree : Tree) (path : String) : Except Refusal String :=
  match tree.resolve path with
  | .error refusal => .error refusal
  | .ok (_, .file body) =>
    match body.text? with
    | some text => .ok text
    | none => .error .notUnicode
  | .ok _ => .error .isDirectory

/-- The regular files below a directory with the names that lead to them from there, in the order
of the bytes of their paths. -/
def filesBelow (tree : Tree) (directory : Location) : List (Location × Body) :=
  (tree.items.filterMap fun entry =>
    match entry with
    | (location, .file body) =>
      if directory <+: location ∧ location ≠ directory then
        some (location.drop directory.length, body)
      else none
    | _ => none).mergeSort fun first second => pathBytes first.1 ≤ pathBytes second.1
where
  pathBytes (location : Location) : List UInt8 := [0x2F].intercalate (location.map Name.bytes)

end Tree
end ScopeGraph.Files
