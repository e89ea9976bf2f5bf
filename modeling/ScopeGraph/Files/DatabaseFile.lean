import ScopeGraph.Files.Companion
import ScopeGraph.Files.DatabaseName
import ScopeGraph.Store.Database
import ScopeGraph.Store.Guarded

/-!
# Database files

A database is opened by a path that is cleaned up first: links are resolved name by name and a
step up takes away the name before it, whether that exists or not.  A file that is missing is made
first; it stays empty if it cannot be turned into a database without content.
-/
set_option autoImplicit false

namespace ScopeGraph.Files

/-- A database that was opened, and the file it is kept in; without a file it is in memory. -/
structure Session where
  name : DatabaseName
  location? : Option Location
  database : Database
  writing : Writing
  deriving DecidableEq, Repr

structure Opened where
  result : Except Error Session
  tree : Tree

namespace Tree

def pathSize (location : Location) : Nat :=
  location.foldl (fun size name => size + 1 + name.size) 0

def longestPassage : Nat := 511

/-- The longest absolute path of a database, so that its journal has one too. -/
def longestDatabasePath : Nat := 504

/-- Follows the names of a path until a link has to be resolved; gives the location so far and the
link with the steps behind it. -/
def cleanLeg (tree : Tree) (location : Location) :
    List Step → Except Unit (Location × Option (String × List Step))
  | [] => .ok (location, none)
  | .stay :: rest | .slash :: rest => cleanLeg tree location rest
  | .up :: rest => cleanLeg tree location.dropLast rest
  | .down name :: rest =>
    if Name.longest < name.size ∨ longestPassage < pathSize (location ++ [name]) then .error ()
    else
      match tree.item? (location ++ [name]) with
      | some (.link target) => .ok (location, some (target, rest))
      | some _ => cleanLeg tree (location ++ [name]) rest
      | none =>
        -- A name that is missing may be gone back from, but below a file there is nothing.
        match tree.item? location with
        | some (.file _) => .error ()
        | _ => cleanLeg tree (location ++ [name]) rest

def clean (tree : Tree) (budget : Nat) (location : Location) (steps : List Step) :
    Except Unit Location :=
  match tree.cleanLeg location steps with
  | .error () => .error ()
  | .ok (place, none) => .ok place
  | .ok (place, some (target, rest)) =>
    match budget with
    | 0 => .error ()
    | left + 1 => tree.clean left (startOf target place) (Path.steps target ++ rest)

def databaseLinkBudget : Nat := 201

def stepsOfBytes (path : List UInt8) : List Step :=
  ((Text.splitAt 0x2F path).filter (· ≠ [])).map fun part => Step.ofName (Name.ofBytes part)

def startOfBytes (path : List UInt8) (directory : Location) : Location :=
  if path.head? = some 0x2F then [] else directory

def hasBytes (tree : Tree) (path : List UInt8) : Bool :=
  match Name.ofBytes path with
  | .text content => tree.has content
  | .raw bytes =>
    bytes.length < 4096 &&
      match tree.walk false linkBudget (startOfBytes bytes tree.here)
        (stepsOfBytes bytes ++ if bytes.getLast? = some 0x2F then [.slash] else []) with
      | .ok (.item _ _) => true
      | _ => false

def placeDatabase? (tree : Tree) (name : DatabaseName) : Option (Location × Tree) :=
  match tree.clean databaseLinkBudget (startOfBytes name.path tree.here)
      (stepsOfBytes name.path) with
  | .error () => none
  | .ok location =>
    if longestDatabasePath < pathSize location ∨ ¬ name.model?.all tree.hasBytes then none
    else
      match tree.item? location, tree.item? location.dropLast with
      | some (.file _), _ => some (location, tree)
      | none, some .directory =>
        if name.access = .create then some (location, tree.put location (.file (.text "")))
        else none
      | _, _ => none

/-- Turns a file into a database without content, table by table: the database is given up and
locked again between the tables. -/
def foundDatabase (tree : Tree) (location : Location) (name : DatabaseName) (writing : Writing) :
    Opened :=
  if !tree.allows location writing then ⟨.error .storage, tree.release location writing⟩
  else
    let session (writing : Writing) : Session := ⟨name, some location, .ofContent .empty, writing⟩
    match writing with
    | .journalled =>
      let begun := tree.erase (Companion.journal.place location)
      let locked := (begun.put location (.file .unfinished)).lock location name false
      match locked.writing? with
      | none => ⟨.error .storage, locked.tree⟩
      | some next => ⟨.ok (session next), locked.tree.put location (.file (.graph .empty))⟩
    | other => ⟨.ok (session other), tree.put location (.file (.graph .empty))⟩

def startSession (tree : Tree) (location : Location) (name : DatabaseName) (body : Body) : Opened :=
  let locked :=
    if name.frozen then ⟨some .refused, tree⟩ else tree.lock location name body.isVacant
  match locked.writing?, body with
  | none, _ => ⟨.error .storage, locked.tree⟩
  | some writing, .graph content =>
    ⟨.ok ⟨name, some location, .ofContent content, writing⟩, locked.tree⟩
  | some writing, other =>
    if other.isVacant ∨ other = .unfinished then locked.tree.foundDatabase location name writing
    else ⟨.error .storage, locked.tree.release location writing⟩

def openDatabase (tree : Tree) (text : String) : Opened :=
  match DatabaseName.ofText? text with
  | none => ⟨.error .storage, tree⟩
  | some name =>
    match name.inMemory? with
    | some true => ⟨.ok ⟨name, none, .ofContent .empty, .journalled⟩, tree⟩
    | some false => ⟨.error .storage, tree⟩
    | none =>
      match tree.placeDatabase? name with
      | none => ⟨.error .storage, tree⟩
      | some (location, placed) =>
        match placed.item? location with
        | some (.file body) => placed.startSession location name body
        | _ => ⟨.error .storage, placed⟩

/-- The database at a location is still the one that was opened. -/
def holdsGraph (tree : Tree) (location : Location) : Bool :=
  match tree.item? location with
  | some (.file (.graph _)) => true
  | _ => false

end Tree

namespace Session

def relock (session : Session) (location : Location) (tree : Tree) : Locked :=
  match session.writing, tree.item? location with
  | .journalled, some (.file body) => tree.lock location session.name body.isVacant
  | writing, _ => ⟨some writing, tree⟩

/-- The database of a session as it is reached through a tree, and the tree after the changes to
come. -/
def reach (session : Session) (tree : Tree) : Guarded Database × Tree :=
  match session.location? with
  | none => (⟨session.database, true⟩, tree)
  | some location =>
    let locked := session.relock location tree
    let writing := locked.writing?.getD .refused
    let isWritable := locked.tree.holdsGraph location && locked.tree.allows location writing
    let settled := locked.tree.release location writing
    -- The changes leave no journal, be it an old one.
    if isWritable ∧ writing = .journalled then
      (⟨session.database, true⟩, settled.erase (Companion.journal.place location))
    else (⟨session.database, isWritable⟩, settled)

def leave (session : Session) (store? : Option (Guarded Database)) (tree : Tree) : Tree :=
  match session.location? with
  | none => tree
  | some location =>
    let kept :=
      match store? with
      | some ⟨database, true⟩ => tree.put location (.file (.graph database.committed))
      | _ => tree
    kept.release location session.writing

end Session
end ScopeGraph.Files
