import ScopeGraph.Files.DatabaseName
import ScopeGraph.Files.Tree

/-!
# Files beside a database

Changes to a database go through a journal or through a log with an index, files beside its own
whose names are its name with an ending.  When a database is locked it settles what it finds there:
a journal that others left behind is rolled back and removed, a log is taken up and removed when
the database is given up.
-/
set_option autoImplicit false

namespace ScopeGraph.Files

inductive Companion where
  | journal
  | log
  | index
  /-- The directory that locks a database. -/
  | guard
  deriving DecidableEq, Repr

namespace Companion

def ending : Companion → String
  | journal => "-journal"
  | log => "-wal"
  | index => "-shm"
  | guard => ".lock"

def place (companion : Companion) (database : Location) : Location :=
  match database.getLast? with
  | some name => database.dropLast ++ [name.extend companion.ending]
  | none => []

/-- The header of an index without entries: its version, that it is set up, and a checksum. -/
def indexHeader : List UInt8 :=
  [0x18, 0xE2, 0x2D, 0, 0, 0, 0, 0, 0, 0, 0, 0, 1, 0, 0, 0] ++ List.replicate 24 0 ++
    [0x38, 0x07, 0x18, 0x06, 0x35, 0x93, 0xDB, 0x09]

/-- An index without entries: its header twice, and that nobody reads the log. -/
def emptyIndex : Body :=
  .bytes (indexHeader ++ indexHeader ++ List.replicate 8 0 ++ List.replicate 16 0xFF ++
    List.replicate 32648 0)

end Companion

inductive Writing where
  | refused
  | journalled
  /-- Through a log, with its index in a file or in memory. -/
  | logged (indexed : Bool)
  deriving DecidableEq, Repr

/-- What a lock comes to, and the tree after it.  Without a way of writing the lock has failed. -/
structure Locked where
  writing? : Option Writing
  tree : Tree
  deriving DecidableEq, Repr

namespace Body

/-- Files of at most one byte count as databases without content. -/
def isVacant (body : Body) : Bool := body.bytes?.any (·.length ≤ 1)

def isEmpty (body : Body) : Bool := body.bytes? = some []

def startsWithZero (body : Body) : Bool := body.bytes?.any (·.head? = some 0)

/-- A log that can be read without an index of its own: it is shorter than a header, or its header
has no salt. -/
def isPlainLog (body : Body) : Bool :=
  body.bytes?.any fun bytes => bytes.length < 32 || ((bytes.drop 16).take 8).all (· = 0)

end Body

namespace Tree

def itemBehind? (tree : Tree) (location : Location) : Option Item :=
  match tree.walk false linkBudget [] (location.map Step.down) with
  | .ok (.item _ item) => some item
  | _ => none

def isOccupied (tree : Tree) (location : Location) : Bool :=
  match tree.itemBehind? location with
  | some (.file body) => !body.isEmpty
  | some _ => true
  | none => false

def unlink (tree : Tree) (location : Location) : Tree :=
  if tree.item? location = some .directory then tree else tree.erase location

def isNameable (location : Location) : Bool := location.getLast?.all (·.size ≤ Name.longest)

def journalIsFree (tree : Tree) (database : Location) : Bool :=
  let place := Companion.journal.place database
  isNameable place &&
    match tree.item? place with
    | none | some (.file _) => true
    | _ => false

def allows (tree : Tree) (database : Location) : Writing → Bool
  | .refused => false
  | .journalled => tree.journalIsFree database
  | .logged _ => true

/-- Settles the journal of a database: an old one is rolled back and removed, one that starts with
the byte zero is left.  None if it cannot be read. -/
def settleJournal? (tree : Tree) (database : Location) (name : DatabaseName) (vacant : Bool) :
    Option Tree :=
  let place := Companion.journal.place database
  let readOnly := name.access = .read
  if !tree.isOccupied place then some tree
  -- Beside a database without content a journal means nothing.
  else if vacant then
    if readOnly ∧ (name.locking = .shared ∨ name.locking = .exclusive) then some tree
    else some (tree.unlink place)
  else
    match tree.item? place with
    | some (.file body) =>
      if body.startsWithZero then some tree
      else if readOnly then none
      else some (tree.erase place)
    | _ => none

/-- Takes up a log.  Its index is made, unless it is kept in memory; an index that cannot be
written allows to read only. -/
def takeUpLog (tree : Tree) (database : Location) (name : DatabaseName) (log : Body) : Locked :=
  let place := Companion.index.place database
  let readOnly := name.access = .read
  let reading : Option Writing := if log.isPlainLog then some .refused else none
  -- Who keeps the lock to the end can keep the index in memory.
  if name.locking = .exclusive ∧ !readOnly then ⟨some (.logged false), tree⟩
  else
    match tree.item? place with
    | some (.link _) => ⟨none, tree⟩
    | some .directory => ⟨reading, tree⟩
    | index =>
      if name.borrowsIndex then ⟨if index.isSome then reading else none, tree⟩
      else
        ⟨some (if readOnly then .refused else .logged true),
          tree.put place (.file Companion.emptyIndex)⟩

def settleLog (tree : Tree) (database : Location) (name : DatabaseName) (vacant : Bool) : Locked :=
  let place := Companion.log.place database
  let plain : Writing := if name.access = .read then .refused else .journalled
  if !tree.isOccupied place then ⟨some plain, tree⟩
  else
    match tree.item? place with
    | some (.file body) =>
      if vacant then ⟨some plain, tree.erase place⟩
      else if name.locking = .directory ∨ name.locking = .none then ⟨none, tree⟩
      else tree.takeUpLog database name body
    | some (.link _) => if vacant then ⟨some plain, tree.erase place⟩ else ⟨none, tree⟩
    | _ => ⟨none, tree⟩

def settle (tree : Tree) (database : Location) (name : DatabaseName) (vacant : Bool) : Locked :=
  match tree.settleJournal? database name vacant with
  | none => ⟨none, tree⟩
  | some settled => settled.settleLog database name vacant

def lock (tree : Tree) (database : Location) (name : DatabaseName) (vacant : Bool) : Locked :=
  if name.locking = .directory then
    let guard := Companion.guard.place database
    if (tree.item? guard).isSome ∨ ¬ isNameable guard then ⟨none, tree⟩
    else
      let locked := (tree.put guard .directory).settle database name vacant
      ⟨locked.writing?, locked.tree.erase guard⟩
  else tree.settle database name vacant

def release (tree : Tree) (database : Location) : Writing → Tree
  | .refused | .journalled => tree
  | .logged indexed =>
    let bare := tree.erase (Companion.log.place database)
    if indexed then bare.erase (Companion.index.place database) else bare

end Tree
end ScopeGraph.Files
