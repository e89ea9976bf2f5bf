import ScopeGraph.Graph.Content
import ScopeGraph.Store.Contract

/-!
# The database store

A database has its committed content and, during a transaction, a working content beside it.
Outside of a transaction each merge is committed at once.  Dropping a database loses the working
content.
-/
set_option autoImplicit false

namespace ScopeGraph

structure Database where
  committed : Content
  /-- The content inside of the open transaction. -/
  working? : Option Content
  isOpen : Bool
  deriving DecidableEq, Repr

namespace Database

/-- A session on a database with this content. -/
def ofContent (content : Content) : Database := ⟨content, none, true⟩

def content (database : Database) : Content := database.working?.getD database.committed

def start (database : Database) : Reply Database :=
  if database.working?.isSome then ⟨.ok (), database⟩
  else if database.isOpen then ⟨.ok (), { database with working? := some database.committed }⟩
  else ⟨.error .storeClosed, database⟩

def merge (op : MergeOp) (database : Database) : Reply Database :=
  if database.isOpen then
    match database.working? with
    | some working => ⟨.ok (), { database with working? := some (working.merge op) }⟩
    | none => ⟨.ok (), { database with committed := database.committed.merge op }⟩
  else ⟨.error .storeClosed, database⟩

def commit (database : Database) : Reply Database :=
  match database.working? with
  | none => ⟨.ok (), database⟩
  | some working =>
    if database.isOpen then ⟨.ok (), { database with committed := working, working? := none }⟩
    else ⟨.error .storeClosed, database⟩

def rollback (database : Database) : Reply Database :=
  match database.working? with
  | none => ⟨.ok (), database⟩
  | some _ =>
    if database.isOpen then ⟨.ok (), { database with working? := none }⟩
    else ⟨.error .storeClosed, database⟩

def close (database : Database) : Reply Database :=
  ⟨.ok (), if database.isOpen then ⟨database.committed, none, false⟩ else database⟩

instance : GraphStore Database where
  call
    | .start => start
    | .merge op => merge op
    | .commit => commit
    | .rollback => rollback
    | .close => close
  inTransaction database := database.working?.isSome

/-- Asks the content of an open database. -/
def ask {α : Type} (database : Database) (question : Content → Except Error α) : Except Error α :=
  if database.isOpen then question database.content else .error .storeClosed

end Database
end ScopeGraph
