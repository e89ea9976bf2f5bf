import ScopeGraph.Graph.Cypher
import ScopeGraph.Store.Contract
import ScopeGraph.Store.Sink

/-!
# The script store

A script collects the statements of a transaction and writes them on commit as one line of JSON.
Outside of a transaction each merge is a line of its own.
-/
set_option autoImplicit false

namespace ScopeGraph

structure Script where
  sink : Sink
  isOpen : Bool
  inTransaction : Bool
  /-- Statements of the open transaction. -/
  pending : List CypherStatement
  /-- Statements of the lines that were written whole. -/
  committed : Nat
  deriving DecidableEq

namespace Script

def onSink (sink : Sink) : Script := ⟨sink, true, false, [], 0⟩

def line (statements : List CypherStatement) : String :=
  (CypherStatement.payload statements).render

/-- The JSON text, the line break and the flush; what fails first ends it. -/
def writeLine (statements : List CypherStatement) (sink : Sink) : Except Error Unit × Sink :=
  match sink.write (utf8Bytes (line statements)) with
  | (.error _, next) => (.error .serialization, next)
  | (.ok (), next) =>
    match next.write (utf8Bytes "\n") with
    | (.error refusal, last) => (.error (.io refusal), last)
    | (.ok (), last) =>
      match last.flush with
      | .error refusal => (.error (.io refusal), last)
      | .ok () => (.ok (), last)

def put (statements : List CypherStatement) (script : Script) : Reply Script :=
  if script.isOpen then
    match writeLine statements script.sink with
    | (.error cause, sink) => ⟨.error cause, { script with sink }⟩
    | (.ok (), sink) =>
      ⟨.ok (), { script with sink, committed := script.committed + statements.length }⟩
  else ⟨.error .storeClosed, script⟩

def start (script : Script) : Reply Script :=
  if script.isOpen then ⟨.ok (), { script with inTransaction := true }⟩
  else ⟨.error .storeClosed, script⟩

def merge (op : MergeOp) (script : Script) : Reply Script :=
  if script.isOpen then
    if script.inTransaction then
      ⟨.ok (), { script with pending := script.pending ++ [Cypher.ofMerge op] }⟩
    else script.put [Cypher.ofMerge op]
  else ⟨.error .storeClosed, script⟩

def commit (script : Script) : Reply Script :=
  if script.inTransaction then
    { script with pending := [], inTransaction := false }.put script.pending
  else ⟨.ok (), script⟩

def rollback (script : Script) : Reply Script :=
  if script.inTransaction then ⟨.ok (), { script with pending := [], inTransaction := false }⟩
  else ⟨.ok (), script⟩

/-- Drops an open transaction, flushes and lets go of the sink. -/
def close (script : Script) : Reply Script :=
  let settled := script.rollback.state
  if settled.isOpen then
    ⟨settled.sink.flush.mapError .io, { settled with isOpen := false }⟩
  else ⟨.ok (), settled⟩

instance : GraphStore Script where
  call
    | .start => start
    | .merge op => merge op
    | .commit => commit
    | .rollback => rollback
    | .close => close
  inTransaction := inTransaction

end Script
end ScopeGraph
