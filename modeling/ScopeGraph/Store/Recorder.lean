import ScopeGraph.Store.Contract

/-!
# Recorded stores

A recorded store logs the calls that reach it with their success, and can be told to refuse some
of them instead of passing them on.
-/
set_option autoImplicit false

namespace ScopeGraph

/-- Which calls are refused. -/
structure Faults where
  start : Bool
  commit : Bool
  rollback : Bool
  close : Bool
  /-- The position of the merge that is refused. -/
  merge? : Option Nat
  deriving DecidableEq, Repr

def Faults.none : Faults := ⟨false, false, false, false, .none⟩

structure LoggedCall where
  call : StoreCall
  succeeded : Bool
  /-- Whether a transaction was open afterwards. -/
  inTransaction : Bool
  deriving DecidableEq

structure Recorded (σ : Type) where
  inner : σ
  faults : Faults
  /-- Merges seen so far. -/
  merges : Nat
  log : List LoggedCall

def StoreCall.name : StoreCall → String
  | start => "begin"
  | merge _ => "merge"
  | commit => "commit"
  | rollback => "rollback"
  | close => "close"

namespace Recorded

variable {σ : Type}

def of (inner : σ) (faults : Faults) : Recorded σ := ⟨inner, faults, 0, []⟩

def refuses (store : Recorded σ) : StoreCall → Bool
  | .start => store.faults.start
  | .merge _ => store.faults.merge? = some store.merges
  | .commit => store.faults.commit
  | .rollback => store.faults.rollback
  | .close => store.faults.close

def isMerge : StoreCall → Bool
  | .merge _ => true
  | _ => false

variable [GraphStore σ]

def answer (store : Recorded σ) (next : StoreCall) : Reply σ :=
  if store.refuses next then ⟨.error (.adapter s!"injected {next.name}"), store.inner⟩
  else GraphStore.call next store.inner

def call (next : StoreCall) (store : Recorded σ) : Reply (Recorded σ) :=
  let reply := store.answer next
  ⟨reply.result,
    { inner := reply.state
      faults := store.faults
      merges := if isMerge next then store.merges + 1 else store.merges
      log := store.log ++ [⟨next, reply.result.isOk, GraphStore.inTransaction reply.state⟩] }⟩

instance : GraphStore (Recorded σ) where
  call := call
  inTransaction store := GraphStore.inTransaction store.inner

end Recorded
end ScopeGraph
