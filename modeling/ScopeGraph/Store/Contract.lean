import ScopeGraph.Error
import ScopeGraph.Graph.MergeOp

/-!
# Graph stores

A graph store takes merges inside of transactions or, one by one, outside of them.  Misuse of
transactions (a second start, an end without a start) does nothing.
-/
set_option autoImplicit false

namespace ScopeGraph

structure Reply (σ : Type) where
  result : Except Error Unit
  state : σ

inductive StoreCall where
  | start
  | merge (op : MergeOp)
  | commit
  | rollback
  | close
  deriving DecidableEq

class GraphStore (σ : Type) where
  call : StoreCall → σ → Reply σ
  inTransaction : σ → Bool

namespace GraphStore

variable {σ : Type} [GraphStore σ]

/-- Makes calls in turn, whatever the answers. -/
def callAll (calls : List StoreCall) (store : σ) : σ :=
  calls.foldl (fun state next => (call next state).state) store

end GraphStore
end ScopeGraph
