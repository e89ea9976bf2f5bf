import ScopeGraph.Store.Contract

/-!
# Guarded stores

A guarded store refuses all merges if what is behind it cannot be changed.
-/
set_option autoImplicit false

namespace ScopeGraph

structure Guarded (σ : Type) where
  inner : σ
  isWritable : Bool

namespace Guarded

variable {σ : Type} [GraphStore σ]

def refuses (store : Guarded σ) : StoreCall → Bool
  | .merge _ => !store.isWritable
  | _ => false

def call (next : StoreCall) (store : Guarded σ) : Reply (Guarded σ) :=
  if store.refuses next then ⟨.error .storage, store⟩
  else
    let reply := GraphStore.call next store.inner
    ⟨reply.result, { store with inner := reply.state }⟩

instance : GraphStore (Guarded σ) where
  call := call
  inTransaction store := GraphStore.inTransaction store.inner

end Guarded
end ScopeGraph
