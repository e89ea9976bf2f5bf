import ScopeGraph.Store.Contract

/-!
# Applying a plan

A plan is applied in one transaction, and the store is closed afterwards in any case.  The first
merge that fails ends the transaction with a rollback.  A transaction that is still open before the
store is closed is rolled back too.
-/
set_option autoImplicit false

namespace ScopeGraph.GraphStore

variable {σ : Type} [GraphStore σ]

/-- Merges operations up to the first one that fails; `index` is the position of the first
operation of the list. -/
def mergeFrom (index : Nat) : List MergeOp → σ → Except Error Unit × σ
  | [], store => (.ok (), store)
  | op :: rest, store =>
    match call (.merge op) store with
    | ⟨.ok (), next⟩ => mergeFrom (index + 1) rest next
    | ⟨.error cause, next⟩ => (.error (.graphOperation index cause), next)

def transact (ops : List MergeOp) (store : σ) : Except Error Nat × σ :=
  match call .start store with
  | ⟨.error cause, started⟩ => (.error cause, started)
  | ⟨.ok (), started⟩ =>
    match mergeFrom 0 ops started with
    | (.error cause, merged) => (.error cause, (call .rollback merged).state)
    | (.ok (), merged) =>
      match call .commit merged with
      | ⟨.error cause, ended⟩ => (.error cause, ended)
      | ⟨.ok (), ended⟩ => (.ok ops.length, ended)

def finish (store : σ) : σ :=
  let settled := if inTransaction store then (call .rollback store).state else store
  (call .close settled).state

/-- Answers how many operations were applied. -/
def apply (ops : List MergeOp) (store : σ) : Except Error Nat × σ :=
  let attempt := transact ops store
  (attempt.1, finish attempt.2)

end ScopeGraph.GraphStore
