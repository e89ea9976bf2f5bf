import ScopeGraph.Store.Database
import ScopeGraph.Store.Script

/-!
# Journals

A journal keeps the operations of the transactions that were committed, one list for each, and
those of the open transaction.  A new database and a new script are two views of one journal: a
call on a view answers as the journal does and shows the journal's next state.
-/
set_option autoImplicit false

namespace ScopeGraph

open GraphStore (call callAll inTransaction)

/-! ## Views of a store -/

/-- A store whose states can be read off those of another one. -/
structure IsView {σ τ : Type} [GraphStore σ] [GraphStore τ] (view : σ → τ) : Prop where
  call : ∀ (next : StoreCall) (store : σ),
    call next (view store) = ⟨(call next store).result, view (call next store).state⟩
  inTransaction : ∀ store : σ, inTransaction (view store) = inTransaction store

theorem callAll_view {σ τ : Type} [GraphStore σ] [GraphStore τ] {view : σ → τ}
    (step : ∀ next store, (call next (view store)).state = view (call next store).state)
    (calls : List StoreCall) (store : σ) :
    callAll calls (view store) = view (callAll calls store) := by
  induction calls generalizing store with
  | nil => rfl
  | cons next rest ih =>
      change callAll rest (call next (view store)).state = _
      rw [step]
      exact ih _

theorem IsView.callAll {σ τ : Type} [GraphStore σ] [GraphStore τ] {view : σ → τ}
    (isView : IsView view) (calls : List StoreCall) (store : σ) :
    callAll calls (view store) = view (callAll calls store) := by
  refine callAll_view (fun next store => ?_) calls store
  rw [isView.call]

/-! ## Journals as stores -/

/-- What a journal can do next. -/
inductive Phase where
  | closed
  | idle
  /-- Inside of a transaction with these operations. -/
  | within (pending : List MergeOp)

structure Journal where
  /-- The operations of each committed transaction. -/
  written : List (List MergeOp)
  phase : Phase

namespace Journal

def new : Journal := ⟨[], .idle⟩

def start (journal : Journal) : Reply Journal :=
  match journal.phase with
  | .closed => ⟨.error .storeClosed, journal⟩
  | .idle => ⟨.ok (), { journal with phase := .within [] }⟩
  | .within _ => ⟨.ok (), journal⟩

/-- Outside of a transaction an operation is a transaction of its own. -/
def merge (op : MergeOp) (journal : Journal) : Reply Journal :=
  match journal.phase with
  | .closed => ⟨.error .storeClosed, journal⟩
  | .idle => ⟨.ok (), { journal with written := journal.written ++ [[op]] }⟩
  | .within pending => ⟨.ok (), { journal with phase := .within (pending ++ [op]) }⟩

def commit (journal : Journal) : Reply Journal :=
  match journal.phase with
  | .within pending => ⟨.ok (), ⟨journal.written ++ [pending], .idle⟩⟩
  | _ => ⟨.ok (), journal⟩

def rollback (journal : Journal) : Reply Journal :=
  match journal.phase with
  | .within _ => ⟨.ok (), { journal with phase := .idle }⟩
  | _ => ⟨.ok (), journal⟩

def close (journal : Journal) : Reply Journal := ⟨.ok (), { journal with phase := .closed }⟩

instance : GraphStore Journal where
  call
    | .start => start
    | .merge op => merge op
    | .commit => commit
    | .rollback => rollback
    | .close => close
  inTransaction journal :=
    match journal.phase with
    | .within _ => true
    | _ => false

/-- All operations, those of the open transaction last. -/
def operations (journal : Journal) : List MergeOp :=
  journal.written.flatten ++
    match journal.phase with
    | .within pending => pending
    | _ => []

end Journal

/-- The operation that a call hands to a store. -/
def StoreCall.op? : StoreCall → Option MergeOp
  | merge op => some op
  | _ => none

namespace Journal

theorem operations_call (next : StoreCall) (journal : Journal) :
    (call next journal).state.operations.Sublist (journal.operations ++ next.op?.toList) := by
  obtain ⟨written, phase⟩ := journal
  cases next with
  | start =>
      cases phase <;> simp [call, start, operations, StoreCall.op?]
  | merge op =>
      cases phase <;> simp [call, merge, operations, StoreCall.op?]
  | commit =>
      cases phase <;> simp [call, commit, operations, StoreCall.op?]
  | rollback =>
      cases phase <;> simp [call, rollback, operations, StoreCall.op?]
  | close =>
      cases phase <;> simp [call, close, operations, StoreCall.op?]

/-- A journal holds operations it was handed, in their order. -/
theorem operations_callAll (calls : List StoreCall) (journal : Journal) :
    (callAll calls journal).operations.Sublist
      (journal.operations ++ calls.filterMap StoreCall.op?) := by
  induction calls generalizing journal with
  | nil => simp [callAll]
  | cons next rest ih =>
      have later := ih (call next journal).state
      have first := (operations_call next journal).append_right (rest.filterMap StoreCall.op?)
      have both := later.trans first
      have shape : (next :: rest).filterMap StoreCall.op? =
          next.op?.toList ++ rest.filterMap StoreCall.op? := by
        cases next <;> rfl
      rw [shape, ← List.append_assoc]
      exact both

end Journal
end ScopeGraph
