import ScopeGraph.Store.Apply
import ScopeGraph.Store.Database

/-!
# What calls leave of a database

Only an open database has a transaction, whatever calls it has seen.  Starting, rolling back and
closing never touch what is committed.  A plan applied to an open database is committed whole.
-/
set_option autoImplicit false

namespace ScopeGraph.Database

open GraphStore (call callAll inTransaction mergeFrom apply)

/-- A closed database has no transaction. -/
def IdleWhenClosed (database : Database) : Prop :=
  database.isOpen = false → database.working? = none

theorem idleWhenClosed_ofContent (content : Content) : IdleWhenClosed (ofContent content) := by
  intro closed
  cases closed

theorem idleWhenClosed_call (next : StoreCall) (database : Database)
    (idle : database.IdleWhenClosed) : (call next database).state.IdleWhenClosed := by
  obtain ⟨committed, working?, isOpen⟩ := database
  cases isOpen with
  | true =>
      intro closed
      cases next <;> cases working? <;> first | rfl | cases closed
  | false =>
      have none : working? = none := idle rfl
      subst none
      intro closed
      cases next <;> rfl

theorem idleWhenClosed_callAll (calls : List StoreCall) (database : Database)
    (idle : database.IdleWhenClosed) : (callAll calls database).IdleWhenClosed := by
  induction calls generalizing database with
  | nil => exact idle
  | cons next rest ih => exact ih _ (idleWhenClosed_call next database idle)

@[simp] theorem committed_start (database : Database) :
    (call .start database).state.committed = database.committed := by
  change database.start.state.committed = _
  unfold start
  split
  · rfl
  · split <;> rfl

@[simp] theorem committed_rollback (database : Database) :
    (call .rollback database).state.committed = database.committed := by
  change database.rollback.state.committed = _
  unfold rollback
  split
  · rfl
  · split <;> rfl

@[simp] theorem committed_close (database : Database) :
    (call .close database).state.committed = database.committed := by
  change database.close.state.committed = _
  unfold close
  split <;> rfl

theorem mergeFrom_working (committed : Content) (ops : List MergeOp) :
    ∀ (working : Content) (index : Nat),
      mergeFrom index ops (Database.mk committed (some working) true) =
        (.ok (), ⟨committed, some (working.mergeAll ops), true⟩) := by
  induction ops with
  | nil => exact fun _ _ => rfl
  | cons op rest ih => exact fun working index => ih (working.merge op) (index + 1)

theorem apply_ofContent (ops : List MergeOp) (content : Content) :
    apply ops (ofContent content) = (.ok ops.length, ⟨content.mergeAll ops, none, false⟩) := by
  have started : call .start (ofContent content) = ⟨.ok (), ⟨content, some content, true⟩⟩ := rfl
  have attempt : GraphStore.transact ops (ofContent content) =
      (.ok ops.length, ⟨content.mergeAll ops, none, true⟩) := by
    simp only [GraphStore.transact, started, mergeFrom_working]
    rfl
  rw [apply, attempt]
  rfl

end ScopeGraph.Database
