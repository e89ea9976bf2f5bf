import ScopeGraph.Proofs.Store.Database
import ScopeGraph.Store.Apply
import ScopeGraph.Store.Recorder

/-!
# Applying a plan is atomic

A plan is applied to a database behind a recorder, which refuses any of the calls it is told to.
The answer follows from the faults and from whether the database is open.  An error leaves what was
committed before; success commits all operations on top of the content at the start, that of an
open transaction included.
-/
set_option autoImplicit false

namespace ScopeGraph

open GraphStore (call callAll inTransaction mergeFrom transact finish apply)

/-! ## What the faults predict -/

namespace Faults

/-- The position of the refused merge, if it is one of the first `count`. -/
def refusedMerge? (faults : Faults) (count : Nat) : Option Nat := faults.merge?.filter (· < count)

/-- What an application of `count` operations answers. -/
def answer (faults : Faults) (isOpen : Bool) (count : Nat) : Except Error Nat :=
  if faults.start then .error (.adapter "injected begin")
  else if isOpen = false then .error .storeClosed
  else
    match faults.refusedMerge? count with
    | some position => .error (.graphOperation position (.adapter "injected merge"))
    | .none => if faults.commit then .error (.adapter "injected commit") else .ok count

theorem exists_split_of_refusedMerge? {α : Type} {faults : Faults} {items : List α}
    {position : Nat} (refused : faults.refusedMerge? items.length = some position) :
    ∃ done item rest, items = done ++ item :: rest ∧ done.length = position ∧
      faults.merge? = some position := by
  obtain ⟨found, inside⟩ := Option.filter_eq_some_iff.mp refused
  have bound : position < items.length := of_decide_eq_true inside
  refine ⟨items.take position, items.get ⟨position, bound⟩, items.drop (position + 1), ?_, ?_,
    found⟩
  · simp
  · simp only [List.length_take]
    omega

theorem merge?_ne_of_refusedMerge?_eq_none {faults : Faults} {count : Nat}
    (unrefused : faults.refusedMerge? count = .none) :
    ∀ position < count, faults.merge? ≠ some position := by
  intro position bound same
  have inside := Option.filter_eq_none_iff.mp unrefused position same
  exact inside (decide_eq_true bound)

end Faults

/-! ## The first merge that failed, as the log shows it -/

/-- The position, among the merges of a log, of the first one that failed. -/
def failedMerge? (log : List LoggedCall) : Option Nat :=
  (log.filter fun logged => Recorded.isMerge logged.call).findIdx? fun logged => !logged.succeeded

theorem failedMerge?_append_other (log : List LoggedCall) (logged : LoggedCall)
    (other : Recorded.isMerge logged.call = false) :
    failedMerge? (log ++ [logged]) = failedMerge? log := by
  simp [failedMerge?, other]

/-! ## An open transaction behind the recorder -/

section Transaction

variable (committed working : Content) (faults : Faults) (merges : Nat) (log : List LoggedCall)

theorem call_merge_unrefused (op : MergeOp) (unrefused : faults.merge? ≠ some merges) :
    call (.merge op) (Recorded.mk (Database.mk committed (some working) true) faults merges log) =
      ⟨.ok (), ⟨⟨committed, some (working.merge op), true⟩, faults, merges + 1,
        log ++ [⟨.merge op, true, true⟩]⟩⟩ := by
  have passes : Recorded.refuses
      (Recorded.mk (Database.mk committed (some working) true) faults merges log) (.merge op) =
        false := decide_eq_false unrefused
  change Recorded.call _ _ = _
  simp only [Recorded.call, Recorded.answer, passes]
  rfl

theorem call_merge_refused (op : MergeOp) (refused : faults.merge? = some merges) :
    call (.merge op) (Recorded.mk (Database.mk committed (some working) true) faults merges log) =
      ⟨.error (.adapter "injected merge"), ⟨⟨committed, some working, true⟩, faults, merges + 1,
        log ++ [⟨.merge op, false, true⟩]⟩⟩ := by
  have stops : Recorded.refuses
      (Recorded.mk (Database.mk committed (some working) true) faults merges log) (.merge op) =
        true := decide_eq_true refused
  change Recorded.call _ _ = _
  simp only [Recorded.call, Recorded.answer, stops]
  rfl

theorem call_commit_refused (refused : faults.commit = true) :
    call .commit (Recorded.mk (Database.mk committed (some working) true) faults merges log) =
      ⟨.error (.adapter "injected commit"), ⟨⟨committed, some working, true⟩, faults, merges,
        log ++ [⟨.commit, false, true⟩]⟩⟩ := by
  change Recorded.call _ _ = _
  simp only [Recorded.call, Recorded.answer, Recorded.refuses, refused]
  rfl

theorem call_commit_passed (passed : faults.commit = false) :
    call .commit (Recorded.mk (Database.mk committed (some working) true) faults merges log) =
      ⟨.ok (), ⟨⟨working, none, true⟩, faults, merges, log ++ [⟨.commit, true, false⟩]⟩⟩ := by
  change Recorded.call _ _ = _
  simp only [Recorded.call, Recorded.answer, Recorded.refuses, passed]
  rfl

end Transaction

/-- The log of merges that all succeed inside of a transaction. -/
def mergedLog (ops : List MergeOp) : List LoggedCall := ops.map fun op => ⟨.merge op, true, true⟩

theorem mergeFrom_unrefused (committed : Content) (faults : Faults) (ops : List MergeOp) :
    ∀ (working : Content) (merges index : Nat) (log : List LoggedCall),
      (∀ position < ops.length, faults.merge? ≠ some (merges + position)) →
      mergeFrom index ops
          (Recorded.mk (Database.mk committed (some working) true) faults merges log) =
        (.ok (), ⟨⟨committed, some (working.mergeAll ops), true⟩, faults, merges + ops.length,
          log ++ mergedLog ops⟩) := by
  induction ops with
  | nil =>
      intro working merges index log _
      simp [mergeFrom, mergedLog, Content.mergeAll]
  | cons op rest ih =>
      intro working merges index log unrefused
      have head : faults.merge? ≠ some merges := unrefused 0 (by simp)
      have tail : ∀ position < rest.length, faults.merge? ≠ some (merges + 1 + position) := by
        intro position bound
        have shifted := unrefused (position + 1) (by simpa using bound)
        rwa [Nat.add_assoc, Nat.add_comm 1 position]
      rw [mergeFrom, call_merge_unrefused committed working faults merges log op head]
      dsimp only
      rw [ih (working.merge op) (merges + 1) (index + 1) _ tail]
      simp only [List.length_cons, mergedLog, List.map_cons, List.append_assoc,
        List.singleton_append, Content.mergeAll, List.foldl_cons]
      rw [Nat.add_assoc, Nat.add_comm 1 rest.length]

theorem mergeFrom_append {σ : Type} [GraphStore σ] (first second : List MergeOp) :
    ∀ (index : Nat) (store : σ),
      mergeFrom index (first ++ second) store =
        match mergeFrom index first store with
        | (.ok (), next) => mergeFrom (index + first.length) second next
        | (.error cause, next) => (.error cause, next) := by
  induction first with
  | nil => intro index store; simp [mergeFrom]
  | cons op rest ih =>
      intro index store
      rw [List.cons_append, mergeFrom, mergeFrom]
      obtain ⟨result, next⟩ := call (.merge op) store
      cases result with
      | error cause => rfl
      | ok done =>
          simp only [ih, List.length_cons]
          rw [Nat.add_assoc, Nat.add_comm 1 rest.length]

/-- The operations before the refused one are merged; the others are not reached. -/
theorem mergeFrom_refused (committed working : Content) (faults : Faults)
    (done : List MergeOp) (op : MergeOp) (rest : List MergeOp) (index : Nat)
    (refused : faults.merge? = some done.length) (log : List LoggedCall) :
    mergeFrom index (done ++ op :: rest)
        (Recorded.mk (Database.mk committed (some working) true) faults 0 log) =
      (.error (.graphOperation (index + done.length) (.adapter "injected merge")),
        ⟨⟨committed, some (working.mergeAll done), true⟩, faults, done.length + 1,
          log ++ mergedLog done ++ [⟨.merge op, false, true⟩]⟩) := by
  have unrefused : ∀ position < done.length, faults.merge? ≠ some (0 + position) := by
    intro position bound same
    rw [refused, Nat.zero_add] at same
    have equal := Option.some.inj same
    omega
  rw [mergeFrom_append, mergeFrom_unrefused committed faults done working 0 index log unrefused]
  simp only [Nat.zero_add]
  rw [mergeFrom, call_merge_refused _ _ _ _ _ op refused]

theorem filter_mergedLog (ops : List MergeOp) :
    (mergedLog ops).filter (fun logged => Recorded.isMerge logged.call) = mergedLog ops := by
  apply List.filter_eq_self.mpr
  intro logged member
  obtain ⟨op, _, rfl⟩ := List.mem_map.mp member
  rfl

theorem findIdx?_mergedLog (ops : List MergeOp) :
    (mergedLog ops).findIdx? (fun logged => !logged.succeeded) = none := by
  apply List.findIdx?_eq_none_iff.mpr
  intro logged member
  obtain ⟨op, _, rfl⟩ := List.mem_map.mp member
  rfl

theorem failedMerge?_started (ops : List MergeOp) :
    failedMerge? ([⟨.start, true, true⟩] ++ mergedLog ops) = none := by
  rw [failedMerge?, List.filter_append, filter_mergedLog]
  exact findIdx?_mergedLog ops

theorem failedMerge?_stopped (done : List MergeOp) (op : MergeOp) :
    failedMerge? ([⟨.start, true, true⟩] ++ mergedLog done ++ [⟨.merge op, false, true⟩]) =
      some done.length := by
  rw [failedMerge?, List.filter_append, List.filter_append, filter_mergedLog]
  change (mergedLog done ++ [(⟨.merge op, false, true⟩ : LoggedCall)]).findIdx? _ = _
  rw [List.findIdx?_append, findIdx?_mergedLog]
  simp [mergedLog]

/-! ## Whole transactions -/

theorem committed_settling (next : StoreCall) (store : Recorded Database)
    (settling : next = .start ∨ next = .rollback ∨ next = .close) :
    (call next store).state.inner.committed = store.inner.committed := by
  change (store.answer next).state.committed = store.inner.committed
  unfold Recorded.answer
  split
  · rfl
  · rcases settling with rfl | rfl | rfl <;> simp

theorem failedMerge?_call_other (next : StoreCall) (store : Recorded Database)
    (other : Recorded.isMerge next = false) :
    failedMerge? (call next store).state.log = failedMerge? store.log :=
  failedMerge?_append_other store.log _ other

theorem call_start_refused (database : Database) (faults : Faults) (refused : faults.start = true) :
    call .start (Recorded.of database faults) =
      ⟨.error (.adapter "injected begin"), ⟨database, faults, 0,
        [⟨.start, false, inTransaction database⟩]⟩⟩ := by
  change Recorded.call _ _ = _
  simp only [Recorded.call, Recorded.answer, Recorded.refuses, Recorded.of, refused]
  rfl

theorem call_start_closed (committed : Content) (faults : Faults) (passed : faults.start = false) :
    call .start (Recorded.of (Database.mk committed none false) faults) =
      ⟨.error .storeClosed, ⟨⟨committed, none, false⟩, faults, 0, [⟨.start, false, false⟩]⟩⟩ := by
  change Recorded.call _ _ = _
  simp only [Recorded.call, Recorded.answer, Recorded.refuses, Recorded.of, passed]
  rfl

/-- A transaction that is already open goes on. -/
theorem call_start_open (committed : Content) (working? : Option Content) (faults : Faults)
    (passed : faults.start = false) :
    call .start (Recorded.of (Database.mk committed working? true) faults) =
      ⟨.ok (), ⟨⟨committed, some (working?.getD committed), true⟩, faults, 0,
        [⟨.start, true, true⟩]⟩⟩ := by
  change Recorded.call _ _ = _
  simp only [Recorded.call, Recorded.answer, Recorded.refuses, Recorded.of, passed]
  cases working? <;> rfl

section Attempts

variable {faults : Faults} {ops : List MergeOp}

theorem transact_start_refused (database : Database) (refused : faults.start = true) :
    transact ops (Recorded.of database faults) =
      (.error (.adapter "injected begin"), ⟨database, faults, 0,
        [⟨.start, false, inTransaction database⟩]⟩) := by
  rw [transact, call_start_refused database faults refused]

theorem transact_closed (committed : Content) (passed : faults.start = false) :
    transact ops (Recorded.of (Database.mk committed none false) faults) =
      (.error .storeClosed, ⟨⟨committed, none, false⟩, faults, 0, [⟨.start, false, false⟩]⟩) := by
  rw [transact, call_start_closed committed faults passed]

theorem transact_merge_refused (committed : Content) (working? : Option Content)
    (done : List MergeOp) (op : MergeOp) (rest : List MergeOp) (passed : faults.start = false)
    (refused : faults.merge? = some done.length) :
    transact (done ++ op :: rest) (Recorded.of (Database.mk committed working? true) faults) =
      (.error (.graphOperation done.length (.adapter "injected merge")),
        (call .rollback (Recorded.mk
          (Database.mk committed (some ((working?.getD committed).mergeAll done)) true) faults
          (done.length + 1)
          ([⟨.start, true, true⟩] ++ mergedLog done ++ [⟨.merge op, false, true⟩]))).state) := by
  rw [transact, call_start_open committed working? faults passed]
  dsimp only
  rw [mergeFrom_refused _ _ faults done op rest 0 refused, Nat.zero_add]

theorem transact_commit_refused (committed : Content) (working? : Option Content)
    (passed : faults.start = false) (unrefused : faults.refusedMerge? ops.length = none)
    (refused : faults.commit = true) :
    transact ops (Recorded.of (Database.mk committed working? true) faults) =
      (.error (.adapter "injected commit"),
        ⟨⟨committed, some ((working?.getD committed).mergeAll ops), true⟩, faults, ops.length,
          [⟨.start, true, true⟩] ++ mergedLog ops ++ [⟨.commit, false, true⟩]⟩) := by
  have passes := Faults.merge?_ne_of_refusedMerge?_eq_none unrefused
  rw [transact, call_start_open committed working? faults passed]
  dsimp only
  rw [mergeFrom_unrefused _ faults ops _ 0 0 _ (by simpa using passes), Nat.zero_add]
  dsimp only
  rw [call_commit_refused _ _ _ _ _ refused]

theorem transact_committed (committed : Content) (working? : Option Content)
    (passed : faults.start = false) (unrefused : faults.refusedMerge? ops.length = none)
    (ends : faults.commit = false) :
    transact ops (Recorded.of (Database.mk committed working? true) faults) =
      (.ok ops.length,
        ⟨⟨(working?.getD committed).mergeAll ops, none, true⟩, faults, ops.length,
          [⟨.start, true, true⟩] ++ mergedLog ops ++ [⟨.commit, true, false⟩]⟩) := by
  have passes := Faults.merge?_ne_of_refusedMerge?_eq_none unrefused
  rw [transact, call_start_open committed working? faults passed]
  dsimp only
  rw [mergeFrom_unrefused _ faults ops _ 0 0 _ (by simpa using passes), Nat.zero_add]
  dsimp only
  rw [call_commit_passed _ _ _ _ _ ends]

end Attempts

/-- An error leaves what was committed.  A number is that of all operations, and they are committed
on top of the content at the start, that of an open transaction included. -/
def AllOrNothing (database : Database) (ops : List MergeOp) (answer : Except Error Nat)
    (committed : Content) : Prop :=
  match answer with
  | .error _ => committed = database.committed
  | .ok count => count = ops.length ∧ committed = database.content.mergeAll ops

/-- One transaction behind the recorder: its answer, what is committed afterwards, and the first
failed merge of the log. -/
theorem transact_recorded (database : Database) (idle : database.IdleWhenClosed)
    (faults : Faults) (ops : List MergeOp) :
    let attempt := transact ops (Recorded.of database faults)
    attempt.1 = faults.answer database.isOpen ops.length ∧
      AllOrNothing database ops attempt.1 attempt.2.inner.committed ∧
      ∀ index, failedMerge? attempt.2.log = some index ↔
        ∃ cause, attempt.1 = .error (.graphOperation index cause) := by
  obtain ⟨committed, working?, isOpen⟩ := database
  intro attempt
  -- The calls in their order: each case is the first of them that fails.
  cases begins : faults.start with
  | true =>
      rw [show attempt = _ from transact_start_refused _ begins]
      refine ⟨?_, rfl, ?_⟩
      · simp [Faults.answer, begins]
      · simp [failedMerge?, Recorded.isMerge]
  | false =>
      cases isOpen with
      | false =>
          have stopped : working? = none := idle rfl
          subst stopped
          rw [show attempt = _ from transact_closed committed begins]
          refine ⟨?_, rfl, ?_⟩
          · simp [Faults.answer, begins]
          · simp [failedMerge?, Recorded.isMerge]
      | true =>
          cases refused : faults.refusedMerge? ops.length with
          | some position =>
              obtain ⟨done, op, rest, split, length, found⟩ :=
                Faults.exists_split_of_refusedMerge? refused
              subst split
              subst length
              rw [show attempt = _ from
                transact_merge_refused committed working? done op rest begins found]
              refine ⟨?_, ?_, ?_⟩
              · simp only [Faults.answer, begins, refused]
                rfl
              · exact committed_settling .rollback _ (.inr (.inl rfl))
              · rw [failedMerge?_call_other .rollback _ rfl, failedMerge?_stopped]
                simp
          | none =>
              cases ends : faults.commit with
              | true =>
                  rw [show attempt = _ from
                    transact_commit_refused committed working? begins refused ends]
                  refine ⟨?_, rfl, ?_⟩
                  · simp [Faults.answer, begins, refused, ends]
                  · rw [failedMerge?_append_other _ _ rfl, failedMerge?_started]
                    simp
              | false =>
                  rw [show attempt = _ from
                    transact_committed committed working? begins refused ends]
                  refine ⟨?_, ⟨rfl, rfl⟩, ?_⟩
                  · simp [Faults.answer, begins, refused, ends]
                  · rw [failedMerge?_append_other _ _ rfl, failedMerge?_started]
                    simp

theorem committed_finish (store : Recorded Database) :
    (finish store).inner.committed = store.inner.committed := by
  simp only [finish]
  rw [committed_settling .close _ (.inr (.inr rfl))]
  split
  · exact committed_settling .rollback store (.inr (.inl rfl))
  · rfl

theorem failedMerge?_finish (store : Recorded Database) :
    failedMerge? (finish store).log = failedMerge? store.log := by
  simp only [finish]
  rw [failedMerge?_call_other .close _ rfl]
  split
  · exact failedMerge?_call_other .rollback store rfl
  · rfl

/-- Whatever the database has gone through and whichever calls are refused, applying operations is
all or nothing, and a failed merge is reported with its position. -/
theorem apply_is_all_or_nothing (content : Content) (before : List StoreCall) (faults : Faults)
    (ops : List MergeOp) :
    let database := callAll before (Database.ofContent content)
    let outcome := apply ops (Recorded.of database faults)
    outcome.1 = faults.answer database.isOpen ops.length ∧
      AllOrNothing database ops outcome.1 outcome.2.inner.committed ∧
      ∀ index, failedMerge? outcome.2.log = some index ↔
        ∃ cause, outcome.1 = .error (.graphOperation index cause) := by
  intro database outcome
  have idle : database.IdleWhenClosed :=
    Database.idleWhenClosed_callAll before _ (Database.idleWhenClosed_ofContent content)
  obtain ⟨answered, settled, failed⟩ := transact_recorded database idle faults ops
  have state : outcome.2 = finish (transact ops (Recorded.of database faults)).2 := rfl
  refine ⟨answered, ?_, ?_⟩
  · rw [state, committed_finish]
    exact settled
  · intro index
    rw [state, failedMerge?_finish]
    exact failed index

end ScopeGraph
