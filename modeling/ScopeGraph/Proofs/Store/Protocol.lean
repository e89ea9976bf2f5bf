import Mathlib.Data.List.Chain
import ScopeGraph.Proofs.InOrder
import ScopeGraph.Proofs.Store.Journal
import ScopeGraph.Store.Apply
import ScopeGraph.Store.Recorder

/-!
# The calls of an application

Whatever a store answers, applying operations makes calls in one order: a start, merges up to the
first one that fails, then a rollback or a commit; at the end a rollback if a transaction is still
open, and the close.  The log of a recorder that refuses nothing shows these calls, and the store
behind it is used as if there were no recorder.
-/
set_option autoImplicit false

namespace ScopeGraph

open GraphStore (call inTransaction mergeFrom transact finish apply)

/-! ## Stores that answer alike -/

/-- Related stores give the same answer to every call and stay related. -/
structure AnswerAlike {σ τ : Type} [GraphStore σ] [GraphStore τ] (related : σ → τ → Prop) :
    Prop where
  call : ∀ {first second}, related first second → ∀ next, ∃ result left right,
    call next first = ⟨result, left⟩ ∧ call next second = ⟨result, right⟩ ∧ related left right
  inTransaction : ∀ {first second}, related first second →
    inTransaction first = inTransaction second

namespace AnswerAlike

variable {σ τ : Type} [GraphStore σ] [GraphStore τ] {related : σ → τ → Prop}
  (alike : AnswerAlike related)

include alike

theorem mergeFrom (ops : List MergeOp) : ∀ (index : Nat) {first : σ} {second : τ},
    related first second → ∃ result left right,
      mergeFrom index ops first = (result, left) ∧ mergeFrom index ops second = (result, right) ∧
        related left right := by
  induction ops with
  | nil => exact fun _ first second same => ⟨.ok (), first, second, rfl, rfl, same⟩
  | cons op rest ih =>
      intro index first second same
      obtain ⟨result, left, right, ofFirst, ofSecond, still⟩ := alike.call same (.merge op)
      rw [GraphStore.mergeFrom, GraphStore.mergeFrom, ofFirst, ofSecond]
      cases result with
      | ok done => exact ih (index + 1) still
      | error cause => exact ⟨_, left, right, rfl, rfl, still⟩

theorem transact (ops : List MergeOp) {first : σ} {second : τ} (same : related first second) :
    ∃ result left right, transact ops first = (result, left) ∧
      transact ops second = (result, right) ∧ related left right := by
  obtain ⟨started, left, right, ofFirst, ofSecond, same⟩ := alike.call same .start
  rw [GraphStore.transact, GraphStore.transact, ofFirst, ofSecond]
  cases started with
  | error cause => exact ⟨_, left, right, rfl, rfl, same⟩
  | ok done =>
      obtain ⟨merged, left, right, ofFirst, ofSecond, same⟩ := alike.mergeFrom ops 0 same
      dsimp only
      rw [ofFirst, ofSecond]
      cases merged with
      | error cause =>
          obtain ⟨_, left, right, ofFirst, ofSecond, same⟩ := alike.call same .rollback
          dsimp only
          rw [ofFirst, ofSecond]
          exact ⟨_, left, right, rfl, rfl, same⟩
      | ok done =>
          obtain ⟨ended, left, right, ofFirst, ofSecond, same⟩ := alike.call same .commit
          dsimp only
          rw [ofFirst, ofSecond]
          cases ended <;> exact ⟨_, left, right, rfl, rfl, same⟩

theorem finish {first : σ} {second : τ} (same : related first second) :
    related (finish first) (finish second) := by
  have close {first : σ} {second : τ} (same : related first second) :
      related (GraphStore.call .close first).state (GraphStore.call .close second).state := by
    obtain ⟨_, left, right, ofFirst, ofSecond, still⟩ := alike.call same .close
    rw [ofFirst, ofSecond]
    exact still
  rw [GraphStore.finish, GraphStore.finish, alike.inTransaction same]
  split
  · obtain ⟨_, left, right, ofFirst, ofSecond, still⟩ := alike.call same .rollback
    rw [ofFirst, ofSecond]
    exact close still
  · exact close same

theorem apply (ops : List MergeOp) {first : σ} {second : τ} (same : related first second) :
    (apply ops first).1 = (apply ops second).1 ∧
      related (apply ops first).2 (apply ops second).2 := by
  obtain ⟨result, left, right, ofFirst, ofSecond, still⟩ := alike.transact ops same
  rw [GraphStore.apply, GraphStore.apply, ofFirst, ofSecond]
  exact ⟨rfl, alike.finish still⟩

end AnswerAlike

/-- The recorder passes every call on to this store. -/
def Watches {σ : Type} (recorded : Recorded σ) (store : σ) : Prop :=
  recorded.inner = store ∧ recorded.faults = .none

theorem answerAlike_watches {σ : Type} [GraphStore σ] :
    AnswerAlike (Watches : Recorded σ → σ → Prop) where
  call := by
    rintro ⟨inner, faults, merges, log⟩ store ⟨rfl, rfl⟩ next
    have passes : (Recorded.mk inner Faults.none merges log).refuses next = false := by
      cases next <;> rfl
    have answer : (Recorded.mk inner Faults.none merges log).answer next = call next inner := by
      rw [Recorded.answer, passes]
      rfl
    refine ⟨(call next inner).result, (call next (Recorded.mk inner Faults.none merges log)).state,
      (call next inner).state, ?_, rfl, congrArg Reply.state answer, rfl⟩
    rw [← answer]
    rfl
  inTransaction := by
    rintro ⟨inner, faults, merges, log⟩ store ⟨rfl, rfl⟩
    rfl

/-! ## The log of an application -/

/-- A call and whether it succeeded. -/
def LoggedCall.signal (logged : LoggedCall) : StoreCall × Bool := (logged.call, logged.succeeded)

/-- Merges that all succeed. -/
def mergeSignals (ops : List MergeOp) : List (StoreCall × Bool) :=
  ops.map fun op => (.merge op, true)

/-- The calls of one transaction with these operations, each with its success, and the success of
the transaction. -/
inductive Attempt (ops : List MergeOp) : List (StoreCall × Bool) → Bool → Prop where
  | unstarted : Attempt ops [(.start, false)] false
  | stopped {done : List MergeOp} {op : MergeOp} {rest : List MergeOp}
      (reached : ops = done ++ op :: rest) (rolledBack : Bool) :
      Attempt ops
        ((.start, true) :: mergeSignals done ++ [(.merge op, false), (.rollback, rolledBack)])
        false
  | ended (committed : Bool) :
      Attempt ops ((.start, true) :: mergeSignals ops ++ [(.commit, committed)]) committed

/-- A transaction ends at its start, behind a failed merge with a rollback, or with a commit. -/
theorem transact_cases {σ : Type} [GraphStore σ] (ops : List MergeOp) (store : σ) :
    (∃ cause started, call .start store = ⟨.error cause, started⟩ ∧
      transact ops store = (.error cause, started)) ∨
    (∃ started cause merged answer after, call .start store = ⟨.ok (), started⟩ ∧
      mergeFrom 0 ops started = (.error cause, merged) ∧
      call .rollback merged = ⟨answer, after⟩ ∧ transact ops store = (.error cause, after)) ∨
    ∃ started merged answer after, call .start store = ⟨.ok (), started⟩ ∧
      mergeFrom 0 ops started = (.ok (), merged) ∧ call .commit merged = ⟨answer, after⟩ ∧
      transact ops store = (answer.map fun _ => ops.length, after) := by
  unfold transact
  cases call .start store with
  | mk answer started =>
      cases answer with
      | error cause => exact .inl ⟨cause, started, rfl, rfl⟩
      | ok =>
          dsimp only
          cases merging : mergeFrom 0 ops started with
          | mk answer merged =>
              cases answer with
              | error cause =>
                  exact .inr (.inl ⟨started, cause, merged, _, _, rfl, merging, rfl, rfl⟩)
              | ok =>
                  dsimp only
                  cases reply : call .commit merged with
                  | mk answer after =>
                      refine .inr (.inr ⟨started, merged, answer, after, rfl, merging, reply, ?_⟩)
                      cases answer <;> rfl

section Log

variable {σ : Type} [GraphStore σ]

theorem log_of_call {next : StoreCall} {store after : Recorded σ} {answer : Except Error Unit}
    (reply : call next store = ⟨answer, after⟩) :
    after.log = store.log ++ [⟨next, answer.isOk, inTransaction after⟩] := by
  cases reply
  rfl

theorem inTransaction_of_call {next : StoreCall} {store after : Recorded σ}
    {answer : Except Error Unit} (reply : call next store = ⟨answer, after⟩) :
    after.log.getLast?.any LoggedCall.inTransaction = inTransaction after := by
  rw [log_of_call reply, List.getLast?_concat]
  rfl

theorem log_of_mergeFrom (ops : List MergeOp) : ∀ {index : Nat} {store after : Recorded σ}
    {answer : Except Error Unit}, mergeFrom index ops store = (answer, after) →
    ∃ merged, after.log = store.log ++ merged ∧
      match answer with
      | .ok () => merged.map LoggedCall.signal = mergeSignals ops
      | .error _ => ∃ done op rest, ops = done ++ op :: rest ∧
          merged.map LoggedCall.signal = mergeSignals done ++ [(.merge op, false)] := by
  induction ops with
  | nil =>
      intro index store after answer run
      cases run
      exact ⟨[], by simp, rfl⟩
  | cons op rest ih =>
      intro index store after answer run
      rw [mergeFrom] at run
      cases reply : call (.merge op) store with
      | mk result next =>
          have logged := log_of_call reply
          rw [reply] at run
          cases result with
          | error cause =>
              cases run
              exact ⟨_, logged, [], op, rest, rfl, rfl⟩
          | ok =>
              obtain ⟨merged, log, signals⟩ := ih run
              refine ⟨⟨.merge op, true, inTransaction next⟩ :: merged, ?_, ?_⟩
              · rw [log, logged, List.append_assoc]
                rfl
              · cases answer with
                | ok => exact congrArg (List.cons _) signals
                | error cause =>
                    obtain ⟨done, failed, later, rfl, signals⟩ := signals
                    exact ⟨op :: done, failed, later, rfl, congrArg (List.cons _) signals⟩

/-- The log of one transaction is that of an attempt.  Its last entry tells whether a transaction is
still open. -/
theorem log_of_transact (ops : List MergeOp) {store after : Recorded σ} {answer : Except Error Nat}
    (unused : store.log = []) (run : transact ops store = (answer, after)) :
    Attempt ops (after.log.map LoggedCall.signal) answer.isOk ∧
      after.log.getLast?.any LoggedCall.inTransaction = inTransaction after := by
  rcases transact_cases ops store with ⟨cause, started, start, whole⟩ |
    ⟨started, cause, merged, rolledBack, ended, start, merging, last, whole⟩ |
    ⟨started, merged, committed, ended, start, merging, last, whole⟩
  · cases run.symm.trans whole
    refine ⟨?_, inTransaction_of_call start⟩
    rw [log_of_call start, unused]
    exact .unstarted
  · cases run.symm.trans whole
    refine ⟨?_, inTransaction_of_call last⟩
    obtain ⟨entries, log, done, op, rest, reached, signals⟩ := log_of_mergeFrom ops merging
    rw [log_of_call last, log, log_of_call start, unused]
    simpa [signals, LoggedCall.signal, Except.isOk, Except.toBool] using
      Attempt.stopped reached rolledBack.isOk
  · cases run.symm.trans whole
    refine ⟨?_, inTransaction_of_call last⟩
    obtain ⟨entries, log, signals⟩ := log_of_mergeFrom ops merging
    dsimp only at signals
    have answered : (committed.map fun _ => ops.length).isOk = committed.isOk := by
      cases committed <;> rfl
    rw [log_of_call last, log, log_of_call start, unused, answered]
    simpa [signals, LoggedCall.signal, Except.isOk, Except.toBool] using
      @Attempt.ended ops committed.isOk

theorem log_finish (store : Recorded σ) :
    ∃ settling closing, (finish store).log = store.log ++ settling ++ [closing] ∧
      settling.map LoggedCall.call = (if inTransaction store then [.rollback] else []) ∧
      closing.call = .close := by
  rw [finish]
  split
  · exact ⟨_, _, log_of_call rfl, rfl, rfl⟩
  · exact ⟨[], _, (log_of_call rfl).trans (by rw [List.append_nil]), rfl, rfl⟩

end Log

/-! ## What the log says -/

/-- The order of calls, as the log of their successes shows it. -/
structure Orderly (ops : List MergeOp) (signals : List (StoreCall × Bool)) : Prop where
  starts : signals.head?.map Prod.fst = some .start
  /-- The first operations are merged, in their order. -/
  merges_in_order : signals.filterMap (·.1.op?) <+: ops
  /-- No merge comes after a call that failed. -/
  merges_stop : signals.Pairwise fun earlier later => later.1.op?.isSome → earlier.2 = true
  commits_once : (signals.map Prod.fst).count .commit ≤ 1
  /-- A commit comes when everything has been merged. -/
  commits_all : InOrder (fun before signal => signal.1 = .commit →
    before = (.start, true) :: mergeSignals ops) signals
  /-- Behind a merge that failed comes a rollback. -/
  rolls_back : signals.IsChain fun earlier next => earlier.1.op?.isSome → earlier.2 = false →
    next.1 = .rollback
  /-- The only close is the last call. -/
  closes : ∃ front answer, signals = front ++ [(.close, answer)] ∧ ∀ signal ∈ front,
    signal.1 ≠ .close

section Opening

variable {ops : List MergeOp}

theorem mem_opening {signal : StoreCall × Bool}
    (member : signal ∈ (.start, true) :: mergeSignals ops) :
    signal.2 = true ∧ signal.1 ≠ .commit ∧ signal.1 ≠ .close := by
  rcases List.mem_cons.mp member with rfl | merged
  · simp
  · obtain ⟨op, _, rfl⟩ := List.mem_map.mp merged
    simp

theorem filterMap_opening : ((.start, true) :: mergeSignals ops).filterMap (·.1.op?) = ops := by
  have merged : (mergeSignals ops).filterMap (·.1.op?) = ops := by
    rw [mergeSignals, List.filterMap_map]
    exact List.filterMap_some
  exact merged

/-- An attempt opens with calls that succeed and have no end among them; few calls follow. -/
theorem Attempt.parts {attempt : List (StoreCall × Bool)} {succeeded : Bool}
    (isAttempt : Attempt ops attempt succeeded) :
    ∃ opening ending, attempt = opening ++ ending ∧
      (∀ signal ∈ opening, signal.2 = true ∧ signal.1 ≠ .commit ∧ signal.1 ≠ .close) ∧
      (ending = [(.start, false)] ∨
        (∃ op rolledBack, ending = [(.merge op, false), (.rollback, rolledBack)]) ∨
        ∃ committed, ending = [(.commit, committed)]) := by
  cases isAttempt with
  | unstarted => exact ⟨[], _, rfl, by simp, .inl rfl⟩
  | @stopped done _ _ _ rolledBack =>
      exact ⟨(.start, true) :: mergeSignals done, _, rfl, fun _ => mem_opening,
        .inr (.inl ⟨_, rolledBack, rfl⟩)⟩
  | ended =>
      exact ⟨(.start, true) :: mergeSignals ops, _, rfl, fun _ => mem_opening,
        .inr (.inr ⟨_, rfl⟩)⟩

end Opening

section Succeeded

variable {opening tail : List (StoreCall × Bool)} (succeeded : ∀ signal ∈ opening, signal.2 = true)
include succeeded

theorem pairwise_succeeded {allows : StoreCall × Bool → StoreCall × Bool → Prop}
    (allowed : ∀ earlier later, earlier.2 = true → allows earlier later) :
    opening.Pairwise allows :=
  List.Pairwise.imp_of_mem (fun inside _ _ => allowed _ _ (succeeded _ inside))
    (List.pairwise_of_forall fun _ _ => trivial)

theorem merges_stop_append
    (later : tail.Pairwise fun earlier later => later.1.op?.isSome → earlier.2 = true) :
    (opening ++ tail).Pairwise fun earlier later => later.1.op?.isSome → earlier.2 = true := by
  refine List.pairwise_append.mpr ⟨?_, later, fun earlier inside _ _ _ => succeeded _ inside⟩
  exact pairwise_succeeded succeeded fun _ _ success _ => success

theorem rolls_back_append
    (later : tail.IsChain fun earlier next => earlier.1.op?.isSome → earlier.2 = false →
      next.1 = .rollback) :
    (opening ++ tail).IsChain fun earlier next => earlier.1.op?.isSome → earlier.2 = false →
      next.1 = .rollback := by
  have allowed (earlier next : StoreCall × Bool) (success : earlier.2 = true) :
      earlier.1.op?.isSome → earlier.2 = false → next.1 = .rollback := by
    intro _ failed
    rw [success] at failed
    cases failed
  refine List.isChain_append.mpr ⟨(pairwise_succeeded succeeded allowed).isChain, later, ?_⟩
  intro earlier last next _
  exact allowed earlier next (succeeded earlier (List.mem_of_getLast? last))

end Succeeded

theorem Attempt.orderly {ops : List MergeOp} {attempt settling : List (StoreCall × Bool)}
    {succeeded answer : Bool} (isAttempt : Attempt ops attempt succeeded)
    (settles : settling = [] ∨ ∃ rolledBack, settling = [(.rollback, rolledBack)]) :
    Orderly ops (attempt ++ settling ++ [(.close, answer)]) where
  starts := by cases isAttempt <;> rfl
  merges_in_order := by
    have none : settling.filterMap (·.1.op?) = [] := by
      rcases settles with rfl | ⟨rolledBack, rfl⟩ <;> rfl
    rw [List.filterMap_append, List.filterMap_append, none]
    cases isAttempt with
    | unstarted => exact List.nil_prefix
    | stopped reached rolledBack =>
        rw [List.filterMap_append, filterMap_opening, reached]
        simp [StoreCall.op?]
    | ended committed =>
        rw [List.filterMap_append, filterMap_opening]
        simp [StoreCall.op?]
  merges_stop := by
    obtain ⟨opening, ending, rfl, succeeds, ends⟩ := isAttempt.parts
    rw [List.append_assoc, List.append_assoc]
    apply merges_stop_append fun signal inside => (succeeds signal inside).1
    rcases ends with rfl | ⟨op, rolledBack, rfl⟩ | ⟨committed, rfl⟩ <;>
      rcases settles with rfl | ⟨rolledBack, rfl⟩ <;> simp [StoreCall.op?]
  commits_once := by
    obtain ⟨opening, ending, rfl, succeeds, ends⟩ := isAttempt.parts
    have none : (opening.map Prod.fst).count .commit = 0 := by
      refine List.count_eq_zero_of_not_mem fun member => ?_
      obtain ⟨signal, inside, isCommit⟩ := List.mem_map.mp member
      exact (succeeds signal inside).2.1 isCommit
    rw [List.append_assoc, List.append_assoc, List.map_append, List.count_append, none]
    rcases ends with rfl | ⟨op, rolledBack, rfl⟩ | ⟨committed, rfl⟩ <;>
      rcases settles with rfl | ⟨rolledBack, rfl⟩ <;> simp
  commits_all := by
    have quiet {before signals : List (StoreCall × Bool)}
        (none : ∀ signal ∈ signals, signal.1 ≠ .commit) :
        InOrder (fun seen signal => signal.1 = .commit →
          before ++ seen = (.start, true) :: mergeSignals ops) signals :=
      .of_forall fun signal member _ isCommit => absurd isCommit (none signal member)
    rw [List.append_assoc]
    refine .append ?_ (quiet ?_)
    · cases isAttempt with
      | unstarted => exact .singleton (by simp)
      | stopped reached rolledBack =>
          refine .append (@quiet [] _ fun _ inside => (mem_opening inside).2.1) (quiet ?_)
          simp
      | ended committed =>
          refine .append (@quiet [] _ fun _ inside => (mem_opening inside).2.1) (.singleton ?_)
          exact fun _ => List.append_nil _
    · rcases settles with rfl | ⟨rolledBack, rfl⟩ <;> simp
  rolls_back := by
    obtain ⟨opening, ending, rfl, succeeds, ends⟩ := isAttempt.parts
    rw [List.append_assoc, List.append_assoc]
    apply rolls_back_append fun signal inside => (succeeds signal inside).1
    rcases ends with rfl | ⟨op, rolledBack, rfl⟩ | ⟨committed, rfl⟩ <;>
      rcases settles with rfl | ⟨rolledBack, rfl⟩ <;> simp [StoreCall.op?]
  closes := by
    obtain ⟨opening, ending, rfl, succeeds, ends⟩ := isAttempt.parts
    have none : ∀ signal ∈ ending ++ settling, signal.1 ≠ .close := by
      rcases ends with rfl | ⟨op, rolledBack, rfl⟩ | ⟨committed, rfl⟩ <;>
        rcases settles with rfl | ⟨rolledBack, rfl⟩ <;> simp
    refine ⟨_, answer, rfl, fun signal member => ?_⟩
    rw [List.append_assoc] at member
    rcases List.mem_append.mp member with early | late
    · exact (succeeds signal early).2.2
    · exact none signal late

/-- The attempt succeeded exactly if the start, all merges and the commit did. -/
theorem Attempt.succeeded_iff {ops : List MergeOp} {attempt : List (StoreCall × Bool)}
    {succeeded : Bool} (isAttempt : Attempt ops attempt succeeded)
    (later : List (StoreCall × Bool)) :
    succeeded = true ↔
      (.start, true) :: mergeSignals ops ++ [(.commit, true)] <+: attempt ++ later := by
  cases isAttempt with
  | unstarted => simp
  | stopped reached rolledBack => simp [reached, mergeSignals, List.prefix_append_right_inj]
  | ended committed => simp [List.prefix_append_right_inj]

/-- The calls of an application to any store, as a recorder sees that changes neither the answer nor
the store.  They are in order; behind the attempt at the transaction comes a rollback exactly if a
transaction is then still open, and the close.  The application succeeds exactly if the start, all
merges and the commit do. -/
theorem applications_follow_the_protocol {σ : Type} [GraphStore σ] (ops : List MergeOp)
    (store : σ) :
    let recorded := apply ops (Recorded.of store .none)
    let log := recorded.2.log
    (recorded.1 = (apply ops store).1 ∧ recorded.2.inner = (apply ops store).2) ∧
      Orderly ops (log.map LoggedCall.signal) ∧
      (∃ attempt settling closing succeeded, log = attempt ++ settling ++ [closing] ∧
        Attempt ops (attempt.map LoggedCall.signal) succeeded ∧
        settling.map LoggedCall.call =
          (if attempt.getLast?.any LoggedCall.inTransaction then [.rollback] else []) ∧
        closing.call = .close) ∧
      ((∃ count, (apply ops store).1 = .ok count) ↔
        (.start, true) :: mergeSignals ops ++ [(.commit, true)] <+:
          log.map LoggedCall.signal) := by
  intro recorded log
  obtain ⟨answered, watched, _⟩ := answerAlike_watches.apply ops
    (show Watches (Recorded.of store .none) store from ⟨rfl, rfl⟩)
  cases run : transact ops (Recorded.of store .none) with
  | mk answer after =>
      have applied : recorded = (answer, finish after) := by simp only [recorded, apply, run]
      obtain ⟨isAttempt, isOpen⟩ := log_of_transact ops rfl run
      obtain ⟨settling, closing, parts, settles, closes⟩ := log_finish after
      have logged : log = after.log ++ settling ++ [closing] := by
        rw [← parts]
        exact congrArg (·.2.log) applied
      have signals : log.map LoggedCall.signal = after.log.map LoggedCall.signal ++
          settling.map LoggedCall.signal ++ [(.close, closing.succeeded)] := by
        rw [logged, ← closes]
        simp [LoggedCall.signal]
      refine ⟨⟨answered, watched⟩, ?_, ⟨after.log, settling, closing, answer.isOk, logged,
        isAttempt, isOpen ▸ settles, closes⟩, ?_⟩
      · rw [signals]
        apply isAttempt.orderly
        split at settles
        · obtain ⟨entry, rfl, isRollback⟩ := List.map_eq_singleton_iff.mp settles
          exact .inr ⟨entry.succeeded, by simp [LoggedCall.signal, isRollback]⟩
        · exact .inl (by rw [List.map_eq_nil_iff.mp settles, List.map_nil])
      · have succeeds : (∃ count, (apply ops store).1 = .ok count) ↔ answer.isOk = true := by
          rw [← answered, show (apply ops (Recorded.of store .none)).1 = answer from
            congrArg Prod.fst applied]
          cases answer <;> simp [Except.isOk, Except.toBool]
        rw [succeeds, signals, List.append_assoc]
        exact isAttempt.succeeded_iff _

end ScopeGraph
