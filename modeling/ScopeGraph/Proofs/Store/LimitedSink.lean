import ScopeGraph.Proofs.Store.ScriptLog

/-!
# Scripts on a limited sink

A script on a sink with a limit completes the same transactions as one on a sink that takes
everything, and offers the same lines.  The sink holds the first bytes of them, the script counts
the statements of the lines that went in whole, and a commit that fails leaves nothing behind.
-/
set_option autoImplicit false

namespace ScopeGraph

open GraphStore (call callAll inTransaction)

/-! ## Lines offered to a sink -/

/-- A sink that was offered these bytes. -/
def Sink.offered (limit : Nat) (refusesFlush : Bool) (bytes : List UInt8) : Sink :=
  ⟨bytes.take limit, some limit, refusesFlush⟩

theorem room_offered (limit : Nat) (before : List UInt8) :
    limit - (before.take limit).length = limit - before.length := by
  rw [List.length_take]
  omega

theorem take_offered_append (limit : Nat) (before bytes : List UInt8) :
    (before.take limit ++ bytes).take limit = (before ++ bytes).take limit := by
  rw [List.take_append, List.take_append, room_offered, List.take_take, Nat.min_self]

theorem Sink.write_offered (limit : Nat) (refusesFlush : Bool) (before bytes : List UInt8) :
    (Sink.offered limit refusesFlush before).write bytes =
      (if bytes.length ≤ limit - before.length then .ok () else .error .sinkFull,
        .offered limit refusesFlush (before ++ bytes)) := by
  have held : before.take limit ++ bytes.take (limit - before.length) =
      (before ++ bytes).take limit := List.take_append.symm
  simp only [Sink.write, Sink.offered, room_offered, held]

/-- What the writing of a line answers. -/
def lineAnswer (room : Nat) (refusesFlush : Bool) (ops : List MergeOp) : Except Error Unit :=
  if room < (payloadBytes ops).length then .error .serialization
  else if room < (lineBytes ops).length then .error (.io .sinkFull)
  else if refusesFlush then .error (.io .flushRefused)
  else .ok ()

theorem length_lineBytes (ops : List MergeOp) :
    (lineBytes ops).length = (payloadBytes ops).length + 1 := by
  rw [lineBytes, List.length_append, List.length_singleton]

theorem lineAnswer_eq_ok_iff (room : Nat) (refusesFlush : Bool) (ops : List MergeOp) :
    lineAnswer room refusesFlush ops = .ok () ↔
      (lineBytes ops).length ≤ room ∧ refusesFlush = false := by
  have length := length_lineBytes ops
  unfold lineAnswer
  split
  · simp only [reduceCtorEq, false_iff]
    omega
  split
  · simp only [reduceCtorEq, false_iff]
    omega
  cases refusesFlush
  · simp only [Bool.false_eq_true, if_false, and_true, true_iff]
    omega
  · simp

/-- Once the text has overrun the sink the missing line break changes nothing. -/
theorem Script.writeLine_offered (limit : Nat) (refusesFlush : Bool) (before : List UInt8)
    (ops : List MergeOp) :
    Script.writeLine (ops.map Cypher.ofMerge) (.offered limit refusesFlush before) =
      (lineAnswer (limit - before.length) refusesFlush ops,
        .offered limit refusesFlush (before ++ lineBytes ops)) := by
  have text : utf8Bytes (Script.line (ops.map Cypher.ofMerge)) = payloadBytes ops := rfl
  have length := length_lineBytes ops
  rw [Script.writeLine, text, Sink.write_offered]
  by_cases overrun : limit - before.length < (payloadBytes ops).length
  · have held : Sink.offered limit refusesFlush (before ++ payloadBytes ops) =
        .offered limit refusesFlush (before ++ lineBytes ops) := by
      have reached : limit ≤ (before ++ payloadBytes ops).length := by
        rw [List.length_append]
        omega
      rw [lineBytes, ← List.append_assoc]
      exact congrArg (Sink.mk · (some limit) refusesFlush)
        (List.take_append_of_le_length reached).symm
    rw [if_neg (Nat.not_le_of_lt overrun), held, lineAnswer, if_pos overrun]
  rw [if_pos (Nat.not_lt.mp overrun), lineAnswer, if_neg overrun, utf8Bytes_lineBreak]
  dsimp only
  rw [Sink.write_offered, List.append_assoc, ← lineBytes, List.length_append]
  by_cases full : limit - before.length < (lineBytes ops).length
  · have none : ¬ [(10 : UInt8)].length ≤ limit - (before.length + (payloadBytes ops).length) := by
      rw [List.length_singleton]
      omega
    rw [if_neg none, if_pos full]
  have fits : [(10 : UInt8)].length ≤ limit - (before.length + (payloadBytes ops).length) := by
    rw [List.length_singleton]
    omega
  rw [if_pos fits, if_neg full]
  cases refusesFlush <;> rfl

theorem Script.put_offered (limit : Nat) (refusesFlush : Bool) (before : List UInt8)
    (committed : Nat) (ops : List MergeOp) :
    (Script.mk (.offered limit refusesFlush before) true false [] committed).put
        (ops.map Cypher.ofMerge) =
      match lineAnswer (limit - before.length) refusesFlush ops with
      | .ok () => ⟨.ok (), .mk (.offered limit refusesFlush (before ++ lineBytes ops)) true false []
          (committed + ops.length)⟩
      | .error cause => ⟨.error cause,
          .mk (.offered limit refusesFlush (before ++ lineBytes ops)) true false [] committed⟩ := by
  rw [Script.put, if_pos rfl, Script.writeLine_offered, List.length_map]
  cases lineAnswer (limit - before.length) refusesFlush ops <;> rfl

/-! ## Lines that fit -/

/-- The transactions whose lines end within the limit. -/
def wholeLines : Nat → List (List MergeOp) → List (List MergeOp)
  | _, [] => []
  | limit, ops :: rest =>
    if (lineBytes ops).length ≤ limit then ops :: wholeLines (limit - (lineBytes ops).length) rest
    else []

theorem wholeLines_append (limit : Nat) (written : List (List MergeOp)) (ops : List MergeOp) :
    wholeLines limit (written ++ [ops]) = wholeLines limit written ++
      if (lineBytes ops).length ≤ limit - (written.flatMap lineBytes).length then [ops]
      else [] := by
  induction written generalizing limit with
  | nil => simp [wholeLines]
  | cons first rest ih =>
      rw [List.cons_append, wholeLines, wholeLines, List.flatMap_cons, List.length_append,
        ← Nat.sub_sub]
      split
      · rw [ih, List.cons_append]
      · next overrun =>
          have length := length_lineBytes ops
          rw [if_neg (by omega), List.append_nil]

theorem prefix_wholeLines_iff {front written : List (List MergeOp)} (first : front <+: written)
    (limit : Nat) :
    front <+: wholeLines limit written ↔ (front.flatMap lineBytes).length ≤ limit := by
  induction written generalizing front limit with
  | nil => simp [wholeLines, List.prefix_nil.mp first]
  | cons ops rest ih =>
      cases front with
      | nil => simp
      | cons head tail =>
          obtain ⟨rfl, others⟩ := List.cons_prefix_cons.mp first
          rw [wholeLines, List.flatMap_cons, List.length_append]
          split
          · rw [List.cons_prefix_cons, ih others]
            simp only [true_and]
            omega
          · simp only [List.prefix_nil, reduceCtorEq, false_iff]
            omega

theorem wholeLines_prefix (limit : Nat) (written : List (List MergeOp)) :
    wholeLines limit written <+: written := by
  induction written generalizing limit with
  | nil => exact List.nil_prefix
  | cons ops rest ih =>
      rw [wholeLines]
      split
      · exact List.cons_prefix_cons.mpr ⟨rfl, ih _⟩
      · exact List.nil_prefix

/-! ## The script of a journal -/

namespace Journal

variable (limit : Nat) (refusesFlush : Bool)

def limitedScript (journal : Journal) : Script :=
  { journal.script with
    sink := .offered limit refusesFlush (journal.written.flatMap lineBytes)
    committed := if refusesFlush then 0 else (wholeLines limit journal.written).flatten.length }

theorem put_limitedScript (written : List (List MergeOp)) (ops : List MergeOp) :
    ((Journal.mk written .idle).limitedScript limit refusesFlush).put (ops.map Cypher.ofMerge) =
      ⟨lineAnswer (limit - (written.flatMap lineBytes).length) refusesFlush ops,
        (Journal.mk (written ++ [ops]) .idle).limitedScript limit refusesFlush⟩ := by
  have lines : (written ++ [ops]).flatMap lineBytes =
      written.flatMap lineBytes ++ lineBytes ops := by simp
  have counted : (wholeLines limit (written ++ [ops])).flatten.length =
      (wholeLines limit written).flatten.length +
        if (lineBytes ops).length ≤ limit - (written.flatMap lineBytes).length then ops.length
        else 0 := by
    rw [wholeLines_append, List.flatten_append, List.length_append]
    split <;> simp
  have goesIn := lineAnswer_eq_ok_iff (limit - (written.flatMap lineBytes).length) refusesFlush ops
  refine (Script.put_offered limit refusesFlush _ _ ops).trans ?_
  rw [limitedScript, lines]
  cases answer : lineAnswer (limit - (written.flatMap lineBytes).length) refusesFlush ops with
  | ok =>
      obtain ⟨fits, rfl⟩ := goesIn.mp answer
      rw [counted, if_pos fits]
      rfl
  | error cause =>
      cases refusesFlush with
      | true => rfl
      | false =>
          have overrun : ¬ (lineBytes ops).length ≤ limit - (written.flatMap lineBytes).length := by
            intro fits
            cases answer.symm.trans (goesIn.mpr ⟨fits, rfl⟩)
          rw [counted, if_neg overrun]
          rfl

theorem call_merge_limitedScript (written : List (List MergeOp)) (op : MergeOp) :
    call (.merge op) ((Journal.mk written .idle).limitedScript limit refusesFlush) =
      ⟨lineAnswer (limit - (written.flatMap lineBytes).length) refusesFlush [op],
        (Journal.mk (written ++ [[op]]) .idle).limitedScript limit refusesFlush⟩ :=
  put_limitedScript limit refusesFlush written [op]

theorem call_commit_limitedScript (written : List (List MergeOp)) (pending : List MergeOp) :
    call .commit ((Journal.mk written (.within pending)).limitedScript limit refusesFlush) =
      ⟨lineAnswer (limit - (written.flatMap lineBytes).length) refusesFlush pending,
        (Journal.mk (written ++ [pending]) .idle).limitedScript limit refusesFlush⟩ :=
  put_limitedScript limit refusesFlush written pending

/-- Whatever it answers, a call moves the script on as it moves the journal. -/
theorem state_call_limitedScript (next : StoreCall) (journal : Journal) :
    (call next (journal.limitedScript limit refusesFlush)).state =
      (call next journal).state.limitedScript limit refusesFlush := by
  obtain ⟨written, phase⟩ := journal
  cases next with
  | start => cases phase <;> rfl
  | merge op =>
      cases phase with
      | closed => rfl
      | idle => rw [call_merge_limitedScript]; rfl
      | within pending => simp [call, Script.merge, merge, limitedScript, script]
  | commit =>
      cases phase with
      | closed => rfl
      | idle => rfl
      | within pending => rw [call_commit_limitedScript]; rfl
  | rollback => cases phase <;> rfl
  | close => cases phase <;> rfl

theorem callAll_merges (written : List (List MergeOp)) (ops pending : List MergeOp) :
    callAll (ops.map StoreCall.merge) (Journal.mk written (.within pending)) =
      ⟨written, .within (pending ++ ops)⟩ := by
  induction ops generalizing pending with
  | nil => rw [List.append_nil]; rfl
  | cons op rest ih =>
      have whole := ih (pending ++ [op])
      rw [List.append_assoc] at whole
      exact whole

end Journal

/-! ## What a script holds -/

section Limited

variable (limit : Nat) (refusesFlush : Bool) (calls : List StoreCall)

theorem limitedScript_after :
    callAll calls (Script.onSink ⟨[], some limit, refusesFlush⟩) =
      (Journal.mk (transactions calls) (phaseAfter calls)).limitedScript limit refusesFlush := by
  have new : Script.onSink ⟨[], some limit, refusesFlush⟩ =
      Journal.new.limitedScript limit refusesFlush := by
    cases refusesFlush <;> simp [Journal.limitedScript, Journal.new, Journal.script, Script.onSink,
      Sink.offered, wholeLines]
  rw [new, ← Journal.callAll_new]
  exact callAll_view (Journal.state_call_limitedScript limit refusesFlush) calls Journal.new

theorem result_of_completed {next : StoreCall} {ops : List MergeOp}
    (completed : completed? calls next = some ops) :
    (call next (callAll calls (Script.onSink ⟨[], some limit, refusesFlush⟩))).result =
      lineAnswer (limit - ((transactions calls).flatMap lineBytes).length) refusesFlush ops := by
  rw [limitedScript_after]
  by_cases closed : .close ∈ calls
  · cases next <;> simp [completed?, openTransaction?, closed] at completed
  rw [phaseAfter_open closed]
  cases next with
  | merge op =>
      cases found : openTransaction? calls with
      | none =>
          obtain rfl : [op] = ops := by simpa [completed?, closed, found] using completed
          rw [Journal.call_merge_limitedScript]
      | some pending => simp [completed?, found] at completed
  | commit =>
      rw [show openTransaction? calls = some ops from completed]
      dsimp only
      rw [Journal.call_commit_limitedScript]
  | start => cases completed
  | rollback => cases completed
  | close => cases completed

/-- A commit fails in a transaction only, and ends it. -/
theorem after_failed_commit {cause : Error} {after : Script}
    (fails : call .commit (callAll calls (Script.onSink ⟨[], some limit, refusesFlush⟩)) =
      ⟨.error cause, after⟩) :
    ∃ written, after = (Journal.mk written .idle).limitedScript limit refusesFlush := by
  rw [limitedScript_after] at fails
  cases phase : phaseAfter calls with
  | closed =>
      rw [phase] at fails
      cases congrArg Reply.result fails
  | idle =>
      rw [phase] at fails
      cases congrArg Reply.result fails
  | within pending =>
      rw [phase, Journal.call_commit_limitedScript] at fails
      exact ⟨_, (congrArg Reply.state fails).symm⟩

theorem limitedScript_next_transaction (written : List (List MergeOp)) (ops : List MergeOp) :
    callAll (.start :: ops.map .merge)
        ((Journal.mk written .idle).limitedScript limit refusesFlush) =
      (Journal.mk written (.within ops)).limitedScript limit refusesFlush := by
  rw [callAll_view (Journal.state_call_limitedScript limit refusesFlush)]
  exact congrArg (Journal.limitedScript limit refusesFlush) (Journal.callAll_merges written ops [])

/-- After any calls the sink holds the first bytes of the lines of all completed transactions.  The
script has counted the statements of the lines that the sink holds whole, if it could be flushed.
What completes a transaction answers whether its text, its line break and the flush went through.
A commit that fails leaves no transaction and no statements; the next end of a transaction then does
nothing, and the next transaction consists of its own operations. -/
theorem limited_script_is_cut_log :
    let script := callAll calls (Script.onSink ⟨[], some limit, refusesFlush⟩)
    let lines := (transactions calls).flatMap lineBytes
    script.sink.held = lines.take limit ∧
      (∃ whole, whole <+: transactions calls ∧
        (∀ front, front <+: transactions calls →
          (front.flatMap lineBytes <+: script.sink.held ↔ front <+: whole)) ∧
        script.committed = if refusesFlush then 0 else whole.flatten.length) ∧
      (∀ next ops, completed? calls next = some ops →
        (call next script).result = lineAnswer (limit - lines.length) refusesFlush ops) ∧
      ∀ cause after, call .commit script = ⟨.error cause, after⟩ →
        after.inTransaction = false ∧ after.pending = [] ∧
        call .commit after = ⟨.ok (), after⟩ ∧ call .rollback after = ⟨.ok (), after⟩ ∧
        ∀ ops : List MergeOp,
          let later := callAll (.start :: ops.map .merge) after
          later.pending = ops.map Cypher.ofMerge ∧ later.sink = after.sink ∧
          (call .commit later).state.sink.held = (after.sink.held ++ lineBytes ops).take limit := by
  intro script lines
  have reached : script = (Journal.mk (transactions calls) (phaseAfter calls)).limitedScript limit
      refusesFlush := limitedScript_after limit refusesFlush calls
  have held : script.sink.held = lines.take limit := congrArg (·.sink.held) reached
  refine ⟨held, ⟨wholeLines limit (transactions calls), wholeLines_prefix limit _, ?_,
    congrArg Script.committed reached⟩,
    fun next ops => result_of_completed limit refusesFlush calls, ?_⟩
  · intro front first
    have offered : front.flatMap lineBytes <+: lines := by
      obtain ⟨rest, whole⟩ := first
      exact ⟨rest.flatMap lineBytes, by rw [← List.flatMap_append, whole]⟩
    rw [held, List.prefix_take_iff, prefix_wholeLines_iff first]
    exact and_iff_right offered
  · intro cause after fails
    obtain ⟨written, rfl⟩ := after_failed_commit limit refusesFlush calls fails
    refine ⟨rfl, rfl, rfl, rfl, fun ops => ?_⟩
    dsimp only
    rw [limitedScript_next_transaction, Journal.call_commit_limitedScript]
    refine ⟨rfl, rfl, ?_⟩
    have lines : (written ++ [ops]).flatMap lineBytes =
        written.flatMap lineBytes ++ lineBytes ops := by simp
    exact (congrArg (List.take limit) lines).trans (take_offered_append limit _ _).symm

end Limited

/-- The first line has 119 bytes, so the limit falls into the second one. -/
theorem second_line_is_cut :
    let op : MergeOp := .plainNode ⟨.callee, [("name", "run")]⟩ []
    let calls : List StoreCall := [.merge op, .start, .merge op]
    let script := callAll calls (Script.onSink ⟨[], some 130, false⟩)
    [[op]] <+: transactions calls ∧ completed? calls .commit = some [op] ∧
      lineBytes [op] <+: script.sink.held ∧ script.committed = 1 ∧
      ∃ after, call .commit script = ⟨.error .serialization, after⟩ ∧
        after.inTransaction = false ∧ after.pending = [] ∧
        (callAll [.start, .merge op] after).pending = [Cypher.ofMerge op] := by
  intro op calls script
  obtain ⟨held, ⟨whole, isFront, fits, counted⟩, answers, ends⟩ :=
    limited_script_is_cut_log 130 false calls
  have once : transactions calls = [[op]] := rfl
  have completed : completed? calls .commit = some [op] := rfl
  have text : (payloadBytes [op]).length = 118 := by
    rw [payloadBytes, utf8Bytes_eq, Json.render, String.toList_ofList]
    decide +kernel
  have line := length_lineBytes [op]
  have offered : (transactions calls).flatMap lineBytes = lineBytes [op] := by
    rw [once]
    exact List.flatMap_singleton lineBytes [op]
  have first : script.sink.held = lineBytes [op] := by
    rw [held, offered, List.take_of_length_le (by omega)]
  have inside : lineBytes [op] <+: script.sink.held := first ▸ List.prefix_rfl
  have all : whole = [[op]] := by
    have reached := (fits [[op]] (once ▸ List.prefix_rfl)).mp (by simpa using inside)
    exact List.IsPrefix.eq_of_length_le (once ▸ isFront) reached.length_le
  obtain ⟨after, refused⟩ : ∃ after, call .commit script = ⟨.error .serialization, after⟩ := by
    have answer := answers .commit [op] completed
    rw [offered, lineAnswer, if_pos (by omega)] at answer
    cases reply : call .commit script with
    | mk result after =>
        obtain rfl : result = .error .serialization :=
          (congrArg Reply.result reply).symm.trans answer
        exact ⟨after, rfl⟩
  obtain ⟨ended, dropped, _, _, next⟩ := ends _ _ refused
  refine ⟨once ▸ List.prefix_rfl, completed, inside, ?_, after, refused, ended, dropped,
    (next [op]).1⟩
  rw [counted, all]
  rfl

end ScopeGraph
