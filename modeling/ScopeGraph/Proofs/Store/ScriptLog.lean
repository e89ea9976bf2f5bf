import Mathlib.Algebra.GroupWithZero.Nat
import Mathlib.Data.List.DropRight
import ScopeGraph.Proofs.Graph.Cypher
import ScopeGraph.Proofs.Json.OneLine
import ScopeGraph.Proofs.Store.Journal
import ScopeGraph.Proofs.Text.Bytes

/-!
# A script is a log of transactions

The calls made so far tell which transactions they completed, without any store: a commit completes
what was merged since the start behind the last end of a transaction, and a merge outside of
transactions completes itself.  A script on a sink that takes everything holds one line for each
completed transaction and nothing else, and the lines give the transactions back.
-/
set_option autoImplicit false

namespace ScopeGraph

open GraphStore (call callAll)

/-! ## Completed transactions -/

/-- The calls that end a transaction. -/
def StoreCall.isEnd : StoreCall → Bool
  | commit | rollback | close => true
  | start | merge _ => false

/-- What was merged in the transaction that is open after these calls: it starts with the first
start behind the last end.  After a close there is none. -/
def openTransaction? (past : List StoreCall) : Option (List MergeOp) :=
  if .close ∈ past then none
  else
    match (past.rtakeWhile (!·.isEnd)).dropWhile (· ≠ .start) with
    | [] => none
    | _ :: since => some (since.filterMap StoreCall.op?)

/-- The transaction that a call completes after these ones. -/
def completed? (past : List StoreCall) : StoreCall → Option (List MergeOp)
  | .commit => openTransaction? past
  | .merge op => if .close ∈ past ∨ (openTransaction? past).isSome then none else some [op]
  | .start | .rollback | .close => none

/-- The transactions that the calls complete, in order. -/
def transactions (calls : List StoreCall) : List (List MergeOp) :=
  (List.range calls.length).filterMap fun i => calls[i]?.bind (completed? (calls.take i))

theorem transactions_append (calls : List StoreCall) (next : StoreCall) :
    transactions (calls ++ [next]) = transactions calls ++ (completed? calls next).toList := by
  have before : (List.range calls.length).filterMap
      (fun i => (calls ++ [next])[i]?.bind (completed? ((calls ++ [next]).take i))) =
      transactions calls := by
    refine List.filterMap_congr fun i member => ?_
    have within := List.mem_range.mp member
    rw [List.getElem?_append_left within, List.take_append_of_le_length (Nat.le_of_lt within)]
  rw [transactions, List.length_append, List.length_singleton, List.range_succ,
    List.filterMap_append, before]
  cases completed : completed? calls next <;> simp [completed]

section Open

variable {calls : List StoreCall}

theorem openTransaction?_end (next : StoreCall) (ends : next.isEnd) :
    openTransaction? (calls ++ [next]) = none := by
  rw [openTransaction?]
  split
  · rfl
  · rw [List.rtakeWhile_concat_neg _ _ _ (by simpa using ends)]
    rfl

/-- A call that ends nothing is taken into the open transaction, or starts one. -/
theorem openTransaction?_append (next : StoreCall) (still : .close ∉ calls)
    (goesOn : ¬ next.isEnd) :
    openTransaction? (calls ++ [next]) =
      match openTransaction? calls with
      | some merged => some (merged ++ next.op?.toList)
      | none => if next = .start then some [] else none := by
  have other : next ≠ .close := fun same => goesOn (by rw [same]; rfl)
  have stillAfter : .close ∉ calls ++ [next] := by simp [still, Ne.symm other]
  rw [openTransaction?, openTransaction?, if_neg still, if_neg stillAfter,
    List.rtakeWhile_concat_pos _ _ _ (by simpa using goesOn), List.dropWhile_append]
  cases run : (calls.rtakeWhile (!·.isEnd)).dropWhile (· ≠ .start) with
  | nil => by_cases starts : next = .start <;> simp [starts, List.dropWhile]
  | cons first since => cases operation : next.op? <;> simp [operation]

end Open

/-! ## The journal of the calls -/

/-- What a journal can do after these calls. -/
def phaseAfter (calls : List StoreCall) : Phase :=
  if .close ∈ calls then .closed
  else
    match openTransaction? calls with
    | none => .idle
    | some merged => .within merged

theorem phaseAfter_closed {calls : List StoreCall} (closed : .close ∈ calls) :
    phaseAfter calls = .closed := if_pos closed

theorem phaseAfter_open {calls : List StoreCall} (still : .close ∉ calls) :
    phaseAfter calls =
      match openTransaction? calls with
      | none => .idle
      | some merged => .within merged := if_neg still

namespace Journal

variable (calls : List StoreCall) (written : List (List MergeOp))

theorem call_after_close (closed : .close ∈ calls) (next : StoreCall) :
    (GraphStore.call next (Journal.mk written (phaseAfter calls))).state =
      ⟨written ++ (completed? calls next).toList, phaseAfter (calls ++ [next])⟩ := by
  have none : completed? calls next = none := by
    cases next with
    | commit => exact if_pos closed
    | merge op => exact if_pos (Or.inl closed)
    | _ => rfl
  rw [phaseAfter_closed closed, phaseAfter_closed (List.mem_append_left _ closed), none]
  cases next <;> simp [GraphStore.call, start, merge, commit, rollback, close]

/-- One call moves the journal on as the calls so far say. -/
theorem call_after (next : StoreCall) :
    (GraphStore.call next (Journal.mk written (phaseAfter calls))).state =
      ⟨written ++ (completed? calls next).toList, phaseAfter (calls ++ [next])⟩ := by
  by_cases closed : .close ∈ calls
  · exact call_after_close calls written closed next
  have still (next : StoreCall) (other : next ≠ .close) : .close ∉ calls ++ [next] := by
    simp [closed, Ne.symm other]
  rw [phaseAfter_open closed]
  cases next with
  | start =>
      rw [phaseAfter_open (still .start (by simp)),
        openTransaction?_append .start closed (by simp [StoreCall.isEnd])]
      cases openTransaction? calls <;> simp [GraphStore.call, start, completed?, StoreCall.op?]
  | merge op =>
      rw [phaseAfter_open (still (.merge op) (by simp)),
        openTransaction?_append (.merge op) closed (by simp [StoreCall.isEnd])]
      cases found : openTransaction? calls <;>
        simp [GraphStore.call, merge, completed?, found, closed, StoreCall.op?]
  | commit =>
      rw [phaseAfter_open (still .commit (by simp)), openTransaction?_end .commit rfl]
      cases found : openTransaction? calls <;> simp [GraphStore.call, commit, completed?, found]
  | rollback =>
      rw [phaseAfter_open (still .rollback (by simp)), openTransaction?_end .rollback rfl]
      cases openTransaction? calls <;> simp [GraphStore.call, rollback, completed?]
  | close =>
      rw [phaseAfter_closed (List.mem_append_right _ List.mem_cons_self)]
      cases openTransaction? calls <;> simp [GraphStore.call, close, completed?]

theorem callAll_new :
    callAll calls Journal.new = ⟨transactions calls, phaseAfter calls⟩ := by
  induction calls using List.reverseRecOn with
  | nil => rfl
  | append_singleton calls next ih =>
      rw [transactions_append, ← call_after, ← ih]
      simp [callAll]

end Journal

/-! ## The script of a journal -/

/-- The bytes of the JSON text of one transaction. -/
def payloadBytes (ops : List MergeOp) : List UInt8 :=
  utf8Bytes (CypherStatement.payload (ops.map Cypher.ofMerge)).render

/-- The bytes of the line that a transaction with these operations becomes. -/
def lineBytes (ops : List MergeOp) : List UInt8 := payloadBytes ops ++ [10]

theorem utf8Bytes_lineBreak : utf8Bytes "\n" = [10] := by
  rw [utf8Bytes_eq]
  rfl

theorem utf8Bytes_line (ops : List MergeOp) :
    utf8Bytes (Script.line (ops.map Cypher.ofMerge)) ++ utf8Bytes "\n" = lineBytes ops := by
  rw [utf8Bytes_lineBreak]
  rfl

theorem Script.put_unlimited (held : List UInt8) (isOpen : Bool) (committed : Nat)
    (ops : List MergeOp) :
    (Script.mk ⟨held, none, false⟩ true isOpen [] committed).put (ops.map Cypher.ofMerge) =
      ⟨.ok (), ⟨⟨held ++ lineBytes ops, none, false⟩, true, isOpen, [],
        committed + ops.length⟩⟩ := by
  simp [Script.put, Script.writeLine, Sink.write, Sink.flush, ← utf8Bytes_line]

namespace Journal

def script (journal : Journal) : Script where
  sink := ⟨journal.written.flatMap lineBytes, none, false⟩
  isOpen :=
    match journal.phase with
    | .closed => false
    | _ => true
  inTransaction :=
    match journal.phase with
    | .within _ => true
    | _ => false
  pending :=
    match journal.phase with
    | .within pending => pending.map Cypher.ofMerge
    | _ => []
  committed := journal.written.flatten.length

theorem script_append (written : List (List MergeOp)) (batch : List MergeOp) :
    (Journal.mk (written ++ [batch]) .idle).script =
      ⟨⟨written.flatMap lineBytes ++ lineBytes batch, none, false⟩, true, false, [],
        written.flatten.length + batch.length⟩ := by
  simp [script]

theorem isView_script : IsView script where
  call := by
    rintro next ⟨written, phase⟩
    cases next with
    | start => cases phase <;> rfl
    | merge op =>
        cases phase with
        | closed => rfl
        | idle =>
            have put := Script.put_unlimited (written.flatMap lineBytes) false
              written.flatten.length [op]
            rw [← script_append] at put
            exact put
        | within pending =>
            simp [call, Script.merge, merge, script]
    | commit =>
        cases phase with
        | closed => rfl
        | idle => rfl
        | within pending =>
            have put := Script.put_unlimited (written.flatMap lineBytes) false
              written.flatten.length pending
            rw [← script_append] at put
            exact put
    | rollback => cases phase <;> rfl
    | close => cases phase <;> rfl
  inTransaction := by
    rintro ⟨written, phase⟩
    cases phase <;> rfl

end Journal

/-! ## Lines -/

theorem splitOn_lines {lines : List (List UInt8)} (whole : ∀ line ∈ lines, 10 ∉ line) :
    (lines.flatMap fun line => line ++ [10]).splitOn 10 = lines ++ [[]] := by
  induction lines with
  | nil => rfl
  | cons line lines ih =>
      obtain ⟨first, others⟩ := List.forall_mem_cons.mp whole
      have plain : ∀ byte ∈ line, (byte == 10) = false := by
        intro byte member
        exact beq_eq_false_iff_ne.mpr fun same => first (same ▸ member)
      have tail := ih others
      rw [List.splitOn_eq_splitOnP] at tail ⊢
      rw [List.flatMap_cons, List.append_assoc, List.singleton_append,
        List.splitOnP_append_cons_of_forall_mem plain 10 rfl, tail]
      rfl

theorem lineBreak_notMem_payloadBytes (ops : List MergeOp) : 10 ∉ payloadBytes ops := by
  refine lineBreak_notMem_utf8Bytes ?_
  rw [Json.render, String.toList_ofList]
  exact Json.lineBreak_notMem_compact _

theorem splitOn_flatMap_lineBytes (written : List (List MergeOp)) :
    (written.flatMap lineBytes).splitOn 10 = written.map payloadBytes ++ [[]] := by
  have lines : written.flatMap lineBytes =
      (written.map payloadBytes).flatMap fun line => line ++ [10] := by
    rw [List.flatMap_map]
    rfl
  rw [lines]
  refine splitOn_lines fun line member => ?_
  obtain ⟨ops, _, same⟩ := List.mem_map.mp member
  exact same ▸ lineBreak_notMem_payloadBytes ops

/-! ## Reading lines back -/

theorem CypherValue.toJson_inj {first second : CypherValue} (same : first.toJson = second.toJson) :
    first = second := by
  cases first with
  | text value =>
      cases second with
      | text found => rw [Json.string.inj same]
      | properties found => cases same
  | properties value =>
      cases second with
      | text found => cases same
      | properties found =>
          have entries := Json.ofTexts_inj (Json.object.inj same)
          rw [Dictionary.eq_of_entries entries]

theorem CypherStatement.toJson_inj {first second : CypherStatement}
    (same : first.toJson = second.toJson) : first = second := by
  have fields := Json.object.inj same
  have texts : first.text = second.text :=
    Json.string.inj (Prod.mk.inj (List.cons.inj fields).1).2
  have parameters : first.parametersJson = second.parametersJson :=
    (Prod.mk.inj (List.cons.inj (List.cons.inj fields).2).1).2
  have entries : first.parameters.entries = second.parameters.entries := by
    refine (List.map_inj_right ?_).mp (Json.object.inj parameters)
    intro entry found equal
    obtain ⟨names, values⟩ := Prod.mk.inj equal
    exact Prod.ext names (CypherValue.toJson_inj values)
  cases first
  cases second
  cases texts
  cases Dictionary.eq_of_entries entries
  rfl

theorem payloadBytes_inj {first second : List MergeOp}
    (same : payloadBytes first = payloadBytes second) : first = second := by
  have texts := String.ofList_injective (utf8Bytes_inj same)
  have none : Json.Ends [] := nofun
  have payloads := (Json.compact_append_inj _ _ none none (by simpa using texts)).1
  have statements := Json.array.inj (Prod.mk.inj (List.cons.inj (Json.object.inj payloads)).1).2
  have same := (List.map_inj_right fun _ _ => CypherStatement.toJson_inj).mp statements
  exact (List.map_inj_right fun _ _ => Cypher.ofMerge_inj).mp same

/-- The lines of transactions tell the transactions. -/
theorem flatMap_lineBytes_inj {first second : List (List MergeOp)}
    (same : first.flatMap lineBytes = second.flatMap lineBytes) : first = second := by
  have texts := congrArg (List.splitOn 10) same
  rw [splitOn_flatMap_lineBytes, splitOn_flatMap_lineBytes] at texts
  exact (List.map_inj_right fun _ _ => payloadBytes_inj).mp (List.append_cancel_right texts)

/-! ## The log -/

section Log

variable (calls : List StoreCall)

theorem script_after :
    callAll calls (Script.onSink .unlimited) =
      (Journal.mk (transactions calls) (phaseAfter calls)).script := by
  rw [← Journal.callAll_new]
  exact Journal.isView_script.callAll calls Journal.new

theorem splitOn_held :
    (callAll calls (Script.onSink .unlimited)).sink.held.splitOn 10 =
      (transactions calls).map payloadBytes ++ [[]] := by
  rw [script_after]
  exact splitOn_flatMap_lineBytes (transactions calls)

/-- Split at line breaks, the bytes that a script has written are the JSON texts of the completed
transactions, in order, and nothing behind the last line break.  The script has counted the
statements in them.  Other calls lead to the same bytes exactly if they complete the same
transactions. -/
theorem script_is_log_of_transactions :
    let script := callAll calls (Script.onSink .unlimited)
    script.sink.held.splitOn 10 =
        ((transactions calls).map fun ops =>
          utf8Bytes (CypherStatement.payload (ops.map Cypher.ofMerge)).render) ++ [[]] ∧
      script.committed = ((transactions calls).map List.length).sum ∧
      ∀ others : List StoreCall,
        (callAll others (Script.onSink .unlimited)).sink.held = script.sink.held ↔
          transactions others = transactions calls := by
  intro script
  refine ⟨splitOn_held calls, ?_, fun others => ⟨fun same => ?_, fun same => ?_⟩⟩
  · rw [show script = _ from script_after calls, ← List.length_flatten]
    rfl
  · rw [show script = _ from script_after calls, script_after others] at same
    exact flatMap_lineBytes_inj same
  · rw [show script = _ from script_after calls, script_after others, same]
    rfl

end Log

end ScopeGraph
