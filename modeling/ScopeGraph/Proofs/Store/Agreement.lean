import ScopeGraph.Proofs.Store.ScriptLog

/-!
# Database and script agree

A new database is a view of the journal that a new script on a sink that takes everything is a view
of.  So the two give the same answers to the same calls, and what the database has committed is
always the content that the statements written so far would build.
-/
set_option autoImplicit false

namespace ScopeGraph

open GraphStore (call callAll inTransaction)

/-! ## The database of a journal -/

namespace Journal

/-- The content that the committed transactions build from nothing. -/
def content (journal : Journal) : Content := Content.empty.mergeAll journal.written.flatten

def database (journal : Journal) : Database where
  committed := journal.content
  working? :=
    match journal.phase with
    | .within pending => some (journal.content.mergeAll pending)
    | _ => none
  isOpen :=
    match journal.phase with
    | .closed => false
    | _ => true

theorem content_append (written : List (List MergeOp)) (phase : Phase) (batch : List MergeOp) :
    (Journal.mk (written ++ [batch]) phase).content =
      (Journal.mk written phase).content.mergeAll batch := by
  simp [content, Content.mergeAll, List.foldl_append]

theorem isView_database : IsView database where
  call := by
    rintro next ⟨written, phase⟩
    cases next with
    | start => cases phase <;> rfl
    | merge op =>
        cases phase with
        | closed => rfl
        | idle =>
            have grown := content_append written .idle [op]
            simp only [call, Database.merge, merge, database, grown]
            rfl
        | within pending =>
            have grown :
                ((Journal.mk written (.within pending)).content.mergeAll pending).merge op =
                (Journal.mk written (.within pending)).content.mergeAll (pending ++ [op]) := by
              simp [Content.mergeAll, List.foldl_append]
            simp only [call, Database.merge, merge, database, grown]
            rfl
    | commit =>
        cases phase with
        | closed => rfl
        | idle => rfl
        | within pending =>
            have grown := content_append written .idle pending
            simp only [call, Database.commit, commit, database, grown]
            rfl
    | rollback => cases phase <;> rfl
    | close => cases phase <;> rfl
  inTransaction := by
    rintro ⟨written, phase⟩
    cases phase <;> rfl

end Journal

/-! ## Answers -/

/-- What a store answers to calls in turn, each with whether a transaction is open afterwards. -/
def answers {σ : Type} [GraphStore σ] : List StoreCall → σ → List (Except Error Unit × Bool)
  | [], _ => []
  | next :: rest, store =>
    let reply := call next store
    (reply.result, inTransaction reply.state) :: answers rest reply.state

theorem IsView.answers {σ τ : Type} [GraphStore σ] [GraphStore τ] {view : σ → τ}
    (isView : IsView view) (calls : List StoreCall) (store : σ) :
    answers calls (view store) = answers calls store := by
  induction calls generalizing store with
  | nil => rfl
  | cons next rest ih =>
      simp only [ScopeGraph.answers, isView.call, isView.inTransaction, ih]

/-- Nothing goes wrong on a journal but the use after its end. -/
theorem Journal.result_call (next : StoreCall) (journal : Journal) :
    (call next journal).result = .ok () ∨ (call next journal).result = .error .storeClosed := by
  obtain ⟨written, phase⟩ := journal
  cases next <;> cases phase <;> first | exact .inl rfl | exact .inr rfl

theorem Journal.result_of_mem_answers (calls : List StoreCall) (journal : Journal) :
    ∀ answer ∈ answers calls journal,
      answer.1 = .ok () ∨ answer.1 = .error .storeClosed := by
  induction calls generalizing journal with
  | nil =>
      intro answer member
      cases member
  | cons next rest ih =>
      intro answer member
      rcases List.mem_cons.mp member with same | later
      · rw [same]
        exact journal.result_call next
      · exact ih _ answer later

/-- Run side by side from nothing, a database and a script give the same answers at every step.
After any number of steps the script holds one line of JSON for each transaction completed so far,
made of operations that it was handed, and no other transactions make up these lines.  The database
has committed exactly what the operations in them build. -/
theorem database_and_script_agree (calls : List StoreCall) :
    let database := Database.ofContent .empty
    let script := Script.onSink .unlimited
    answers calls database = answers calls script ∧
      (∀ answer ∈ answers calls database,
        answer.1 = .ok () ∨ answer.1 = .error .storeClosed) ∧
      ∀ steps : Nat,
        let past := calls.take steps
        let line := fun ops : List MergeOp =>
          utf8Bytes (CypherStatement.payload (ops.map Cypher.ofMerge)).render ++ [10]
        (transactions past).flatten.Sublist (past.filterMap StoreCall.op?) ∧
        (∀ written : List (List MergeOp),
          (callAll past script).sink.held = written.flatMap line ↔ written = transactions past) ∧
        (callAll past script).committed = (transactions past).flatten.length ∧
        (callAll past database).committed =
          Content.empty.mergeAll (transactions past).flatten := by
  intro database script
  have sameDatabase : database = Journal.new.database := rfl
  have sameScript : script = Journal.new.script := rfl
  refine ⟨?_, ?_, ?_⟩
  · rw [sameDatabase, sameScript, Journal.isView_database.answers, Journal.isView_script.answers]
  · rw [sameDatabase, Journal.isView_database.answers]
    exact Journal.result_of_mem_answers calls Journal.new
  · intro steps past line
    have reached := Journal.callAll_new past
    have handed := Journal.operations_callAll past Journal.new
    rw [reached] at handed
    rw [sameDatabase, Journal.isView_database.callAll, reached, script_after]
    refine ⟨(List.sublist_append_left _ _).trans handed, fun written => ?_, rfl, rfl⟩
    have lines : line = lineBytes := rfl
    rw [lines]
    constructor
    · exact fun same => (flatMap_lineBytes_inj same).symm
    · rintro rfl
      rfl

end ScopeGraph
