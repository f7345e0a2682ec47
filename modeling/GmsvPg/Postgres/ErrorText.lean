/-
# The texts of the exceptions of `executeStatement`

libpq gives a message for each call that fails and for each result that is an error; the other
exceptions carry texts of the program's own.  Then no exception of `executeStatement` has an
empty text, as long as the connection is live when it is called.
-/
import GmsvPg.Postgres.Handler

namespace GmsvPg

open Library LibpqExecutor Raise Transaction

/-- libpq gives a message where it refuses to send the request or finds the connection lost,
and for each result that is an error. -/
structure Reply.Explained (reply : Reply) : Prop where
  connection : reply.refused = true ∨ reply.lost = true ∨
    (∃ result ∈ reply.results, result.lost = true) → reply.errorMessage ≠ []
  result : ∀ result ∈ reply.results, result.status.isError = true → result.errorMessage ≠ []

/-- The session has a live connection. -/
def Live (w : Backend) : Prop := ∃ c, w.connectionHandle = some c ∧ c.status = .ok

/-- The exception has a text. -/
def Explains (error : PGException) (_ : Backend) : Prop := error.message ≠ []

/-! ### One request -/

section request

variable {request : Request} {reply : Reply} {c : PGconn} {error : PGException}

lemma isError_of_not_success {status : ExecStatusType} (hcopy : isCopyStatus status = false)
    (hsuccess : isSuccessStatus status = false) : status.isError = true := by
  cases status with
  | badResponse | nonfatalError | fatalError => rfl
  | emptyQuery | commandOk | tuplesOk => exact absurd hsuccess (by decide)
  | copyOut | copyIn | copyBoth => exact absurd hcopy (by decide)

lemma fetch_bad {result : PGresult} (h : (c.fetch result).status = .bad) :
    c.status = .bad ∨ result.lost = true := by
  unfold PGconn.fetch at h
  cases hlost : result.lost with
  | true => exact .inr rfl
  | false =>
      rw [hlost] at h
      exact .inl h

lemma ready_bad (h : (c.ready request reply).status = .bad) :
    c.status = .bad ∨ reply.lost = true := by
  unfold PGconn.ready at h
  cases hlost : reply.lost with
  | true => exact .inr rfl
  | false =>
      rw [hlost] at h
      exact .inl h

/-- Reading results, by induction on them: a connection that has been found lost has a
message. -/
lemma drain_explained (results : List PGresult)
    (hconnection : c.status = .bad ∨ reply.lost = true ∨
      (∃ result ∈ results, result.lost = true) → c.errorMessage ≠ [])
    (hresult : ∀ result ∈ results, result.status.isError = true → result.errorMessage ≠ []) :
    match (PGconn.drain request reply results c).1 with
    | .done => (PGconn.drain request reply results c).2.status = .ok
    | .raised error => error.message ≠ [] := by
  induction results generalizing c with
  | nil =>
      unfold PGconn.drain
      by_cases hbad : (c.ready request reply).status = .bad
      · rw [if_pos hbad]
        exact hconnection ((ready_bad hbad).imp_right .inl)
      · rw [if_neg hbad]
        show (c.ready request reply).status = .ok
        cases hstatus : (c.ready request reply).status with
        | ok => rfl
        | bad => exact absurd hstatus hbad
  | cons result rest ih =>
      unfold PGconn.drain
      cases hcopy : isCopyStatus result.status with
      | true =>
          rw [if_pos rfl]
          exact List.cons_ne_nil _ _
      | false =>
          rw [if_neg Bool.false_ne_true]
          cases hsuccess : isSuccessStatus result.status with
          | true =>
              rw [if_pos rfl]
              refine ih ?_ fun r hr => hresult r (List.mem_cons_of_mem _ hr)
              rintro (hbad | hlost | ⟨r, hr, hlost⟩)
              · rcases fetch_bad hbad with hbad | hlost
                · exact hconnection (.inl hbad)
                · exact hconnection (.inr (.inr ⟨result, List.mem_cons_self, hlost⟩))
              · exact hconnection (.inr (.inl hlost))
              · exact hconnection (.inr (.inr ⟨r, List.mem_cons_of_mem _ hr, hlost⟩))
          | false =>
              rw [if_neg Bool.false_ne_true]
              have htext : result.errorMessage ≠ [] :=
                hresult result List.mem_cons_self (isError_of_not_success hcopy hsuccess)
              show ((c.fetch result).resultError result).message ≠ []
              unfold PGconn.resultError
              rw [if_pos htext]
              split <;> exact htext

lemma exchange_explained (hreply : reply.Explained) (hc : c.status = .ok) :
    match (reply.exchange request c).1 with
    | .done => (reply.exchange request c).2.status = .ok
    | .raised error => error.message ≠ [] := by
  unfold Reply.exchange
  cases hrefused : PGconn.refuses { c with errorMessage := reply.errorMessage } request reply with
  | true =>
      simp only [hrefused, if_true]
      refine hreply.connection (.inl ?_)
      simp only [PGconn.refuses, hc, reduceCtorEq, decide_false, Bool.false_or,
        Bool.and_eq_true] at hrefused
      exact hrefused.1
  | false =>
      simp only [hrefused, Bool.false_eq_true, if_false]
      refine drain_explained _ ?_ hreply.result
      rintro (hbad | hlost | hlost)
      · exact absurd (hc.symm.trans hbad) (by simp)
      · exact hreply.connection (.inr (.inl hlost))
      · exact hreply.connection (.inr (.inr hlost))

end request

/-! ### The statements -/

section statements

variable {replies : ℕ → Reply}

/-- What `executeCommand` and `executeParams` promise on a live connection. -/
abbrev Speaks (x : PGM Unit) : Prop := Triple Live x (fun _ => Live) Explains

lemma speaks_sendAndDrain (hreplies : ∀ n, (replies n).Explained) (request : Request) :
    Speaks (sendAndDrain replies request) := by
  rintro w ⟨c, hc, hlive⟩
  rw [sendAndDrain_eq hc]
  have hexplained := @exchange_explained request _ _ (hreplies w.requests) hlive
  cases hanswer : ((replies w.requests).exchange request c).1 with
  | done =>
      rw [hanswer] at hexplained
      exact ⟨_, rfl, hexplained⟩
  | raised error =>
      rw [hanswer] at hexplained
      exact hexplained

lemma speaks_executeCommand (hreplies : ∀ n, (replies n).Explained) (sql : Text) :
    Speaks (executeCommand replies sql) := by
  unfold executeCommand
  refine Triple.ite (fun _ => Triple.bind (Triple.throw (Q := fun _ _ => False) ?_) ?_) ?_
  · exact fun _ _ => List.cons_ne_nil _ _
  · exact fun _ _ h => h.elim
  · exact fun _ => speaks_sendAndDrain hreplies _

lemma speaks_executeParams (hreplies : ∀ n, (replies n).Explained) (sql : Text)
    (parameters : List LibpqParameter) : Speaks (executeParams replies sql parameters) := by
  unfold executeParams
  refine Triple.ite (fun _ => Triple.bind (Triple.throw (Q := fun _ _ => False) ?_) ?_) ?_
  · exact fun _ _ => List.cons_ne_nil _ _
  · exact fun _ _ h => h.elim
  · exact fun _ => speaks_sendAndDrain hreplies _

lemma speaks_throw {error : PGException} (h : error.message ≠ []) :
    Triple Live (throw error : PGM Unit) (fun _ _ => False) Explains :=
  Triple.throw fun _ _ => h

lemma speaks_modify {f : Backend → Backend}
    (h : ∀ w, (f w).connectionHandle = w.connectionHandle) : Speaks (modify f) := by
  refine Triple.modify ?_
  rintro w ⟨c, hc, hlive⟩
  exact ⟨c, (h w).trans hc, hlive⟩

lemma speaks_executeChildStatement (hreplies : ∀ n, (replies n).Explained) (query : Query) :
    Speaks (query.executeInTransaction replies) := by
  intro w hw
  cases hcontrol : isTransactionControlSql query.sql with
  | true =>
      rw [Query.executeInTransaction_of_control hcontrol]
      exact List.cons_ne_nil _ _
  | false =>
      rw [Query.executeInTransaction_of_not_control hcontrol]
      exact speaks_executeParams hreplies _ _ w hw

/-- A child that comes to its end leaves the connection in the transaction, hence live. -/
lemma speaks_executeChild (hreplies : ∀ n, (replies n).Explained) (query : Query) :
    Speaks (executeChild replies query) := by
  unfold executeChild
  refine (speaks_executeChildStatement hreplies query).bind fun _ => ?_
  have hstatus : Triple Live PQtransactionStatus (fun _ => Live) Explains := fun w hw => hw
  refine hstatus.bind fun status => Triple.ite (fun _ => ?_) fun _ => Triple.pure fun _ h => h
  have hset : Speaks (setError endedMessage) := speaks_modify fun _ => rfl
  refine hset.bind fun _ => ?_
  exact (speaks_throw (List.cons_ne_nil _ _)).mono (fun _ h => h) (fun _ _ h => h.elim)
    fun _ _ h => h

/-- The loop over the children, by induction on them. -/
lemma speaks_executeInTransaction (hreplies : ∀ n, (replies n).Explained) (i : ℕ)
    (queries : List Query) : Speaks (executeInTransaction replies i queries) := by
  induction queries generalizing i with
  | nil => exact Triple.pure fun _ h => h
  | cons query queries ih =>
      rw [executeInTransaction]
      have hrunning : Speaks (setRunning i) := speaks_modify fun _ => rfl
      have hadd : Speaks (addActiveQueryAlias i) := speaks_modify fun _ => rfl
      have hremove : Speaks (removeActiveQueryAlias i) := speaks_modify fun _ => rfl
      refine hrunning.bind fun _ => hadd.bind fun _ => Triple.bind (M := fun _ => Live) ?_ ?_
      · refine (speaks_executeChild hreplies query).tryCatch fun error => ?_
        refine Triple.bind (M := fun _ => Explains error) (Triple.modify fun _ h => h) fun _ => ?_
        exact Triple.throw fun _ h => h
      · exact fun _ => hremove.bind fun _ => ih (i + 1)

/-- The handlers around the children throw the error again. -/
lemma explains_childrenFailed (error : PGException) :
    Triple (Explains error) (childrenFailed replies error) (fun _ _ => False) Explains := by
  unfold childrenFailed
  have hthrow : Triple (Explains error) (throw error : PGM Unit) (fun _ _ => False) Explains :=
    Triple.throw fun _ h => h
  refine Triple.ite (fun _ => ?_) fun _ => ?_
  · exact Triple.bind (M := fun _ => Explains error) (Triple.modify fun _ h => h) fun _ => hthrow
  · refine Triple.bind (M := fun _ => Explains error) ?_ fun _ => hthrow
    -- whatever `ROLLBACK` comes to, the error is kept
    refine Triple.tryCatch (M := fun _ => Explains error) (fun w hw => ?_)
      fun _ => Triple.pure fun _ h => h
    cases executeCommand replies "ROLLBACK".toList w <;> exact hw

lemma explains_commitFailed (error : PGException) :
    Triple (Explains error) (commitFailed error) (fun _ _ => False) Explains := by
  unfold commitFailed
  have hthrow : Triple (Explains error) (throw error : PGM Unit) (fun _ _ => False) Explains :=
    Triple.throw fun _ h => h
  refine Triple.ite (fun _ => ?_) fun _ => hthrow
  exact Triple.bind (M := fun _ => Explains error) (Triple.modify fun _ h => h) fun _ => hthrow

lemma speaks_executeBody (hreplies : ∀ n, (replies n).Explained) (queries : List Query) :
    Speaks (executeBody replies queries) := by
  unfold executeBody
  have hend {error : PGException} {x : PGM Unit}
      (h : Triple (Explains error) x (fun _ _ => False) Explains) :
      Triple (Explains error) x (fun _ => Live) Explains :=
    h.mono (fun _ h => h) (fun _ _ h => h.elim) fun _ _ h => h
  refine (speaks_executeCommand hreplies _).bind fun _ => Triple.bind (M := fun _ => Live) ?_ ?_
  · exact (speaks_executeInTransaction hreplies 0 queries).tryCatch fun error =>
      hend (explains_childrenFailed error)
  · refine fun _ => Triple.bind (M := fun _ => Live) ?_ fun _ => speaks_modify fun _ => rfl
    exact (speaks_executeCommand hreplies _).tryCatch fun error => hend (explains_commitFailed error)

/-- The outer handler leaves a text in the transaction. -/
lemma handleFailure_errorText_ne_nil (stores : FlagStores) (error : PGException) (w : Backend) :
    (handleFailure stores error w).data.errorText ≠ [] := by
  rw [handleFailure_errorText]
  split
  · rename_i hunknown
    intro hnil
    rw [hnil] at hunknown
    exact absurd hunknown (by decide)
  · exact List.cons_ne_nil _ _

/-- What `Transaction::executeStatement` throws has a text, and so has the transaction then. -/
theorem explains_executeStatement (hreplies : ∀ n, (replies n).Explained) (stores : FlagStores)
    (queries : List Query) :
    Triple Live (Transaction.executeStatement replies stores queries) (fun _ => Live)
      (fun error w => error.message ≠ [] ∧ w.data.errorText ≠ []) := by
  unfold Transaction.executeStatement
  refine (speaks_executeBody hreplies queries).tryCatch fun error => ?_
  refine Triple.bind (M := fun _ w => error.message ≠ [] ∧ w.data.errorText ≠ [])
    (Triple.modify fun w h => ⟨h, handleFailure_errorText_ne_nil stores error w⟩) fun _ => ?_
  exact Triple.throw fun _ h => h

end statements

end GmsvPg
