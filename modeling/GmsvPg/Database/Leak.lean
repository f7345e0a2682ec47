/-
# What a transaction leaves on the session

After `runQuery` for a transaction the session should carry no transaction into the next
query: it is not open, or fresh, or idle.  A `ROLLBACK` is sent after any error that is no
connection error.  After a connection error of a child or of `COMMIT`, and after a failed
`COMMIT`, the connection stays as the reply has left it, unless the session is dropped, and
that is decided by a different test.
-/
import GmsvPg.Database.RunQuery
import GmsvPg.Postgres.TransactionControl

namespace GmsvPg

open Library Transaction Backend

/-- The session is dropped after an error. -/
def reconnects (env : Environment) (error : PGException) (flag : Bool) : Bool :=
  decide (error.cls = .connection) && !(flag && isUserCancellationError error) &&
    (env.shouldAutoReconnect .failure && isRetriableError error) && !env.shuttingDown .failure

section handleError

variable {env : Environment} {error : PGException} {w : Backend}

lemma handleError_of_not_connection (h : error.cls ≠ .connection) :
    (handleError env error w).connectionHandle = w.connectionHandle := by
  unfold handleError
  cases hcls : error.cls with
  | connection => exact absurd hcls h
  | pg =>
      simp only
      split <;> rfl
  | other => rfl

lemma handleError_of_connection (env : Environment) (w : Backend) (h : error.cls = .connection) :
    (handleError env error w).connectionHandle =
      if (caught env.stores w).data.cancellationRequested && isUserCancellationError error then
        w.connectionHandle
      else if env.shouldAutoReconnect .failure && isRetriableError error then
        ((clearRequest (caught env.stores w)).attemptReconnect env .failure).2.connectionHandle
      else w.connectionHandle := by
  unfold handleError
  rw [h]
  simp only
  split
  · rfl
  · split <;> rfl

lemma settled_congr {w w' : Backend} (h : w'.connectionHandle = w.connectionHandle) :
    w'.Settled ↔ w.Settled := by
  unfold Backend.Settled
  rw [h]

/-- The handlers of `runQuery` leave the session settled if they find it so or drop it. -/
lemma handleError_settled_iff :
    (handleError env error w).Settled ↔
      w.Settled ∨
        reconnects env error (stored env.stores.late w.data.cancellationRequested) = true := by
  by_cases hcls : error.cls = .connection
  · have hhandle := handleError_of_connection env w hcls
    have hflag : (caught env.stores w).data.cancellationRequested =
        stored env.stores.late w.data.cancellationRequested := rfl
    rw [hflag] at hhandle
    rw [reconnects, decide_eq_true hcls]
    cases hcancelled : stored env.stores.late w.data.cancellationRequested &&
        isUserCancellationError error with
    | true =>
        rw [hcancelled, if_pos rfl] at hhandle
        rw [settled_congr hhandle]
        simp
    | false =>
        rw [hcancelled, if_neg (by decide)] at hhandle
        cases hdrop : env.shouldAutoReconnect .failure && isRetriableError error with
        | false =>
            rw [hdrop, if_neg (by decide)] at hhandle
            rw [settled_congr hhandle]
            simp
        | true =>
            rw [hdrop, if_pos rfl] at hhandle
            rw [settled_congr hhandle]
            simp only [Bool.not_false, Bool.true_and]
            cases hdown : env.shuttingDown .failure with
            | true =>
                rw [attemptReconnect_of_shuttingDown hdown]
                simp only [Bool.not_true, Bool.false_eq_true, or_false]
                exact settled_congr rfl
            | false =>
                simp only [Bool.not_false, or_true, iff_true]
                exact attemptReconnect_settled hdown
  · rw [settled_congr (handleError_of_not_connection hcls), reconnects, decide_eq_false hcls]
    simp

end handleError

/-! ### The connection at the end of a course -/

section course

variable {replies : ℕ → Reply} {n : ℕ} {c : PGconn} {queries : List Query}

/-- What is known of the connection at an ending. -/
def Ending.KnownSettled : Ending → Prop
  | .beginRaised _ c | .committed c => c.Settled
  | _ => True

/-- A failed `BEGIN` and a successful `COMMIT` leave the connection settled. -/
lemma course_knownSettled (replies : ℕ → Reply) (n : ℕ) (queries : List Query) (hc : c.Settled) :
    (course replies n c queries).ending.KnownSettled := by
  have hbegin := (replies n).exchange_spec BEGIN c
  rcases hbegun : (replies n).exchange BEGIN c with ⟨answer, c₁⟩
  rw [hbegun] at hbegin
  cases answer with
  | raised error =>
      rw [course_of_raised queries hbegun]
      exact hbegin.settled_of_begin hc
  | done =>
      rw [course_of_done queries hbegun]
      generalize begunCourse replies n c c₁ queries = k
      cases hstop : k.stop with
      | raised error c' =>
          rw [closing_of_raised hstop]
          trivial
      | ended c' =>
          rw [closing_of_ended hstop]
          trivial
      | through c' =>
          rw [closing_of_through hstop]
          have hcommit := (replies k.requests).exchange_spec COMMIT c'
          rcases hexchange : (replies k.requests).exchange COMMIT c' with ⟨answer, c''⟩
          rw [hexchange] at hcommit
          cases answer with
          | raised error => trivial
          | done => exact fun _ => hcommit.idle_of_commit

/-- The connection at an ending is settled, or a `ROLLBACK` settles it. -/
def Ending.Settles : Ending → Prop
  | .childRaised error c => error.cls ≠ .connection ∨ c.Settled
  | .commitRaised _ c => c.Settled
  | _ => True

/-- The connection after the execution of a transaction. -/
lemma course_connection_settled_iff (hc : c.Settled) :
    ((course replies n c queries).connection replies).Settled ↔
      (course replies n c queries).ending.Settles := by
  have hknown := course_knownSettled replies n queries hc
  generalize course replies n c queries = k at hknown ⊢
  have hrollback : ((replies k.requests).exchange ROLLBACK k.ending.connection).2.Settled :=
    ((replies k.requests).exchange_spec ROLLBACK k.ending.connection).settled_of_rollback
  unfold Course.connection
  cases hending : k.ending with
  | beginRaised error c' =>
      rw [hending] at hknown
      exact ⟨fun _ => trivial, fun _ => hknown⟩
  | childRaised error c' =>
      rw [hending] at hrollback
      by_cases hcls : error.cls = .connection
      · simp [Ending.rollsBack, Ending.Settles, Ending.connection, hcls]
      · rw [Ending.rollsBack, decide_eq_true hcls, if_pos rfl]
        exact ⟨fun _ => .inl hcls, fun _ => hrollback⟩
  | childEnded c' =>
      rw [hending] at hrollback
      exact ⟨fun _ => trivial, fun _ => hrollback⟩
  | commitRaised error c' => exact Iff.rfl
  | committed c' =>
      rw [hending] at hknown
      exact ⟨fun _ => trivial, fun _ => hknown⟩

end course

/-! ### The session -/

/-- The condition under which a transaction does not leak: where it is executed, its ending
settles the connection or the session is dropped. -/
def Contained (env : Environment) (queries : List Query) (w : Backend) : Prop :=
  opens env w = true →
    match (transactionCourse env queries w).ending with
    | .childRaised error c =>
        error.cls ≠ .connection ∨ c.Settled ∨
          reconnects env error (lateFlag env.stores w) = true
    | .commitRaised error c => c.Settled ∨ reconnects env error (lateFlag env.stores w) = true
    | _ => True

/-- An executed transaction leaves the session settled if its ending does or the session is
dropped. -/
lemma afterQuery_settled_iff {env : Environment} {queries : List Query} {w : Backend}
    (hw : w.Settled) (h : opens env w = true) :
    (afterQuery env queries w).Settled ↔
      (transactionCourse env queries w).ending.Settles ∨
        ∃ error ∈ (transactionCourse env queries w).ending.error,
          reconnects env error (lateFlag env.stores w) = true := by
  obtain ⟨w', w'', hsame, hreached, hdone⟩ := afterQuery_of_opens queries h
  have hflag : lateFlag env.stores w'' = lateFlag env.stores w := by
    rw [hreached.lateFlag_eq]
    unfold lateFlag collected collectFlags storeFlags
    rw [hsame.data, hsame.children]
  have hconnection : w''.Settled ↔ (transactionCourse env queries w).ending.Settles := by
    rw [transactionCourse, ← course_connection_settled_iff (entryConnection_settled hw)]
    constructor
    · intro hsettled
      exact hsettled _ hreached.connection
    · intro hsettled c hc
      rw [hreached.connection, Option.some.injEq] at hc
      exact hc ▸ hsettled
  rw [hdone, queryDone]
  cases herror : (transactionCourse env queries w).ending.error with
  | none =>
      rw [← hconnection]
      simp only [Option.mem_def, reduceCtorEq, false_and, exists_false, or_false]
      exact settled_congr rfl
  | some error =>
      simp only [Option.mem_def, Option.some.injEq, exists_eq_left']
      rw [handleError_settled_iff, handleFailure_flag, hflag, ← hconnection]
      exact or_congr_left (settled_congr rfl)

/-- A transaction for which there is no session leaves none that is not settled. -/
lemma afterQuery_settled_of_not_opens {env : Environment} {queries : List Query} {w : Backend}
    (h : opens env w = false) : (afterQuery env queries w).Settled := by
  obtain ⟨w', -, hsettled, hdone⟩ := afterQuery_of_not_opens queries h
  rw [hdone, handleError_settled_iff]
  exact .inl hsettled

/-- If the session is settled when `runQuery` is entered with a transaction, it is settled
when `runQuery` returns if and only if the transaction is contained. -/
theorem session_settled (env : Environment) (queries : List Query) (w : Backend)
    (hw : w.Settled) : (afterQuery env queries w).Settled ↔ Contained env queries w := by
  cases hopens : opens env w with
  | false =>
      unfold Contained
      rw [hopens]
      exact ⟨fun _ habsurd => absurd habsurd Bool.false_ne_true,
        fun _ => afterQuery_settled_of_not_opens hopens⟩
  | true =>
      rw [afterQuery_settled_iff hw hopens, Contained, hopens]
      cases (transactionCourse env queries w).ending with
      | childRaised error c => simp [Ending.Settles, Ending.error, or_assoc]
      | commitRaised error c => simp [Ending.Settles, Ending.error]
      | beginRaised | childEnded | committed => simp [Ending.Settles]

/-- An idle session. -/
def idleSession : Backend := { connectionHandle := some {} }

lemma idleSession_settled : idleSession.Settled := by
  intro c hc _
  cases hc
  rfl

/-- A transaction without children on an idle session. -/
theorem session_settled_idleSession :
    idleSession.Settled ∧
      ((afterQuery {} [] idleSession).Settled ↔ Contained {} [] idleSession) :=
  ⟨idleSession_settled, session_settled {} [] idleSession idleSession_settled⟩

/-! ### A leak -/

/-- The only child raises an error of class 08 that is not retriable, on a live connection. -/
def abortedOutcome : Environment where
  replies
    | 1 => { results := [{ status := .fatalError, sqlstate := "08007".toList }] }
    | _ => {}

lemma select_not_refused : (Query.query "SELECT 1".toList).refusal = none := by
  have hcontrol : isTransactionControlSql "SELECT 1".toList = false := by
    rw [isTransactionControlSql, leadingSqlKeyword,
      show skipLeading "SELECT 1".toList = _ from skipLeading_letter (by decide) _]
    decide
  rw [Query.refusal, show (Query.query "SELECT 1".toList).sql = "SELECT 1".toList from rfl,
    hcontrol]
  decide

lemma abortedOutcome_ending :
    (transactionCourse abortedOutcome [.query "SELECT 1".toList] idleSession).ending =
      .childRaised (PGConnectionException [] "08007".toList)
        { transactionStatus := .inError } := by
  have hbegun : (abortedOutcome.replies 0).exchange BEGIN {} =
      (.done, { transactionStatus := .inTrans }) := by decide
  have hchild : (abortedOutcome.replies 1).exchange
      (Query.query "SELECT 1".toList).request { transactionStatus := .inTrans } =
        (.raised (PGConnectionException [] "08007".toList),
          { transactionStatus := .inError }) := by decide
  have hfirst := childCourse_raised select_not_refused hchild
  have hstop : (begunCourse abortedOutcome.replies 0 {} { transactionStatus := .inTrans }
      [.query "SELECT 1".toList]).stop =
        .raised (PGConnectionException [] "08007".toList) { transactionStatus := .inError } := by
    rw [begunCourse, childrenCourse_stops (congrArg (fun k => k.stop.error) hfirst), hfirst]
  have hcourse : transactionCourse abortedOutcome [.query "SELECT 1".toList] idleSession =
      course abortedOutcome.replies 0 {} [.query "SELECT 1".toList] := rfl
  rw [hcourse, course_of_done _ hbegun, closing_of_raised hstop]

/-- With auto-reconnect on, a child that fails with SQLSTATE 08007 leaves its transaction
open. -/
theorem session_leaked :
    idleSession.Settled ∧
      ¬ (afterQuery abortedOutcome [.query "SELECT 1".toList] idleSession).Settled := by
  refine ⟨idleSession_settled, ?_⟩
  rw [afterQuery_settled_iff idleSession_settled rfl, abortedOutcome_ending]
  rintro ((hcls | hsettled) | ⟨error, herror, hreconnects⟩)
  · exact hcls rfl
  · cases hsettled rfl
  · cases herror
    exact absurd hreconnects (by decide)

end GmsvPg
