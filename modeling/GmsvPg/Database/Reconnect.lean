/-
# When the session is dropped

`attemptReconnect` is called at three places: at the beginning of `runQuery`, in its handler
for a `PGConnectionException`, and in `ping`.  It should be called for a session that is not
open or an error that says that the connection failed.  The handler calls it for an error
without an SQLSTATE too, and libpq gives none where it refuses to send a request; `ping` calls
it whatever the error of its `SELECT 1` is.
-/
import GmsvPg.Database.RunQuery

namespace GmsvPg

open Library LibpqExecutor Raise Transaction Backend

namespace LibpqExecutor

/-- `executeSimple` -/
def executeSimple (replies : ℕ → Reply) (sql : Text) : PGM Unit := do
  if containsNul sql then throw (pgException nulMessage)
  sendAndDrain replies (.query sql)

end LibpqExecutor

/-- What `run` takes from the queue. -/
inductive Execution
  | query (sql : Text) (multiStatementsEnabled : Bool)
  | preparedQuery (sql : Text) (parameters : PreparedParameterMap)
  | transaction (queries : List Query)
deriving DecidableEq, Repr

/-- `executeStatement` of `Query`, `PreparedQuery` and `Transaction`. -/
def Execution.executeStatement (env : Environment) : Execution → PGM Unit
  | query sql true => executeSimple env.replies sql
  | query sql false => executeSingleStatement env.replies sql
  | preparedQuery sql parameters =>
      executeParams env.replies sql (executionParameters parameters)
  | transaction queries => Transaction.executeStatement env.replies env.stores queries

/-- The `try` block of `runQuery`, for any execution. -/
def runExecutionBody (env : Environment) (execution : Execution) : PGM Unit := do
  openSession env
  execution.executeStatement env
  modify querySucceeded

/-- `runQuery`, for any execution. -/
def runExecution (env : Environment) (execution : Execution) (w : Backend) : Backend :=
  match runExecutionBody env execution w with
  | .ok _ w => w
  | .error error w => handleError env error w

/-- `ConnectionSession::ping` -/
def sessionPing (replies : ℕ → Reply) : PGM Bool := do
  if !(← get).isOpen then return false
  tryCatch (do
      executeCommand replies "SELECT 1".toList
      return true)
    fun _ => return false

/-- `Database::ping`: its result, and the status and the session afterwards.  It reads
`shouldAutoReconnect` once. -/
def ping (env : Environment) (status : DatabaseStatus) (w : Backend) :
    Bool × DatabaseStatus × Backend :=
  match sessionPing env.replies w with
  | .error _ w => (false, status, w)
  | .ok success w =>
      if !success && status = .connected then
        if env.shouldAutoReconnect .failure then
          let after := w.attemptReconnect env .failure
          let status :=
            if env.shuttingDown .failure then .notConnected
            else if after.1 then .connected else .connectionFailed
          (after.1, status, after.2)
        else (success, .notConnected, w)
      else (success, status, w)

/-! ### The calls of `attemptReconnect` -/

/-- A call of `attemptReconnect`: where it stands, whether the session is open, and the error
that has led to it, if there is one. -/
structure ReconnectCall where
  moment : Moment
  isOpen : Bool
  error : Option PGException
deriving DecidableEq, Repr

/-- The call in the `try` block of `runQuery`. -/
def entryCalls (env : Environment) (w : Backend) : List ReconnectCall :=
  if !w.isOpen && env.shouldAutoReconnect .entry then [⟨.entry, w.isOpen, none⟩] else []

/-- The handler for a `PGConnectionException` calls `attemptReconnect`. -/
def callsReconnect (env : Environment) (error : PGException) (flag : Bool) : Bool :=
  decide (error.cls = .connection) && !(flag && isUserCancellationError error) &&
    (env.shouldAutoReconnect .failure && isRetriableError error)

/-- The call in the handlers of `runQuery`, for the state that they find. -/
def failureCalls (env : Environment) (error : PGException) (w : Backend) : List ReconnectCall :=
  if callsReconnect env error (stored env.stores.late w.data.cancellationRequested) then
    [⟨.failure, w.isOpen, some error⟩]
  else []

/-- The call in `ping`, for what its `SELECT 1` comes to. -/
def pingCalls (env : Environment) (status : DatabaseStatus) (w : Backend) : List ReconnectCall :=
  if status = .connected ∧ env.shouldAutoReconnect .failure = true then
    if w.isOpen then
      match executeCommand env.replies "SELECT 1".toList w with
      | .ok _ _ => []
      | .error error w => [⟨.failure, w.isOpen, some error⟩]
    else [⟨.failure, w.isOpen, none⟩]
  else []

/-- What may reconnect: an execution, or a `ping` in a status of the database. -/
inductive Operation
  | execution (execution : Execution)
  | ping (status : DatabaseStatus)

namespace Operation

def reconnectCalls (env : Environment) (w : Backend) : Operation → List ReconnectCall
  | execution e =>
      entryCalls env w ++
        match runExecutionBody env e w with
        | .ok _ _ => []
        | .error error w => failureCalls env error w
  | ping status => pingCalls env status w

/-- The state after the operation. -/
def after (env : Environment) (w : Backend) : Operation → Backend
  | execution e => runExecution env e w
  | ping status => (GmsvPg.ping env status w).2.2

end Operation

/-- The SQLSTATE says that the connection failed, and not that the outcome of a transaction is
unknown. -/
def IsConnectionState (sqlstate : Text) : Prop :=
  2 ≤ sqlstate.length ∧ sqlstate.take 2 = "08".toList ∧ sqlstate ≠ "08007".toList

instance (sqlstate : Text) : Decidable (IsConnectionState sqlstate) :=
  inferInstanceAs (Decidable (_ ∧ _ ∧ _))

/-- The connection is broken, or the error says so. -/
def ReconnectCall.Justified (call : ReconnectCall) : Prop :=
  call.isOpen = false ∨ ∃ error ∈ call.error, IsConnectionState error.sqlstate

/-! ### What an execution comes to -/

namespace Execution

/-- The request of an execution that is no transaction. -/
def request : Execution → Request
  | query sql true => .query sql
  | query sql false => .queryParams sql []
  | preparedQuery sql parameters =>
      .queryParams sql ((executionParameters parameters).map LibpqParameter.value)
  | transaction _ => BEGIN

/-- The SQL string of an execution. -/
def sql : Execution → Text
  | query sql _ | preparedQuery sql _ => sql
  | transaction _ => []

/-- The exception that an execution raises when its first request is the `n`th and goes to the
connection `c`, and the connection at that point. -/
def failure (env : Environment) (n : ℕ) (c : PGconn) : Execution → Option (PGException × PGconn)
  | transaction queries =>
      (course env.replies n c queries).ending.error.map fun error =>
        (error, (course env.replies n c queries).connection env.replies)
  | e =>
      if containsNul e.sql then some (pgException nulMessage, c)
      else
        match (env.replies n).exchange e.request c with
        | (.raised error, c') => some (error, c')
        | (.done, _) => none

/-- The cancellation flag that the handlers of `runQuery` read. -/
def flag (env : Environment) (w : Backend) : Execution → Bool
  | transaction _ => lateFlag env.stores w
  | _ => stored env.stores.late w.data.cancellationRequested

variable {env : Environment} {e : Execution} {w : Backend} {c : PGconn}

/-- A state that an execution has reached. -/
structure Ran (env : Environment) (e : Execution) (w : Backend) (c : PGconn) (w' : Backend) :
    Prop where
  attempts : w'.attempts = w.attempts
  connection : w'.connectionHandle = some c
  flag : stored env.stores.late w'.data.cancellationRequested = e.flag env w

/-- A statement that is checked for NUL bytes and then sent. -/
lemma statement_run (env : Environment) (sql : Text) (request : Request)
    (hc : w.connectionHandle = some c) :
    ∃ w', w'.attempts = w.attempts ∧ w'.data = w.data ∧
      match (if containsNul sql then some (pgException nulMessage, c)
        else match (env.replies w.requests).exchange request c with
          | (.raised error, c') => some (error, c')
          | (.done, _) => none : Option (PGException × PGconn)) with
      | none =>
          (do if containsNul sql then throw (pgException nulMessage)
              sendAndDrain env.replies request : PGM Unit) w = .ok () w'
      | some (error, c') =>
          (do if containsNul sql then throw (pgException nulMessage)
              sendAndDrain env.replies request : PGM Unit) w = .error error w' ∧
            w'.connectionHandle = some c' := by
  cases hnul : containsNul sql with
  | true => exact ⟨w, rfl, rfl, rfl, hc⟩
  | false =>
      have hsend := @sendAndDrain_eq request w c env.replies hc
      refine ⟨w.exchanged request (env.replies w.requests) c, rfl, rfl, ?_⟩
      rcases hexchange : (env.replies w.requests).exchange request c with ⟨answer, c'⟩
      rw [hexchange] at hsend
      cases answer with
      | done => exact hsend
      | raised error =>
          refine ⟨hsend, ?_⟩
          rw [Backend.exchanged, hexchange]

/-- An execution on an open session raises the exception of its `failure`, if there is one. -/
lemma executeStatement_run (env : Environment) (e : Execution) (hc : w.connectionHandle = some c) :
    ∃ w', w'.attempts = w.attempts ∧
      match e.failure env w.requests c with
      | none => e.executeStatement env w = .ok () w'
      | some (error, c') => e.executeStatement env w = .error error w' ∧ Ran env e w c' w' := by
  have hstatement (e : Execution) (hflag : e.flag env w =
        stored env.stores.late w.data.cancellationRequested)
      (hrun : e.executeStatement env = do
        if containsNul e.sql then throw (pgException nulMessage)
        sendAndDrain env.replies e.request)
      (hfailure : e.failure env w.requests c =
        if containsNul e.sql then some (pgException nulMessage, c)
        else match (env.replies w.requests).exchange e.request c with
          | (.raised error, c') => some (error, c')
          | (.done, _) => none) :
      ∃ w', w'.attempts = w.attempts ∧
        match e.failure env w.requests c with
        | none => e.executeStatement env w = .ok () w'
        | some (error, c') =>
            e.executeStatement env w = .error error w' ∧ Ran env e w c' w' := by
    obtain ⟨w', hattempts, hdata, houtcome⟩ := statement_run env e.sql e.request hc
    refine ⟨w', hattempts, ?_⟩
    rw [← hfailure, ← hrun] at houtcome
    cases hraised : e.failure env w.requests c with
    | none =>
        rw [hraised] at houtcome
        exact houtcome
    | some raised =>
        rw [hraised] at houtcome
        obtain ⟨herror, hconnection⟩ := houtcome
        refine ⟨herror, hattempts, hconnection, ?_⟩
        rw [hdata, hflag]
  cases e with
  | query sql multiStatementsEnabled =>
      cases multiStatementsEnabled with
      | true => exact hstatement _ rfl rfl rfl
      | false => exact hstatement _ rfl rfl rfl
  | preparedQuery sql parameters => exact hstatement _ rfl rfl rfl
  | transaction queries =>
      obtain ⟨w', hreached, hrun⟩ := executeStatement_spec env.replies env.stores queries hc
      unfold Ending.result at hrun
      have hfailure : (transaction queries).failure env w.requests c =
          (course env.replies w.requests c queries).ending.error.map fun error =>
            (error, (course env.replies w.requests c queries).connection env.replies) := rfl
      rw [hfailure]
      cases herror : (course env.replies w.requests c queries).ending.error with
      | none =>
          rw [herror] at hrun
          exact ⟨w', hreached.attempts, hrun⟩
      | some error =>
          rw [herror] at hrun
          refine ⟨handleFailure env.stores error w', hreached.attempts, hrun, hreached.attempts,
            hreached.connection, ?_⟩
          rw [handleFailure_flag, hreached.lateFlag_eq]
          rfl

/-- The flag does not depend on the session. -/
lemma flag_congr {w w' : Backend} (h : SameWork w w') : e.flag env w' = e.flag env w := by
  cases e with
  | query sql multiStatementsEnabled =>
      exact congrArg (fun d => stored env.stores.late d.cancellationRequested) h.data
  | preparedQuery sql parameters =>
      exact congrArg (fun d => stored env.stores.late d.cancellationRequested) h.data
  | transaction queries =>
      unfold flag lateFlag collected collectFlags storeFlags
      rw [h.data, h.children]

end Execution

section run

variable {env : Environment} {e : Execution} {w w' : Backend} {error : PGException} {c : PGconn}

/-- How often `PQconnectdb` is called in some calls of `attemptReconnect`. -/
def connectCount (env : Environment) (calls : List ReconnectCall) : ℕ :=
  calls.countP fun call => !env.shuttingDown call.moment

lemma attempts_attemptReconnect (env : Environment) (moment : Moment) (w : Backend) :
    (w.attemptReconnect env moment).2.attempts =
      w.attempts + if env.shuttingDown moment then 0 else 1 := by
  unfold attemptReconnect
  cases env.shuttingDown moment with
  | true => rfl
  | false =>
      rw [if_neg Bool.false_ne_true, if_neg Bool.false_ne_true]
      unfold connect
      split <;> rfl

lemma connectCount_singleton (call : ReconnectCall) :
    connectCount env [call] = if env.shuttingDown call.moment then 0 else 1 := by
  unfold connectCount
  rw [List.countP_singleton]
  cases env.shuttingDown call.moment <;> rfl

lemma connectCount_append (calls calls' : List ReconnectCall) :
    connectCount env (calls ++ calls') = connectCount env calls + connectCount env calls' :=
  List.countP_append

lemma isOpen_attemptReconnect {moment : Moment} (h : (w.attemptReconnect env moment).1 = false)
    (hw : w.isOpen = false) : (w.attemptReconnect env moment).2.isOpen = false := by
  cases hdown : env.shuttingDown moment with
  | true =>
      rw [attemptReconnect_of_shuttingDown hdown]
      exact hw
  | false =>
      rw [attemptReconnect, hdown, if_neg Bool.false_ne_true] at h ⊢
      unfold connect at h ⊢
      split
      · rfl
      · rfl
      · rename_i hconnected
        simp only [hconnected] at h
        cases h

/-- The session, when `runQuery` has opened it or has failed to. -/
lemma attempts_openSession (env : Environment) (w : Backend) :
    ∃ w', w'.attempts = w.attempts + connectCount env (entryCalls env w) ∧
      (openSession env w = .ok () w' ∨
        (openSession env w = .error (PGConnectionException w'.connectionError) w' ∧
          w'.isOpen = false)) := by
  unfold openSession entryCalls
  rw [bind_ok get_apply]
  cases hopen : w.isOpen with
  | true => exact ⟨w, rfl, .inl rfl⟩
  | false =>
      cases hauto : env.shouldAutoReconnect .entry with
      | false => exact ⟨w, rfl, .inr ⟨rfl, hopen⟩⟩
      | true =>
          refine ⟨(w.attemptReconnect env .entry).2, ?_, ?_⟩
          · rw [attempts_attemptReconnect, Bool.not_false, Bool.true_and, if_pos rfl,
              connectCount_singleton]
          · rw [Bool.not_false, if_pos rfl, if_pos rfl, bind_ok set_apply]
            cases hsuccess : (w.attemptReconnect env .entry).1 with
            | true => exact .inl rfl
            | false => exact .inr ⟨rfl, isOpen_attemptReconnect hsuccess hopen⟩

lemma attempts_handleError :
    (handleError env error w).attempts =
      w.attempts + connectCount env (failureCalls env error w) := by
  have hflag : (caught env.stores w).data.cancellationRequested =
      stored env.stores.late w.data.cancellationRequested := rfl
  unfold handleError failureCalls callsReconnect
  rw [← hflag]
  cases error.cls with
  | connection =>
      cases hcancelled : (caught env.stores w).data.cancellationRequested &&
          isUserCancellationError error with
      | true =>
          simp only [hcancelled, if_true, decide_true, Bool.not_true, Bool.and_false,
            Bool.false_and, Bool.false_eq_true, if_false]
          rfl
      | false =>
          cases env.shouldAutoReconnect .failure && isRetriableError error with
          | false =>
              simp only [hcancelled, Bool.false_eq_true, if_false, Bool.and_false]
              rfl
          | true =>
              simp only [hcancelled, Bool.false_eq_true, if_false, if_true,
                decide_true, Bool.not_false, Bool.and_self, connectCount_singleton]
              exact attempts_attemptReconnect env .failure _
  | pg =>
      simp only [reduceCtorEq, decide_false, Bool.false_and, Bool.false_eq_true, if_false]
      split <;> rfl
  | other => rfl

/-- An execution for which the session is open or is opened. -/
lemma runExecutionBody_of_opens (e : Execution) (h : opens env w = true) :
    ∃ w', w'.attempts = w.attempts + connectCount env (entryCalls env w) ∧
      match e.failure env w.requests w.entryConnection with
      | none => ∃ w'', w''.attempts = w'.attempts ∧ runExecutionBody env e w = .ok () w''
      | some (error, c) =>
          runExecutionBody env e w = .error error w' ∧ w'.connectionHandle = some c ∧
            stored env.stores.late w'.data.cancellationRequested = e.flag env w := by
  obtain ⟨w₁, hopened, hsame, hc⟩ := openSession_of_opens h
  have hattempts : w₁.attempts = w.attempts + connectCount env (entryCalls env w) := by
    obtain ⟨w₂, hattempts, hok | ⟨herror, -⟩⟩ := attempts_openSession env w
    · rw [hopened] at hok
      cases hok
      exact hattempts
    · rw [hopened] at herror
      cases herror
  have hbody : runExecutionBody env e w =
      (e.executeStatement env >>= fun _ => modify querySucceeded) w₁ := bind_ok hopened
  obtain ⟨w', hkept, hrun⟩ := Execution.executeStatement_run env e hc
  rw [hsame.requests] at hrun
  refine ⟨w', hkept.trans hattempts, ?_⟩
  cases hfailure : e.failure env w.requests w.entryConnection with
  | none =>
      rw [hfailure] at hrun
      exact ⟨querySucceeded w', rfl, hbody.trans ((bind_ok hrun).trans modify_apply)⟩
  | some raised =>
      rw [hfailure] at hrun
      obtain ⟨hraised, hran⟩ := hrun
      exact ⟨hbody.trans (bind_error hraised), hran.connection,
        hran.flag.trans (Execution.flag_congr hsame)⟩

/-- An execution for which there is no session. -/
lemma runExecutionBody_of_not_opens (e : Execution) (h : opens env w = false) :
    ∃ w', w'.attempts = w.attempts + connectCount env (entryCalls env w) ∧
      runExecutionBody env e w = .error (PGConnectionException w'.connectionError) w' ∧
      w'.isOpen = false := by
  obtain ⟨w₁, hfailed, -, -⟩ := openSession_of_not_opens h
  obtain ⟨w₂, hattempts, hok | ⟨herror, hopen⟩⟩ := attempts_openSession env w
  · rw [hfailed] at hok
    cases hok
  · exact ⟨w₂, hattempts, bind_error herror, hopen⟩

/-- Each call of `attemptReconnect` opens one connection, unless the database is shutting
down. -/
theorem attempts_runExecution (env : Environment) (e : Execution) (w : Backend) :
    (runExecution env e w).attempts =
      w.attempts + connectCount env ((Operation.execution e).reconnectCalls env w) := by
  unfold runExecution
  rw [Operation.reconnectCalls, connectCount_append]
  cases hopens : opens env w with
  | false =>
      obtain ⟨w', hattempts, hbody, -⟩ := runExecutionBody_of_not_opens e hopens
      rw [hbody]
      simp only
      rw [attempts_handleError, hattempts, Nat.add_assoc]
  | true =>
      obtain ⟨w', hattempts, hbody⟩ := runExecutionBody_of_opens e hopens
      cases hfailure : e.failure env w.requests w.entryConnection with
      | none =>
          rw [hfailure] at hbody
          obtain ⟨w'', hkept, hbody⟩ := hbody
          rw [hbody]
          exact hkept.trans hattempts
      | some raised =>
          rw [hfailure] at hbody
          rw [hbody.1]
          simp only
          rw [attempts_handleError, hattempts, Nat.add_assoc]

lemma attempts_executeCommand {sql : Text} (hnul : containsNul sql = false)
    (hc : w.connectionHandle = some c) :
    ∃ w', w'.attempts = w.attempts ∧
      (executeCommand env.replies sql w = .ok () w' ∨
        ∃ error, executeCommand env.replies sql w = .error error w') := by
  have hrun := executeCommand_eq env.replies hnul hc
  refine ⟨w.exchanged (.query sql) (env.replies w.requests) c, rfl, ?_⟩
  cases hanswer : ((env.replies w.requests).exchange (.query sql) c).1 with
  | done =>
      rw [hanswer] at hrun
      exact .inl hrun
  | raised error =>
      rw [hanswer] at hrun
      exact .inr ⟨error, hrun⟩

/-- `ping`, too, opens one connection in each of its calls. -/
theorem attempts_ping (env : Environment) (status : DatabaseStatus) (w : Backend) :
    (ping env status w).2.2.attempts =
      w.attempts + connectCount env ((Operation.ping status).reconnectCalls env w) := by
  have hnul : containsNul "SELECT 1".toList = false := by decide
  have hunsuccessful (w' : Backend) (hw' : w'.attempts = w.attempts) (call : ReconnectCall)
      (hcall : call.moment = .failure) (hping : sessionPing env.replies w = .ok false w')
      (hcalls : pingCalls env status w =
        if status = .connected ∧ env.shouldAutoReconnect .failure = true then [call] else []) :
      (ping env status w).2.2.attempts = w.attempts + connectCount env (pingCalls env status w) := by
    unfold ping
    rw [hping, hcalls]
    by_cases hstatus : status = .connected
    · cases hauto : env.shouldAutoReconnect .failure with
      | true =>
          simp only [hstatus, Bool.not_false, decide_true, Bool.and_self, if_true, and_self,
            connectCount_singleton, hcall, ← hw']
          exact attempts_attemptReconnect env .failure w'
      | false =>
          simp only [hstatus, Bool.not_false, decide_true, Bool.and_self, if_true, and_false,
            Bool.false_eq_true, if_false]
          exact hw'
    · simp only [hstatus, decide_false, Bool.and_false, Bool.false_eq_true, if_false, false_and]
      exact hw'
  unfold Operation.reconnectCalls
  cases hopen : w.isOpen with
  | false =>
      refine hunsuccessful w rfl ⟨.failure, w.isOpen, none⟩ rfl ?_ ?_
      · unfold sessionPing
        rw [bind_ok get_apply, hopen]
        rfl
      · unfold pingCalls
        rw [hopen]
        rfl
  | true =>
      obtain ⟨c, hc, -⟩ := isOpen_iff.1 hopen
      obtain ⟨w', hkept, hok | ⟨error, herror⟩⟩ := @attempts_executeCommand env w c _ hnul hc
      · have hping : sessionPing env.replies w = .ok true w' := by
          unfold sessionPing
          rw [bind_ok get_apply, hopen]
          exact tryCatch_ok (bind_ok hok)
        unfold ping pingCalls
        rw [hping, hopen, hok]
        simpa [connectCount] using hkept
      · refine hunsuccessful w' hkept ⟨.failure, w'.isOpen, some error⟩ rfl ?_ ?_
        · unfold sessionPing
          rw [bind_ok get_apply, hopen]
          exact tryCatch_error (bind_error herror)
        · unfold pingCalls
          rw [hopen, herror]
          rfl

end run

/-! ### Errors without an SQLSTATE -/

/-- The error counts as a failed connection although the connection is live, and leads to a
call of `attemptReconnect`. -/
structure Overreacts (env : Environment) (flag : Bool) (error : PGException) (c : PGconn) :
    Prop where
  cls : error.cls = .connection
  sqlstate : error.sqlstate = []
  live : c.status = .ok
  shouldAutoReconnect : env.shouldAutoReconnect .failure = true
  notCancelled : (flag && isUserCancellationError error) = false

/-- The first result that is no success starts a `COPY`. -/
def startsCopy : List PGresult → Bool
  | [] => false
  | result :: rest =>
      isCopyStatus result.status || (isSuccessStatus result.status && startsCopy rest)

section exchange

variable {reply : Reply} {request : Request} {c now : PGconn}

/-- An exchange raises an error that counts as a failed connection and has no SQLSTATE, and
the connection is live. -/
def RaisesWithoutState (outcome : Answer × PGconn) : Prop :=
  ∃ error, outcome.1 = .raised error ∧ error.cls = .connection ∧ error.sqlstate = [] ∧
    outcome.2.status = .ok

lemma status_of_discard {results : List PGresult}
    (h : (now.discard request reply results).status = .ok) : now.status = .ok := by
  have hfold : (results.foldl PGconn.fetch now).status = .ok := by
    unfold PGconn.discard PGconn.ready at h
    simp only at h
    split at h
    · cases h
    · exact h
  clear h
  induction results generalizing now with
  | nil => exact hfold
  | cons result rest ih => exact (PGconn.status_of_fetch (ih hfold)).2

/-- The exception for a result has an SQLSTATE if it counts as a failed connection while the
connection is live. -/
lemma resultError_sqlstate {result : PGresult} (hlive : now.status = .ok)
    (hcls : (now.resultError result).cls = .connection) :
    (now.resultError result).sqlstate ≠ [] := by
  unfold PGconn.resultError at hcls ⊢
  by_cases hclass : now.status = .bad ∨
      (2 ≤ result.sqlstate.length ∧ result.sqlstate.take 2 = "08".toList)
  · rw [if_pos hclass]
    rcases hclass with hbad | ⟨hlength, -⟩
    · rw [hbad] at hlive
      cases hlive
    · intro hnil
      rw [show result.sqlstate = [] from hnil] at hlength
      exact absurd hlength (by decide)
  · simp only [if_neg hclass] at hcls
    cases hcls

/-- While results are read, only a `COPY` leads to such an error. -/
lemma drain_raisesWithoutState (results : List PGresult) :
    RaisesWithoutState (PGconn.drain request reply results now) ↔
      startsCopy results = true ∧ reply.resets = true := by
  induction results generalizing now with
  | nil =>
      refine iff_of_false ?_ fun h => Bool.false_ne_true h.1
      rintro ⟨error, hraised, -, -, hlive⟩
      unfold PGconn.drain at hraised hlive
      split at hraised
      · rename_i hbad
        rw [if_pos hbad, hbad] at hlive
        cases hlive
      · cases hraised
  | cons result rest ih =>
      unfold PGconn.drain startsCopy
      cases hcopy : isCopyStatus result.status with
      | true =>
          rw [if_pos rfl, Bool.true_or]
          constructor
          · rintro ⟨error, -, -, -, hlive⟩
            unfold PGconn.reset at hlive
            cases hresets : reply.resets with
            | true => exact ⟨rfl, rfl⟩
            | false =>
                rw [hresets] at hlive
                cases hlive
          · rintro ⟨-, hresets⟩
            refine ⟨_, rfl, rfl, rfl, ?_⟩
            rw [PGconn.reset, hresets]
            rfl
      | false =>
          rw [if_neg Bool.false_ne_true, Bool.false_or]
          cases hsuccess : isSuccessStatus result.status with
          | true =>
              rw [if_pos rfl, Bool.true_and]
              exact ih
          | false =>
              rw [if_neg Bool.false_ne_true, Bool.false_and]
              refine iff_of_false ?_ fun h => Bool.false_ne_true h.1
              rintro ⟨error, hraised, hcls, hsqlstate, hlive⟩
              cases hraised
              exact resultError_sqlstate (status_of_discard hlive) hcls hsqlstate

/-- On a live connection there are two such exchanges: libpq refuses to send the request, or
the reply starts a `COPY` and `PQreset` succeeds. -/
theorem exchange_raisesWithoutState (hc : c.status = .ok) :
    RaisesWithoutState (reply.exchange request c) ↔
      (reply.refused = true ∧ request ≠ ROLLBACK) ∨
        (startsCopy reply.results = true ∧ reply.resets = true ∧
          ¬ (reply.refused = true ∧ request ≠ ROLLBACK)) := by
  have hrefuses : PGconn.refuses { c with errorMessage := reply.errorMessage } request reply =
      (reply.refused && decide (request ≠ ROLLBACK)) := by
    rw [PGconn.refuses, hc]
    rfl
  unfold Reply.exchange
  simp only [hrefuses]
  by_cases h : reply.refused = true ∧ request ≠ ROLLBACK
  · have hrefused : (reply.refused && decide (request ≠ ROLLBACK)) = true := by
      rw [Bool.and_eq_true, decide_eq_true_eq]
      exact h
    rw [hrefused, if_pos rfl]
    exact iff_of_true ⟨_, rfl, rfl, rfl, hc⟩ (.inl h)
  · have hsent : (reply.refused && decide (request ≠ ROLLBACK)) = false := by
      rw [Bool.eq_false_iff, ne_eq, Bool.and_eq_true, decide_eq_true_eq]
      exact h
    rw [hsent, if_neg Bool.false_ne_true, drain_raisesWithoutState]
    simp only [h, false_or, not_false_eq_true, and_true]

end exchange

/-! ### Calls that are not justified -/

namespace Operation

/-- The condition under which every call is justified.  An execution on an open session raises
no error without an SQLSTATE that counts as a failed connection while the connection is live,
unless that error is a handled cancellation or there is no automatic reconnect.  The `SELECT
1` of a `ping` on an open session succeeds or raises an error of a failed connection. -/
def Blameless (env : Environment) (w : Backend) : Operation → Prop
  | execution e =>
      opens env w = true → ∀ error c, e.failure env w.requests w.entryConnection = some (error, c) →
        ¬ Overreacts env (e.flag env w) error c
  | ping status =>
      status = .connected → env.shouldAutoReconnect .failure = true →
        ∀ c, w.connectionHandle = some c → c.status = .ok → ∀ error c',
          (env.replies w.requests).exchange (.query "SELECT 1".toList) c = (.raised error, c') →
            c'.status = .bad ∨ IsConnectionState error.sqlstate

end Operation

section justified

variable {env : Environment} {w : Backend} {error : PGException} {c : PGconn}

lemma isRetriableError_iff :
    isRetriableError error = true ↔ IsConnectionState error.sqlstate ∨ error.sqlstate = [] := by
  simp only [isRetriableError, IsConnectionState, Bool.or_eq_true, Bool.and_eq_true,
    decide_eq_true_eq, beq_iff_eq, bne_iff_ne, List.isEmpty_iff, and_assoc]

lemma isOpen_of_connection (hc : w.connectionHandle = some c) :
    w.isOpen = false ↔ c.status ≠ .ok := by
  rw [isOpen, hc, Option.any_some, decide_eq_false_iff_not]

lemma justified_entryCalls (env : Environment) (w : Backend) :
    ∀ call ∈ entryCalls env w, call.Justified := by
  intro call hcall
  unfold entryCalls at hcall
  split at hcall
  · rename_i hopen
    rw [List.mem_singleton.1 hcall]
    rw [Bool.and_eq_true, Bool.not_eq_true'] at hopen
    exact .inl hopen.1
  · cases hcall

/-- The call in the handlers is justified if the error does not only look like that of a
failed connection. -/
lemma justified_failureCalls (hc : w.connectionHandle = some c) :
    (∀ call ∈ failureCalls env error w, call.Justified) ↔
      ¬ Overreacts env (stored env.stores.late w.data.cancellationRequested) error c := by
  unfold failureCalls
  by_cases hcalls :
      callsReconnect env error (stored env.stores.late w.data.cancellationRequested) = true
  · rw [if_pos hcalls]
    simp only [callsReconnect, Bool.and_eq_true, decide_eq_true_eq, Bool.not_eq_true'] at hcalls
    obtain ⟨⟨hcls, hnot⟩, hauto, hretriable⟩ := hcalls
    constructor
    · rintro h ⟨-, hsqlstate, hlive, -, -⟩
      rcases h _ (List.mem_singleton_self _) with hopen | ⟨error', herror, hstate⟩
      · exact (isOpen_of_connection hc).1 hopen hlive
      · cases herror
        rw [hsqlstate] at hstate
        exact absurd hstate.1 (by decide)
    · intro hover call hcall
      rw [List.mem_singleton.1 hcall]
      rcases isRetriableError_iff.1 hretriable with hstate | hsqlstate
      · exact .inr ⟨error, rfl, hstate⟩
      · refine .inl ((isOpen_of_connection hc).2 ?_)
        intro hlive
        exact hover ⟨hcls, hsqlstate, hlive, hauto, hnot⟩
  · rw [if_neg hcalls]
    refine iff_of_true (fun _ hcall => nomatch hcall) ?_
    rintro ⟨hcls, hsqlstate, -, hauto, hnot⟩
    apply hcalls
    simp only [callsReconnect, hcls, hnot, hauto, isRetriableError_of_sqlstate_nil hsqlstate]
    rfl

/-- Without an open session every call is justified. -/
lemma justified_of_not_isOpen (hopen : w.isOpen = false) :
    ∀ call ∈ failureCalls env error w, call.Justified := by
  intro call hcall
  unfold failureCalls at hcall
  split at hcall
  · rw [List.mem_singleton.1 hcall]
    exact .inl hopen
  · cases hcall

lemma justified_execution (env : Environment) (e : Execution) (w : Backend) :
    (∀ call ∈ (Operation.execution e).reconnectCalls env w, call.Justified) ↔
      (Operation.execution e).Blameless env w := by
  rw [Operation.reconnectCalls, List.forall_mem_append,
    and_iff_right (justified_entryCalls env w), Operation.Blameless]
  cases hopens : opens env w with
  | false =>
      obtain ⟨w', -, hbody, hopen⟩ := runExecutionBody_of_not_opens e hopens
      rw [hbody]
      exact iff_of_true (justified_of_not_isOpen hopen) fun h => absurd h Bool.false_ne_true
  | true =>
      obtain ⟨w', -, hbody⟩ := runExecutionBody_of_opens e hopens
      cases hfailure : e.failure env w.requests w.entryConnection with
      | none =>
          rw [hfailure] at hbody
          obtain ⟨w'', -, hbody⟩ := hbody
          rw [hbody]
          refine iff_of_true (fun _ hcall => nomatch hcall) fun _ error c hraised => ?_
          cases hraised
      | some raised =>
          obtain ⟨error, c⟩ := raised
          rw [hfailure] at hbody
          obtain ⟨hbody, hc, hflag⟩ := hbody
          rw [hbody]
          have hjustified := @justified_failureCalls env w' error c hc
          rw [hflag] at hjustified
          refine hjustified.trans ⟨fun hover _ error' c' hraised => ?_, fun h => h rfl error c rfl⟩
          cases hraised
          exact hover

lemma justified_ping (env : Environment) (status : DatabaseStatus) (w : Backend) :
    (∀ call ∈ (Operation.ping status).reconnectCalls env w, call.Justified) ↔
      (Operation.ping status).Blameless env w := by
  rw [Operation.reconnectCalls, Operation.Blameless, pingCalls]
  by_cases hstatus : status = .connected ∧ env.shouldAutoReconnect .failure = true
  · rw [if_pos hstatus]
    simp only [hstatus, forall_const]
    cases hopen : w.isOpen with
    | false =>
        rw [if_neg Bool.false_ne_true]
        refine iff_of_true (fun call hcall => ?_) fun c hc hlive => ?_
        · rw [List.mem_singleton.1 hcall]
          exact .inl rfl
        · exact absurd hlive ((isOpen_of_connection hc).1 hopen)
    | true =>
        obtain ⟨c, hc, hlive⟩ := isOpen_iff.1 hopen
        have hrun := executeCommand_eq env.replies
          (show containsNul "SELECT 1".toList = false by decide) hc
        rw [if_pos rfl]
        rcases hexchange : (env.replies w.requests).exchange (.query "SELECT 1".toList) c with
          ⟨answer, c'⟩
        have hafter : (w.exchanged (.query "SELECT 1".toList) (env.replies w.requests)
            c).connectionHandle = some c' := by
          rw [Backend.exchanged, hexchange]
        rw [hexchange] at hrun
        cases answer with
        | done =>
            rw [show executeCommand env.replies "SELECT 1".toList w = .ok () _ from hrun]
            refine iff_of_true (fun _ hcall => absurd hcall List.not_mem_nil)
              fun d hd hd' error d' hraised => ?_
            rw [hc, Option.some.injEq] at hd
            rw [← hd, hexchange] at hraised
            cases hraised
        | raised error =>
            rw [show executeCommand env.replies "SELECT 1".toList w = .error error _ from hrun]
            simp only [List.forall_mem_singleton, ReconnectCall.Justified,
              isOpen_of_connection hafter, Option.mem_def, Option.some.injEq, exists_eq_left']
            constructor
            · intro hjustified d hd hd' error' d' hraised
              rw [hc, Option.some.injEq] at hd
              rw [← hd, hexchange, Prod.mk.injEq, Answer.raised.injEq] at hraised
              obtain ⟨rfl, rfl⟩ := hraised
              refine hjustified.imp_left fun hdead => ?_
              cases hbad : c'.status with
              | ok => exact absurd hbad hdead
              | bad => rfl
            · intro hblameless
              refine (hblameless c hc hlive error c' hexchange).imp_left fun hbad => ?_
              rw [hbad]
              exact ConnStatusType.noConfusion
  · rw [if_neg hstatus]
    exact iff_of_true (fun _ hcall => absurd hcall List.not_mem_nil)
      fun h hauto => absurd ⟨h, hauto⟩ hstatus

end justified

/-- Every call of `attemptReconnect` in an execution or in a `ping` is justified if and only
if the operation is blameless. -/
theorem reconnect_justified (env : Environment) (operation : Operation) (w : Backend) :
    (∀ call ∈ operation.reconnectCalls env w, call.Justified) ↔ operation.Blameless env w := by
  cases operation with
  | execution e => exact justified_execution env e w
  | ping status => exact justified_ping env status w

/-! ### Two sessions that are dropped -/

/-- libpq refuses to send a prepared query that has too many parameters. -/
def tooManyParameters : Environment where
  replies _ := { refused := true }

/-- The session is in a transaction that has failed, in which every statement fails. -/
def abortedTransaction : Environment where
  replies _ := { results := [{ status := .fatalError, sqlstate := "25P02".toList }] }

/-- A refused execution and a `ping` inside a failed transaction drop a live session. -/
theorem reconnect_unjustified :
    (¬ ∀ call ∈ (Operation.execution (.preparedQuery "SELECT 1".toList
        [(65536, { type := .null })])).reconnectCalls tooManyParameters
          { connectionHandle := some {} }, call.Justified) ∧
      ¬ ∀ call ∈ (Operation.ping .connected).reconnectCalls abortedTransaction
        { connectionHandle := some { transactionStatus := .inError } }, call.Justified := by
  constructor
  · rw [justified_execution]
    intro hblameless
    exact hblameless rfl (PGConnectionException []) {} rfl ⟨rfl, rfl, rfl, rfl, rfl⟩
  · intro h
    rcases h ⟨.failure, true, some (pgException [] "25P02".toList)⟩ (by decide) with
      hopen | ⟨error, herror, hstate⟩
    · cases hopen
    · cases herror
      exact absurd hstate (by decide)

end GmsvPg
