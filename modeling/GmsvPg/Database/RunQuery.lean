/-
# Running one transaction

`Database::runQuery` for a transaction, with `Database::attemptReconnect` and
`ConnectionSession::connect`, and the part of `Database::run` around it.  Here the worker
thread is followed alone, from the point at which it has taken the transaction from the
queue; what the other thread and the server do meanwhile is the `Environment`.  The status of
the database, the reconnect log and the metadata of the session decide nothing here.
-/
import GmsvPg.Postgres.Handler

namespace GmsvPg

open Library LibpqExecutor Raise Transaction

/-- What `PQconnectdb` returns: a null pointer, a connection that is not `CONNECTION_OK`, or
a connection. -/
inductive ConnectResult
  | null
  | failed (message : Text)
  | connected
deriving DecidableEq, Repr

/-- The two points at which `runQuery` may reconnect. -/
inductive Moment
  | entry
  | failure
deriving DecidableEq, Repr

/-- What the execution of a transaction depends on. -/
structure Environment where
  replies : ℕ → Reply := fun _ => {}
  connects : ℕ → ConnectResult := fun _ => .connected
  /-- the values that are read from `shouldAutoReconnect` and `m_shuttingDown` -/
  shouldAutoReconnect : Moment → Bool := fun _ => true
  shuttingDown : Moment → Bool := fun _ => false
  stores : FlagStores := {}
  /-- `abortQuery`, `abortAllQueries` or `shutdown` stores `QUERY_ABORTED` in the transaction
  after `run` has stored `QUERY_RUNNING` -/
  marked : Bool := false

namespace Backend

/-- `ConnectionSession::isOpen` -/
def isOpen (w : Backend) : Bool :=
  w.connectionHandle.any fun c => decide (c.status = .ok)

/-- `ConnectionSession::connect` -/
def connect (env : Environment) (w : Backend) : Bool × Backend :=
  match env.connects w.attempts with
  | .null =>
      (false, { w with
        attempts := w.attempts + 1
        connectionHandle := none
        connectionError := "Failed to allocate PostgreSQL connection".toList })
  | .failed message =>
      (false, { w with
        attempts := w.attempts + 1
        connectionHandle := none
        connectionError := message })
  | .connected =>
      (true, { w with
        attempts := w.attempts + 1
        connectionHandle := some {}
        connectionError := [] })

/-- `attemptReconnect` -/
def attemptReconnect (env : Environment) (moment : Moment) (w : Backend) : Bool × Backend :=
  if env.shuttingDown moment then (false, w)
  else connect env { w with activeAliases := [] }

end Backend

/-- The beginning of `runQuery`, which opens the session if it is not open. -/
def openSession (env : Environment) : PGM Unit := do
  let w ← get
  if !w.isOpen then
    let after :=
      if env.shouldAutoReconnect .entry then w.attemptReconnect env .entry else (false, w)
    set after.2
    if !after.1 then throw (PGConnectionException after.2.connectionError)

/-- The end of the `try` block of `runQuery`, with the destructor of the guard. -/
def querySucceeded (w : Backend) : Backend :=
  { w with
    data := { w.data with cancellationRequested := false, resultStatus := .success }
    activeAliases := [] }

/-- An execution whose cancellation was requested and has happened. -/
def queryAborted (d : IQueryData) : IQueryData :=
  { d with status := .aborted, resultStatus := .none }

/-- An execution that has failed. -/
def queryFailed (error : PGException) (d : IQueryData) : IQueryData :=
  { d with
    resultStatus := .error
    errorText := if d.errorText = [] then error.message else d.errorText }

/-- The state that a handler of `runQuery` finds: the guard has been destroyed and the main
thread has made its last store. -/
def caught (stores : FlagStores) (w : Backend) : Backend :=
  { w with
    data := { w.data with
      cancellationRequested := stored stores.late w.data.cancellationRequested }
    activeAliases := [] }

/-- `data->setCancellationRequested(false)` -/
def clearRequest (w : Backend) : Backend :=
  { w with data := { w.data with cancellationRequested := false } }

/-- The handlers of `runQuery`. -/
def handleError (env : Environment) (error : PGException) (w : Backend) : Backend :=
  let w := caught env.stores w
  let cancelled := w.data.cancellationRequested && isUserCancellationError error
  match error.cls with
  | .connection =>
      if cancelled then { w with data := queryAborted w.data }
      else
        let w := clearRequest w
        let w :=
          if env.shouldAutoReconnect .failure && isRetriableError error then
            (w.attemptReconnect env .failure).2
          else w
        { w with data := queryFailed error w.data }
  | .pg =>
      if cancelled then { w with data := queryAborted w.data }
      else
        let w := clearRequest w
        { w with data := queryFailed error w.data }
  | .other =>
      let w := clearRequest w
      { w with data := queryFailed error w.data }

/-- The `try` block of `runQuery`. -/
def runQueryBody (env : Environment) (queries : List Query) : PGM Unit := do
  openSession env
  executeStatement env.replies env.stores queries
  modify querySucceeded

/-- `runQuery` -/
def runQuery (env : Environment) (queries : List Query) : PGM Unit :=
  tryCatch (runQueryBody env queries) fun error => modify (handleError env error)

/-- The state that `runQuery` leaves; it does not throw. -/
def afterQuery (env : Environment) (queries : List Query) (w : Backend) : Backend :=
  match runQuery env queries w with
  | .ok _ w | .error _ w => w

/-- The part of `run` from `data->setStatus(QUERY_RUNNING)` on. -/
def runTransaction (env : Environment) (queries : List Query) (w : Backend) : Backend :=
  let w := { w with data := { w.data with status := .running } }
  let w := afterQuery env queries w
  let w := if env.marked then { w with data := { w.data with status := .aborted } } else w
  let w := if w.data.status ≠ .aborted then { w with data := { w.data with status := .complete } }
    else w
  { w with data := { w.data with finished := true } }

/-! ### The session -/

namespace Backend

variable {env : Environment} {w : Backend} {moment : Moment}

/-- The session carries no transaction into the next query. -/
def Settled (w : Backend) : Prop := ∀ c, w.connectionHandle = some c → c.Settled

lemma connect_settled (env : Environment) (w : Backend) : (w.connect env).2.Settled := by
  intro c hc
  unfold connect at hc
  split at hc
  · cases hc
  · cases hc
  · cases hc
    exact fun _ => rfl

/-- A reconnect that is tried leaves a fresh connection or none. -/
lemma attemptReconnect_settled (h : env.shuttingDown moment = false) :
    (w.attemptReconnect env moment).2.Settled := by
  rw [attemptReconnect, h]
  exact connect_settled env _

lemma attemptReconnect_of_shuttingDown (h : env.shuttingDown moment = true) :
    w.attemptReconnect env moment = (false, w) := by
  rw [attemptReconnect, h]
  rfl

lemma Settled.attemptReconnect (h : w.Settled) (env : Environment) (moment : Moment) :
    (w.attemptReconnect env moment).2.Settled := by
  cases hdown : env.shuttingDown moment with
  | true =>
      rw [attemptReconnect_of_shuttingDown hdown]
      exact h
  | false => exact attemptReconnect_settled hdown

/-- What reconnecting leaves alone. -/
structure SameWork (w w' : Backend) : Prop where
  data : w'.data = w.data
  children : w'.children = w.children
  sent : w'.sent = w.sent
  requests : w'.requests = w.requests

lemma attemptReconnect_sameWork (env : Environment) (moment : Moment) (w : Backend) :
    SameWork w (w.attemptReconnect env moment).2 := by
  unfold attemptReconnect connect
  split
  · exact ⟨rfl, rfl, rfl, rfl⟩
  · split <;> exact ⟨rfl, rfl, rfl, rfl⟩

/-- `runQuery` finds the session open or opens it. -/
def opens (env : Environment) (w : Backend) : Bool :=
  w.isOpen ||
    (env.shouldAutoReconnect .entry && !env.shuttingDown .entry &&
      decide (env.connects w.attempts = .connected))

/-- The connection on which the transaction is then executed: the present one, or a fresh
one. -/
def entryConnection (w : Backend) : PGconn :=
  if w.isOpen then w.connectionHandle.getD {} else {}

lemma isOpen_iff : w.isOpen = true ↔ ∃ c, w.connectionHandle = some c ∧ c.status = .ok := by
  rw [isOpen, Option.any_eq_true]
  simp only [decide_eq_true_eq]

lemma settled_of_not_isOpen (h : w.isOpen = false) : w.Settled := by
  intro c hc hlive
  rw [isOpen, hc] at h
  simp [hlive] at h

lemma entryConnection_settled (h : w.Settled) : w.entryConnection.Settled := by
  unfold entryConnection
  split
  · rename_i hopen
    obtain ⟨c, hc, -⟩ := isOpen_iff.1 hopen
    rw [hc]
    exact h c hc
  · exact fun _ => rfl

lemma entryConnection_status (w : Backend) : w.entryConnection.status = .ok := by
  unfold entryConnection
  split
  · rename_i hopen
    obtain ⟨c, hc, hlive⟩ := isOpen_iff.1 hopen
    rw [hc]
    exact hlive
  · rfl

end Backend

open Backend

variable {env : Environment} {w : Backend} {queries : List Query}

/-- The session is open when `executeStatement` is called. -/
lemma openSession_of_opens (h : opens env w = true) :
    ∃ w', openSession env w = .ok () w' ∧ SameWork w w' ∧
      w'.connectionHandle = some w.entryConnection := by
  unfold openSession entryConnection
  rw [bind_ok get_apply]
  cases hopen : w.isOpen with
  | true =>
      obtain ⟨c, hc, -⟩ := isOpen_iff.1 hopen
      refine ⟨w, rfl, ⟨rfl, rfl, rfl, rfl⟩, ?_⟩
      rw [if_pos rfl, hc]
      rfl
  | false =>
      rw [opens, hopen, Bool.false_or, Bool.and_eq_true, Bool.and_eq_true, Bool.not_eq_true',
        decide_eq_true_eq] at h
      obtain ⟨⟨hauto, hdown⟩, hconnected⟩ := h
      have hreconnect : (w.attemptReconnect env .entry).1 = true ∧
          (w.attemptReconnect env .entry).2.connectionHandle = some {} := by
        simp only [attemptReconnect, hdown, connect, hconnected]
        exact ⟨rfl, rfl⟩
      refine ⟨(w.attemptReconnect env .entry).2, ?_, attemptReconnect_sameWork env .entry w,
        hreconnect.2⟩
      rw [hauto, Bool.not_false, if_pos rfl, if_pos rfl, bind_ok set_apply, hreconnect.1]
      rfl

/-- The session is not open, and `runQuery` throws. -/
lemma openSession_of_not_opens (h : opens env w = false) :
    ∃ w', openSession env w = .error (PGConnectionException w'.connectionError) w' ∧
      SameWork w w' ∧ w'.Settled := by
  rw [opens, Bool.or_eq_false_iff] at h
  obtain ⟨hopen, h⟩ := h
  have hsettled := settled_of_not_isOpen hopen
  unfold openSession
  rw [bind_ok get_apply, hopen, Bool.not_false, if_pos rfl]
  cases hauto : env.shouldAutoReconnect .entry with
  | false => exact ⟨w, rfl, ⟨rfl, rfl, rfl, rfl⟩, hsettled⟩
  | true =>
      have hfails : (w.attemptReconnect env .entry).1 = false := by
        cases hdown : env.shuttingDown .entry with
        | true => rw [attemptReconnect_of_shuttingDown hdown]
        | false =>
            rw [hauto, hdown, Bool.not_false, Bool.true_and, Bool.true_and,
              decide_eq_false_iff_not] at h
            cases hresult : env.connects w.attempts with
            | null =>
                simp only [attemptReconnect, hdown, connect, hresult]
                rfl
            | failed message =>
                simp only [attemptReconnect, hdown, connect, hresult]
                rfl
            | connected => exact absurd hresult h
      refine ⟨(w.attemptReconnect env .entry).2, ?_, attemptReconnect_sameWork env .entry w,
        hsettled.attemptReconnect env .entry⟩
      rw [if_pos rfl, bind_ok set_apply, hfails]
      rfl

/-! ### The query -/

/-- The course of the transaction, if the session is open or opened. -/
def transactionCourse (env : Environment) (queries : List Query) (w : Backend) : Course :=
  course env.replies w.requests w.entryConnection queries

/-- The state after `runQuery`, from the one that the outer handler of `executeStatement`
finds. -/
def queryDone (env : Environment) (ending : Ending) (w : Backend) : Backend :=
  match ending.error with
  | none => querySucceeded w
  | some error => handleError env error (handleFailure env.stores error w)

/-- A transaction that is executed follows its course. -/
theorem afterQuery_of_opens (queries : List Query) (h : opens env w = true) :
    ∃ w' w'', SameWork w w' ∧ Reached env.replies w' w'' (transactionCourse env queries w) ∧
      afterQuery env queries w =
        queryDone env (transactionCourse env queries w).ending w'' := by
  obtain ⟨w', hopened, hsame, hc⟩ := openSession_of_opens h
  obtain ⟨w'', hreached, hstatement⟩ := executeStatement_spec env.replies env.stores queries hc
  rw [hsame.requests] at hreached hstatement
  refine ⟨w', w'', hsame, hreached, ?_⟩
  have hbody : runQueryBody env queries w =
      (executeStatement env.replies env.stores queries >>= fun _ => modify querySucceeded) w' :=
    bind_ok hopened
  change _ = (transactionCourse env queries w).ending.result env.stores w'' at hstatement
  unfold Ending.result at hstatement
  unfold afterQuery runQuery queryDone
  cases herror : (transactionCourse env queries w).ending.error with
  | none =>
      rw [herror] at hstatement
      rw [tryCatch_ok (hbody.trans ((bind_ok hstatement).trans modify_apply))]
  | some error =>
      rw [herror] at hstatement
      rw [tryCatch_error (hbody.trans (bind_error hstatement)), modify_apply]

/-- A transaction for which there is no session is not executed. -/
theorem afterQuery_of_not_opens (queries : List Query) (h : opens env w = false) :
    ∃ w', SameWork w w' ∧ w'.Settled ∧
      afterQuery env queries w =
        handleError env (PGConnectionException w'.connectionError) w' := by
  obtain ⟨w', hopened, hsame, hsettled⟩ := openSession_of_not_opens h
  refine ⟨w', hsame, hsettled, ?_⟩
  have hbody : runQueryBody env queries w =
      .error (PGConnectionException w'.connectionError) w' := bind_error hopened
  unfold afterQuery runQuery
  rw [tryCatch_error hbody, modify_apply]

/-! ### An accepted transaction -/

/-- The state in which `run` takes an accepted transaction from the queue: the data of the
transaction and of its children are fresh, and `sent` counts from here on. -/
def accepted (session : Backend) (queries : List Query) : Backend :=
  { session with
    sent := []
    data := { status := .waiting }
    children := queries.map fun _ => {}
    activeAliases := [] }

/-- The same when `runQuery` is entered. -/
def started (session : Backend) (queries : List Query) : Backend :=
  { accepted session queries with data := { status := .running } }

/-- What `run` adds to `runQuery`: the final status. -/
lemma runTransaction_eq (env : Environment) (queries : List Query) (session : Backend) :
    runTransaction env queries (accepted session queries) =
      { afterQuery env queries (started session queries) with
        data := { (afterQuery env queries (started session queries)).data with
          status :=
            if env.marked = true ∨
              (afterQuery env queries (started session queries)).data.status = .aborted then .aborted
            else .complete
          finished := true } } := by
  have hstarted : runTransaction env queries (accepted session queries) =
      (let w := afterQuery env queries (started session queries)
      let w := if env.marked then { w with data := { w.data with status := .aborted } } else w
      let w := if w.data.status ≠ .aborted then
        { w with data := { w.data with status := .complete } } else w
      { w with data := { w.data with finished := true } }) := rfl
  rw [hstarted]
  generalize afterQuery env queries (started session queries) = w
  cases env.marked with
  | true => rfl
  | false =>
      by_cases hstatus : w.data.status = .aborted
      · simp [hstatus]
      · simp [hstatus]

section fresh

variable {session : Backend} {cs : List IQueryData} {d : IQueryData}

/-- The children of a started transaction are fresh up to their status. -/
lemma mem_fresh (h : cs.map forgetStatus = (started session queries).children.map forgetStatus)
    (hd : d ∈ cs) : forgetStatus d = {} := by
  have hmem : forgetStatus d ∈ (started session queries).children.map forgetStatus := by
    rw [← h]
    exact List.mem_map_of_mem hd
  obtain ⟨d', hd', heq⟩ := List.mem_map.1 hmem
  obtain ⟨query, -, rfl⟩ := List.mem_map.1 hd'
  exact heq.symm

lemma errorText_of_fresh (h : forgetStatus d = {}) : d.errorText = [] :=
  congrArg IQueryData.errorText h

lemma resultStatus_of_fresh (h : forgetStatus d = {}) : d.resultStatus = .none :=
  congrArg IQueryData.resultStatus h

/-- The data that the outer handler finds for a started transaction. -/
lemma started_children {w' : Backend} {k : Course} (hreached : Reached env.replies w w' k)
    (hw : w.children = (started session queries).children) :
    ∃ cs, (∀ d ∈ cs, forgetStatus d = {}) ∧ cs.length = queries.length ∧
      w'.children = k.ending.children cs := by
  obtain ⟨cs, hcs, hchildren⟩ := hreached.children
  rw [hw] at hcs
  refine ⟨cs, fun d hd => mem_fresh hcs hd, ?_, hchildren⟩
  have hlength := congrArg List.length hcs
  simpa [started, accepted] using hlength

end fresh

section handleError

variable {error : PGException}

/-- The handlers of `runQuery` touch neither the children nor what was sent. -/
lemma handleError_children : (handleError env error w).children = w.children := by
  unfold handleError
  cases error.cls with
  | connection =>
      simp only
      split
      · rfl
      · split
        · exact (attemptReconnect_sameWork env .failure _).children
        · rfl
  | pg =>
      simp only
      split <;> rfl
  | other => rfl

lemma handleError_sent : (handleError env error w).sent = w.sent := by
  unfold handleError
  cases error.cls with
  | connection =>
      simp only
      split
      · rfl
      · split
        · exact (attemptReconnect_sameWork env .failure _).sent
        · rfl
  | pg =>
      simp only
      split <;> rfl
  | other => rfl

/-- The data of an execution after a handler. -/
lemma handleError_data : (handleError env error w).data =
    if error.cls ≠ .other ∧ stored env.stores.late w.data.cancellationRequested = true ∧
        isUserCancellationError error = true then
      queryAborted (caught env.stores w).data
    else queryFailed error (clearRequest (caught env.stores w)).data := by
  have hflag : (caught env.stores w).data.cancellationRequested =
      stored env.stores.late w.data.cancellationRequested := rfl
  unfold handleError
  rw [← hflag]
  cases error.cls with
  | connection =>
      simp only [Bool.and_eq_true, ne_eq, reduceCtorEq, not_false_eq_true, true_and]
      split
      · rfl
      · split
        · rw [(attemptReconnect_sameWork env .failure _).data]
        · rfl
  | pg =>
      simp only [Bool.and_eq_true, ne_eq, reduceCtorEq, not_false_eq_true, true_and]
      split <;> rfl
  | other => simp only [ne_eq, not_true_eq_false, false_and, if_false]

/-- A text that is set stays. -/
lemma handleError_errorText (h : w.data.errorText ≠ []) :
    (handleError env error w).data.errorText = w.data.errorText := by
  rw [handleError_data]
  split
  · rfl
  · exact if_neg h

lemma handleError_resultStatus : (handleError env error w).data.resultStatus ≠ .success := by
  rw [handleError_data]
  split
  · exact QueryResultStatus.noConfusion
  · exact QueryResultStatus.noConfusion

end handleError

end GmsvPg
