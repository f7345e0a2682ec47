/-
# The results of failed work

When a statement fails PostgreSQL rolls back what was done before it, but the results that it
had already returned stay in the data of the execution.  `getData` returns `nil` for data that
has the result status `QUERY_ERROR`; an execution that was cancelled has `QUERY_NONE`.  The
functions for the further results look at the results only.
-/
import GmsvPg.Database.Agreement
import GmsvPg.Database.Reconnect
import GmsvPg.Lua.LuaQuery

namespace GmsvPg

open Library LibpqExecutor Raise Transaction Backend ResultStream

/-- The replies have these results, with their contents. -/
def Environment.withResults (env : Environment) (results : ℕ → List StatementPGresult) :
    Environment :=
  { env with replies := fun n =>
      { env.replies n with results := (results n).map (·.toPGresult) } }

/-! ### What is appended -/

section appended

variable (PQunescapeBytea : Text → Option Text) (env : Environment)
  (results : ℕ → List StatementPGresult)

/-- The run of `drainResults` for the `n`th request, which is sent on the connection `c`, with
fresh data as its sink. -/
def drained (n : ℕ) (request : Request) (c : PGconn) :
    Option (Option PGException × ResultStream) :=
  drainResults PQunescapeBytea ((results n).length + 1)
    (sent request (env.replies n) { c with errorMessage := (env.replies n).errorMessage }
      (results n) (some {}))

/-- What the `n`th request appends to the data that it is executed for. -/
def requestResults (n : ℕ) (request : Request) (c : PGconn) : List StatementResult :=
  if c.refuses request (env.replies n) then []
  else ((drained PQunescapeBytea env results n request c).bind fun z => z.2.data).elim []
    QueryData.results

/-- The requests that `executeInTransaction` makes for the children, if it comes to them: for
each child the number of its request and the connection. -/
def childRequests : ℕ → PGconn → List Query → List (Option (ℕ × PGconn))
  | _, _, [] => []
  | n, c, query :: queries =>
      match query.refusal with
      | some _ => none :: queries.map fun _ => none
      | none =>
          some (n, c) ::
            match (childCourse env.replies n c query).stop with
            | .through c' => childRequests (n + 1) c' queries
            | _ => queries.map fun _ => none

/-- The requests of the children of a transaction that begins with the `n`th request. -/
def transactionRequests (n : ℕ) (c : PGconn) (queries : List Query) :
    List (Option (ℕ × PGconn)) :=
  match (env.replies n).exchange BEGIN c with
  | (.raised _, _) => queries.map fun _ => none
  | (.done, c') => childRequests env (n + 1) c' queries

end appended

/-- The part of `run` from `data->setStatus(QUERY_RUNNING)` on, for any execution. -/
def runTaken (env : Environment) (e : Execution) (w : Backend) : Backend :=
  let w := runExecution env e { w with data := { w.data with status := .running } }
  { w with data := finishedData env.marked w.data }

namespace Execution

/-- The data of the execution when it is finished. -/
def outcome (env : Environment) (session : Backend) : Execution → IQueryData
  | transaction queries => (runTransaction env queries (accepted session queries)).data
  | e => (runTaken env e (accepted session [])).data

/-- The data that Lua reads when the callback of the execution has been run: its own, or that
of its children. -/
def readable (PQunescapeBytea : Text → Option Text) (env : Environment)
    (results : ℕ → List StatementPGresult) (session : Backend) : Execution → List QueryData
  | transaction queries =>
      let children := (runTransaction env queries (accepted session queries)).children
      let requests :=
        if opens env (started session queries) then
          transactionRequests env session.requests (started session queries).entryConnection queries
        else queries.map fun _ => none
      (List.range queries.length).map fun i =>
        { toIQueryData := children.getD i {}
          results := (requests.getD i none).elim [] fun z =>
            requestResults PQunescapeBytea env results z.1 (queries.getD i (.query [])).request z.2 }
  | e =>
      [{ toIQueryData := (runTaken env e (accepted session [])).data
         results :=
          if opens env (started session []) && !containsNul e.sql then
            requestResults PQunescapeBytea env results session.requests e.request
              (started session []).entryConnection
          else [] }]

end Execution

/-! ### What is shown -/

/-- Nothing is shown of the data: `getData` returns `nil`, and so does `getNextResults`, which
leaves the data as it is. -/
structure ShowsNothing (postgresNumberToLua : Text → Double) (data : QueryData) : Prop where
  getData : Lua.getData postgresNumberToLua (some data) = none
  getNextResults : Lua.getNextResults postgresNumberToLua (some data) = (none, some data)
  hasMoreResults : Lua.hasMoreResults (some data) = false

lemma showsNothing_iff {postgresNumberToLua : Text → Double} {data : QueryData}
    (hcursor : data.currentResult = 0) :
    ShowsNothing postgresNumberToLua data ↔
      data.resultStatus = .error ∧ data.results.length ≤ 1 := by
  have hmore : data.hasMoreResults = false ↔ data.results.length ≤ 1 := by
    rw [QueryData.hasMoreResults, hcursor, decide_eq_false_iff_not]
    omega
  constructor
  · intro h
    refine ⟨?_, hmore.1 h.hasMoreResults⟩
    by_contra hstatus
    have hdata := h.getData
    rw [Lua.getData, if_neg hstatus] at hdata
    cases hdata
  · rintro ⟨hstatus, hlength⟩
    exact ⟨if_pos hstatus, Lua.getNextResults_end (hmore.2 hlength), hmore.2 hlength⟩

/-! ### What the execution comes to -/

/-- The session that `runQuery` finds where it cannot open it. -/
def closedSession (env : Environment) (w : Backend) : Backend :=
  if env.shouldAutoReconnect .entry then (w.attemptReconnect env .entry).2 else w

/-- The exception that reaches the handlers of `runQuery`, for an execution that is no
transaction. -/
def Execution.exception (env : Environment) (w : Backend) (e : Execution) : Option PGException :=
  if opens env w then (e.failure env w.requests w.entryConnection).map Prod.fst
  else some (PGConnectionException (closedSession env w).connectionError)

/-- A handler of `runQuery` takes the error for the cancellation that was requested. -/
def Execution.IsCancelled (env : Environment) (error : PGException) (w : Backend)
    (e : Execution) : Prop :=
  error.cls ≠ .other ∧ e.flag env w = true ∧ isUserCancellationError error = true

/-- A request that is sent has at most one result before its first failure. -/
def OneResult (env : Environment) (results : ℕ → List StatementPGresult) (n : ℕ)
    (request : Request) (c : PGconn) : Prop :=
  c.refuses request (env.replies n) = false → (successes (results n)).length ≤ 1

/-- The condition under which failed work shows nothing.  The execution has failed and was not
merely marked as aborted; the failure is not taken for a cancellation; and there was at most
one result before it. -/
def Execution.Withheld (env : Environment) (results : ℕ → List StatementPGresult)
    (session : Backend) : Execution → Prop
  | .transaction queries =>
      let w := started session queries
      (queries = [] ∨ opens env w = true ∧ (transactionCourse env queries w).ending.error ≠ none) ∧
        ∀ i < queries.length, flagRead env.stores w i = false ∧
          ∀ n c, (transactionRequests env session.requests w.entryConnection queries).getD i none =
            some (n, c) → OneResult env results n (queries.getD i (.query [])).request c
  | e =>
      let w := started session []
      ∃ error, e.exception env w = some error ∧ ¬ e.IsCancelled env error w ∧
        (opens env w = true → containsNul e.sql = false →
          OneResult env results session.requests e.request w.entryConnection)

section results

variable {PQunescapeBytea : Text → Option Text} {env : Environment}
  {results : ℕ → List StatementPGresult} {n : ℕ} {request : Request} {c : PGconn}

lemma requestResults_eq : requestResults PQunescapeBytea env results n request c =
    if c.refuses request (env.replies n) then []
    else (successes (results n)).map (.ofResult PQunescapeBytea) := by
  obtain ⟨error, t, hrun, hdata⟩ :
      ∃ error t, drained PQunescapeBytea env results n request c = some (error, t) ∧
        t.data = some (QueryData.addResults {}
          ((successes (results n)).map (.ofResult PQunescapeBytea))) :=
    drainResults_data rfl (Nat.lt_succ_self _)
  rw [requestResults, hrun, Option.bind_some, hdata]
  rfl

lemma length_requestResults_le :
    (requestResults PQunescapeBytea env results n request c).length ≤ 1 ↔
      OneResult env results n request c := by
  rw [requestResults_eq, OneResult]
  cases c.refuses request (env.replies n) with
  | true => exact iff_of_true (Nat.zero_le 1) fun h => nomatch h
  | false =>
      rw [if_neg Bool.false_ne_true, List.length_map]
      exact ⟨fun h _ => h, fun h => h rfl⟩

/-- The drained stream raises what the exchange of the request comes to. -/
theorem drained_exception (hsent : c.refuses request (env.replies n) = false) :
    (drained PQunescapeBytea (env.withResults results) results n request c).map Prod.fst =
      some (((env.withResults results).replies n).exchange request c).1.exception := by
  have hexchange : ((env.withResults results).replies n).exchange request c =
      PGconn.drain request ((env.withResults results).replies n)
        ((results n).map (·.toPGresult)) { c with errorMessage := (env.replies n).errorMessage } :=
    if_neg (Bool.eq_false_iff.1 hsent)
  obtain ⟨t, hrun, -⟩ :
      ∃ t, drained PQunescapeBytea (env.withResults results) results n request c =
          some ((PGconn.drain request ((env.withResults results).replies n)
            ((results n).map (·.toPGresult))
            { c with errorMessage := (env.replies n).errorMessage }).1.exception, t) ∧ _ :=
    drainResults_drain rfl (Nat.lt_succ_self _)
  rw [hrun, hexchange]
  rfl

end results

/-! ### An execution that is no transaction -/

section execution

variable {env : Environment} {e : Execution} {w : Backend}

lemma openSession_closedSession (h : opens env w = false) :
    openSession env w = .error (PGConnectionException (closedSession env w).connectionError)
        (closedSession env w) ∧ (closedSession env w).data = w.data := by
  obtain ⟨w', hopened, -, -⟩ := openSession_of_not_opens h
  unfold closedSession
  unfold openSession at hopened ⊢
  rw [bind_ok get_apply] at hopened ⊢
  cases hopen : w.isOpen with
  | true =>
      rw [opens, hopen] at h
      cases h
  | false =>
      rw [hopen, Bool.not_false, if_pos rfl] at hopened
      rw [Bool.not_false, if_pos rfl]
      cases hauto : env.shouldAutoReconnect .entry with
      | false => exact ⟨rfl, rfl⟩
      | true =>
          refine ⟨?_, (attemptReconnect_sameWork env .entry w).data⟩
          rw [hauto, if_pos rfl, bind_ok set_apply] at hopened
          rw [if_pos rfl, if_pos rfl, bind_ok set_apply]
          cases hsuccess : (w.attemptReconnect env .entry).1 with
          | true =>
              rw [hsuccess] at hopened
              cases hopened
          | false => rfl

/-- The `try` block of `runQuery` raises the exception, if there is one, and the handlers find
the flag. -/
lemma runExecutionBody_exception (env : Environment) (w : Backend)
    (hflag : e.flag env w = stored env.stores.late w.data.cancellationRequested) :
    match e.exception env w with
    | none => ∃ w', runExecutionBody env e w = .ok () w'
    | some error => ∃ w', runExecutionBody env e w = .error error w' ∧
        stored env.stores.late w'.data.cancellationRequested = e.flag env w := by
  unfold Execution.exception
  cases hopens : opens env w with
  | false =>
      obtain ⟨hraised, hdata⟩ := openSession_closedSession hopens
      rw [if_neg Bool.false_ne_true]
      refine ⟨closedSession env w, bind_error hraised, ?_⟩
      rw [hdata, hflag]
  | true =>
      rw [if_pos rfl]
      obtain ⟨w', -, hbody⟩ := runExecutionBody_of_opens e hopens
      cases hfailure : e.failure env w.requests w.entryConnection with
      | none =>
          rw [hfailure] at hbody
          obtain ⟨w'', -, hbody⟩ := hbody
          exact ⟨w'', hbody⟩
      | some raised =>
          rw [hfailure] at hbody
          exact ⟨w', hbody.1, hbody.2.2⟩

lemma resultStatus_of_ok {w' : Backend} (h : runExecutionBody env e w = .ok () w') :
    w'.data.resultStatus = .success := by
  obtain ⟨-, w₁, -, h⟩ := bind_eq_ok h
  obtain ⟨-, w₂, -, h⟩ := bind_eq_ok h
  rw [modify_apply] at h
  cases h
  rfl

/-- The result status of an execution that is no transaction. -/
lemma runExecution_resultStatus (env : Environment) (w : Backend)
    (hflag : e.flag env w = stored env.stores.late w.data.cancellationRequested) :
    match e.exception env w with
    | none => (runExecution env e w).data.resultStatus = .success
    | some error => (runExecution env e w).data.resultStatus = .error ↔
        ¬ e.IsCancelled env error w := by
  have hbody := runExecutionBody_exception env w hflag
  cases hexception : e.exception env w with
  | none =>
      rw [hexception] at hbody
      obtain ⟨w', hbody⟩ := hbody
      show (runExecution env e w).data.resultStatus = .success
      rw [runExecution, hbody]
      exact resultStatus_of_ok hbody
  | some error =>
      rw [hexception] at hbody
      obtain ⟨w', hbody, hread⟩ := hbody
      show (runExecution env e w).data.resultStatus = .error ↔ ¬ e.IsCancelled env error w
      rw [runExecution, hbody, handleError_data, hread, Execution.IsCancelled]
      split
      · rename_i hcancelled
        exact iff_of_false QueryResultStatus.noConfusion (not_not_intro hcancelled)
      · rename_i hcancelled
        exact iff_of_true rfl hcancelled

end execution

/-! ### The children of a transaction -/

section children

variable {env : Environment} {queries : List Query} {session : Backend} {i : ℕ}

lemma getElem?_children {cs : List IQueryData} (hlength : cs.length = queries.length)
    (hi : i < queries.length) : ∃ d, cs[i]? = some d :=
  ⟨cs[i], List.getElem?_eq_getElem _⟩

lemma abandonChild_resultStatus (error : PGException) (cancelled : Bool) (d : IQueryData) :
    (abandonChild error cancelled d).resultStatus = .error ↔ cancelled = false := by
  unfold abandonChild
  cases cancelled with
  | true => exact iff_of_false QueryResultStatus.noConfusion (by simp)
  | false =>
      rw [if_neg Bool.false_ne_true]
      refine iff_of_true ?_ rfl
      split
      · rfl
      · rename_i hresult
        exact not_not.1 hresult

/-- The children of a transaction that has followed its course have failed if the handler has
read no cancellation. -/
lemma queryDone_resultStatus {w w' : Backend} {k : Course}
    (hreached : Reached env.replies w w' k)
    (hchildren : w.children = (started session queries).children) (hi : i < queries.length) :
    ((queryDone env k.ending w').children.getD i {}).resultStatus = .error ↔
      k.ending.error ≠ none ∧ flagRead env.stores w i = false := by
  obtain ⟨cs, -, hlength, hcs⟩ := started_children hreached hchildren
  cases herror : k.ending.error with
  | none =>
      have hcommitted : k.ending.children cs = cs.map succeedChild := by
        cases hending : k.ending with
        | committed c => rfl
        | _ =>
            rw [hending] at herror
            cases herror
      have hdone : (queryDone env k.ending w').children = cs.map succeedChild := by
        rw [queryDone, herror, ← hcommitted, ← hcs]
        rfl
      obtain ⟨d, hd⟩ := getElem?_children hlength hi
      rw [hdone, List.getD_eq_getElem?_getD, List.getElem?_map, hd]
      exact iff_of_false QueryResultStatus.noConfusion fun h => h.1 rfl
  | some error =>
      have hdone : (queryDone env k.ending w').children =
          (handleFailure env.stores error w').children := by
        rw [queryDone, herror]
        exact handleError_children
      have hcount : w'.children.length = queries.length := by
        rw [hreached.length_children, hchildren]
        exact List.length_map _
      obtain ⟨d, hd⟩ := getElem?_children hcount hi
      rw [hdone, handleFailure_children, List.getD_eq_getElem?_getD, List.getElem?_mapIdx, hd,
        hreached.flagRead_eq]
      show (abandonChild _ _ _).resultStatus = .error ↔ _
      rw [abandonChild_resultStatus, and_iff_right (Option.some_ne_none error)]

/-- A child has failed if the transaction was executed and has failed, and the handler has read
no cancellation for the child. -/
lemma child_resultStatus (env : Environment) (queries : List Query) (session : Backend)
    (hi : i < queries.length) :
    ((runTransaction env queries (accepted session queries)).children.getD i {}).resultStatus =
        .error ↔
      (opens env (started session queries) = true ∧
        (transactionCourse env queries (started session queries)).ending.error ≠ none) ∧
        flagRead env.stores (started session queries) i = false := by
  rw [runTransaction_finished]
  cases hopens : opens env (started session queries) with
  | false =>
      obtain ⟨w', hsame, -, hafter⟩ := afterQuery_of_not_opens queries hopens
      have hlength : (started session queries).children.length = queries.length := List.length_map _
      obtain ⟨d, hd⟩ := getElem?_children hlength hi
      have hfresh : d = {} := by
        obtain ⟨query, -, rfl⟩ := List.mem_map.1 (List.mem_of_getElem? hd)
        rfl
      simp only [hafter, handleError_children, hsame.children, List.getD_eq_getElem?_getD, hd]
      rw [hfresh]
      exact iff_of_false QueryResultStatus.noConfusion fun h => nomatch h.1.1
  | true =>
      obtain ⟨w', w'', hsame, hreached, hafter⟩ := afterQuery_of_opens queries hopens
      have hflag : flagRead env.stores w' i = flagRead env.stores (started session queries) i := by
        rw [flagRead, flagRead, collected_eq, collected_eq, hsame.data, hsame.children]
      have hdone := queryDone_resultStatus hreached hsame.children hi
      rw [hflag] at hdone
      simp only [hafter]
      rw [hdone]
      simp only [true_and]

end children

/-! ### Failed work -/

variable {PQunescapeBytea : Text → Option Text} {postgresNumberToLua : Text → Double}

lemma showsNothing_execution (env : Environment) (results : ℕ → List StatementPGresult)
    (session : Backend) (e : Execution)
    (hflag : ∀ w, e.flag env w = stored env.stores.late w.data.cancellationRequested) :
    ShowsNothing postgresNumberToLua
        { toIQueryData := (runTaken env e (accepted session [])).data
          results :=
            if opens env (started session []) && !containsNul e.sql then
              requestResults PQunescapeBytea env results session.requests e.request
                (started session []).entryConnection
            else [] } ↔
      ∃ error, e.exception env (started session []) = some error ∧
        ¬ e.IsCancelled env error (started session []) ∧
        (opens env (started session []) = true → containsNul e.sql = false →
          OneResult env results session.requests e.request
            (started session []).entryConnection) := by
  have hstatus : (runTaken env e (accepted session [])).data.resultStatus =
      (runExecution env e (started session [])).data.resultStatus := rfl
  have hrun := runExecution_resultStatus env (started session []) (hflag _)
  rw [showsNothing_iff rfl, hstatus]
  have hlength : (if opens env (started session []) && !containsNul e.sql then
        requestResults PQunescapeBytea env results session.requests e.request
          (started session []).entryConnection
      else []).length ≤ 1 ↔
        (opens env (started session []) = true → containsNul e.sql = false →
          OneResult env results session.requests e.request
            (started session []).entryConnection) := by
    cases opens env (started session []) with
    | false => exact iff_of_true (Nat.zero_le 1) fun h => nomatch h
    | true =>
        cases containsNul e.sql with
        | true => exact iff_of_true (Nat.zero_le 1) fun _ h => nomatch h
        | false => exact length_requestResults_le.trans ⟨fun h _ _ => h, fun h => h rfl rfl⟩
  cases hexception : e.exception env (started session []) with
  | none =>
      rw [hexception] at hrun
      refine iff_of_false (fun h => ?_) fun ⟨_, h, _⟩ => nomatch h
      exact absurd (hrun.symm.trans h.1) QueryResultStatus.noConfusion
  | some error =>
      rw [hexception] at hrun
      simp only at hrun
      rw [hlength, hrun]
      constructor
      · rintro ⟨hcancelled, hresult⟩
        exact ⟨error, rfl, hcancelled, hresult⟩
      · rintro ⟨_, heq, hcancelled, hresult⟩
        cases heq
        exact ⟨hcancelled, hresult⟩

lemma showsNothing_iff_withheld (env : Environment) (results : ℕ → List StatementPGresult)
    (session : Backend) (e : Execution) :
    (∀ data ∈ e.readable PQunescapeBytea env results session,
        ShowsNothing postgresNumberToLua data) ↔ e.Withheld env results session := by
  cases e with
  | query sql multiStatementsEnabled =>
      exact List.forall_mem_singleton.trans
        (showsNothing_execution env results session _ fun _ => rfl)
  | preparedQuery sql parameters =>
      exact List.forall_mem_singleton.trans
        (showsNothing_execution env results session _ fun _ => rfl)
  | transaction queries =>
      have hchild (i : ℕ) (hi : i < queries.length) := @child_resultStatus i env queries session hi
      simp only [Execution.readable, List.forall_mem_map, List.mem_range]
      constructor
      · intro h
        have hopens (hne : queries ≠ []) : opens env (started session queries) = true ∧
            (transactionCourse env queries (started session queries)).ending.error ≠ none := by
          have hi := List.length_pos_iff.2 hne
          exact ((hchild 0 hi).1 ((showsNothing_iff rfl).1 (h 0 hi)).1).1
        refine ⟨or_iff_not_imp_left.2 hopens, fun i hi => ?_⟩
        obtain ⟨hstatus, hlength⟩ := (showsNothing_iff rfl).1 (h i hi)
        obtain ⟨⟨hopen, -⟩, hflag⟩ := (hchild i hi).1 hstatus
        refine ⟨hflag, fun n c hrequest => ?_⟩
        rw [if_pos hopen, hrequest] at hlength
        exact length_requestResults_le.1 hlength
      · rintro ⟨hfailed, hread⟩ i hi
        obtain ⟨hopen, herror⟩ := hfailed.resolve_left (by
          rintro rfl
          exact absurd hi (Nat.not_lt_zero i))
        obtain ⟨hflag, hresult⟩ := hread i hi
        refine (showsNothing_iff rfl).2 ⟨(hchild i hi).2 ⟨⟨hopen, herror⟩, hflag⟩, ?_⟩
        rw [if_pos hopen]
        cases hrequest : (transactionRequests env session.requests
            (started session queries).entryConnection queries).getD i none with
        | none => exact Nat.zero_le 1
        | some z => exact length_requestResults_le.2 (hresult z.1 z.2 hrequest)

/-- **Failed work.**  When the outcome of an execution is not a success, the functions that read
results show nothing of its data, or of the data of its children, if and only if it has failed,
the failure is not taken for a cancellation, and there was at most one result before it. -/
theorem failed_work_hidden (PQunescapeBytea : Text → Option Text)
    (postgresNumberToLua : Text → Double) (env : Environment)
    (results : ℕ → List StatementPGresult) (session : Backend) (e : Execution) :
    ¬ (e.outcome (env.withResults results) session).IsSuccess →
      ((∀ data ∈ e.readable PQunescapeBytea (env.withResults results) results session,
          ShowsNothing postgresNumberToLua data) ↔
        e.Withheld (env.withResults results) results session) :=
  fun _ => showsNothing_iff_withheld _ _ _ _

/-- A raw query of three statements, on an open session. -/
def threeStatements : Execution :=
  .query "INSERT INTO log VALUES (1); SELECT 'one' AS value; SELECT 1 / 0".toList true

def openedSession : Backend := { connectionHandle := some {} }

/-- One result, and then an error. -/
def shortStream : List StatementPGresult := Lua.failingStream.tail

theorem failed_work_hidden_shortStream :
    ¬ (threeStatements.outcome (Environment.withResults {} fun _ => shortStream)
        openedSession).IsSuccess ∧
      ∀ data ∈ threeStatements.readable some (Environment.withResults {} fun _ => shortStream)
        (fun _ => shortStream) openedSession, ShowsNothing (fun _ => .nan) data := by
  have hfailed : ¬ (threeStatements.outcome (Environment.withResults {} fun _ => shortStream)
      openedSession).IsSuccess := by
    rintro ⟨-, hstatus⟩
    exact absurd hstatus (by decide)
  refine ⟨hfailed, (failed_work_hidden some (fun _ => .nan) {} (fun _ => shortStream)
    openedSession threeStatements hfailed).2 ?_⟩
  refine ⟨pgException "ERROR:  division by zero\n".toList "22012".toList, rfl, ?_, ?_⟩
  · rintro ⟨-, hflag, -⟩
    exact absurd hflag (by decide)
  · exact fun _ _ _ => by decide

/-- The second of two results that were rolled back is shown. -/
theorem second_result_shown :
    ¬ ∀ (env : Environment) (results : ℕ → List StatementPGresult) (session : Backend)
        (e : Execution), ¬ (e.outcome (env.withResults results) session).IsSuccess →
      ∀ data ∈ e.readable some (env.withResults results) results session,
        ShowsNothing (fun _ => .nan) data := by
  intro h
  have hhidden := h {} (fun _ => Lua.failingStream) openedSession threeStatements (by
    rintro ⟨-, hstatus⟩
    exact absurd hstatus (by decide))
  obtain ⟨error, -, -, hresult⟩ := (showsNothing_iff_withheld _ _ _ _).1 hhidden
  exact absurd (hresult rfl rfl rfl) (by decide)

end GmsvPg
