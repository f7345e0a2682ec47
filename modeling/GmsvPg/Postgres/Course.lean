/-
# The course of a transaction

Which requests are made, and where the execution of a transaction ends, is a function of the
replies: its `Course`.  `executeStatement` follows it.  The children come to the same course
one by one; their data change in status only until the course has ended.
-/
import GmsvPg.Postgres.Exchange
import GmsvPg.Postgres.Transaction

namespace GmsvPg

open Library LibpqExecutor Raise Transaction

/-- What an exchange adds to the requests sent. -/
def PGconn.entry (c : PGconn) (request : Request) (reply : Reply) : List (Request × Reply) :=
  if c.refuses request reply then [] else [(request, reply)]

/-- How the execution of the children ends, with the connection at that point. -/
inductive ChildrenEnd
  | raised (error : PGException) (connection : PGconn)
  | ended (connection : PGconn)
  | through (connection : PGconn)
deriving DecidableEq, Repr

namespace ChildrenEnd

def connection : ChildrenEnd → PGconn
  | raised _ c | ended c | through c => c

/-- The exception that is thrown. -/
def error : ChildrenEnd → Option PGException
  | raised error _ => some error
  | ended _ => some endedError
  | through _ => none

/-- The data of the transaction. -/
def data (d : IQueryData) : ChildrenEnd → IQueryData
  | ended _ => { d with errorText := endedMessage }
  | _ => d

end ChildrenEnd

/-- A call that throws, if there is an exception, and leaves the state `w`. -/
def outcome (error : Option PGException) (w : Backend) :
    EStateM.Result PGException Backend Unit :=
  match error with
  | none => .ok () w
  | some error => .error error w

/-- The requests that reach the server, the number of the next request, and the end. -/
structure ChildrenCourse where
  log : List (Request × Reply)
  requests : ℕ
  stop : ChildrenEnd
deriving DecidableEq, Repr

section course

variable (replies : ℕ → Reply)

/-- The course of one child, whose request is the `n`th. -/
def childCourse (n : ℕ) (c : PGconn) (query : Query) : ChildrenCourse :=
  match query.refusal with
  | some error => ⟨[], n, .raised error c⟩
  | none =>
      let exchange := (replies n).exchange query.request c
      { log := c.entry query.request (replies n)
        requests := n + 1
        stop :=
          match exchange.1 with
          | .raised error => .raised error exchange.2
          | .done =>
              if exchange.2.PQtransactionStatus = .inTrans then .through exchange.2
              else .ended exchange.2 }

/-- The course of the children. -/
def childrenCourse : ℕ → PGconn → List Query → ChildrenCourse
  | n, c, [] => ⟨[], n, .through c⟩
  | n, c, query :: queries =>
      let first := childCourse replies n c query
      match first.stop with
      | .through c' =>
          let rest := childrenCourse first.requests c' queries
          { rest with log := first.log ++ rest.log }
      | _ => first

end course

/-- A data object without its status. -/
def forgetStatus (d : IQueryData) : IQueryData := { d with status := .notRunning }

/-- The state has moved along the course of some children. -/
structure Advanced (w w' : Backend) (k : ChildrenCourse) : Prop where
  connection : w'.connectionHandle = some k.stop.connection
  connectionError : w'.connectionError = w.connectionError
  attempts : w'.attempts = w.attempts
  requests : w'.requests = k.requests
  sent : w'.sent = w.sent ++ k.log
  data : w'.data = k.stop.data w.data
  children : w'.children.map forgetStatus = w.children.map forgetStatus

variable {replies : ℕ → Reply} {w : Backend} {c : PGconn}

lemma Backend.exchanged_sent (w : Backend) (c : PGconn) (request : Request) (reply : Reply) :
    (w.exchanged request reply c).sent = w.sent ++ c.entry request reply := by
  unfold Backend.exchanged PGconn.entry
  cases c.refuses request reply with
  | true => exact (List.append_nil _).symm
  | false => rfl

lemma PQtransactionStatus_eq (h : w.connectionHandle = some c) :
    PQtransactionStatus w = .ok c.PQtransactionStatus w := by
  rw [PQtransactionStatus, bind_ok get_apply, h]
  rfl

lemma exchanged_connection {request : Request} {reply : Reply} {after : Answer × PGconn}
    (h : reply.exchange request c = after) :
    (w.exchanged request reply c).connectionHandle = some after.2 := by
  rw [← h]
  rfl

section childCourse

variable {n : ℕ} {query : Query} {c' : PGconn} {error : PGException}

lemma childCourse_refused (h : query.refusal = some error) :
    childCourse replies n c query = ⟨[], n, .raised error c⟩ := by
  rw [childCourse, h]

lemma childCourse_raised (h : query.refusal = none)
    (hexchange : (replies n).exchange query.request c = (.raised error, c')) :
    childCourse replies n c query =
      ⟨c.entry query.request (replies n), n + 1, .raised error c'⟩ := by
  rw [childCourse, h]
  simp only [hexchange]

lemma childCourse_ended (h : query.refusal = none)
    (hexchange : (replies n).exchange query.request c = (.done, c'))
    (hstatus : c'.PQtransactionStatus ≠ .inTrans) :
    childCourse replies n c query =
      ⟨c.entry query.request (replies n), n + 1, .ended c'⟩ := by
  rw [childCourse, h]
  simp only [hexchange, if_neg hstatus]

lemma childCourse_through (h : query.refusal = none)
    (hexchange : (replies n).exchange query.request c = (.done, c'))
    (hstatus : c'.PQtransactionStatus = .inTrans) :
    childCourse replies n c query =
      ⟨c.entry query.request (replies n), n + 1, .through c'⟩ := by
  rw [childCourse, h]
  simp only [hexchange, if_pos hstatus]

lemma childrenCourse_through (queries : List Query)
    (h : (childCourse replies n c query).stop = .through c') :
    childrenCourse replies n c (query :: queries) =
      { childrenCourse replies (childCourse replies n c query).requests c' queries with
        log := (childCourse replies n c query).log ++
          (childrenCourse replies (childCourse replies n c query).requests c' queries).log } := by
  rw [childrenCourse]
  simp only [h]

lemma childrenCourse_stops {queries : List Query}
    (h : (childCourse replies n c query).stop.error = some error) :
    childrenCourse replies n c (query :: queries) = childCourse replies n c query := by
  rw [childrenCourse]
  cases hstop : (childCourse replies n c query).stop with
  | through =>
      rw [hstop] at h
      cases h
  | raised => rfl
  | ended => rfl

/-- A course without an exception goes through. -/
lemma ChildrenEnd.eq_through {stop : ChildrenEnd} (h : stop.error = none) :
    ∃ c, stop = .through c := by
  cases stop with
  | through c => exact ⟨c, rfl⟩
  | raised => cases h
  | ended => cases h

end childCourse

lemma executeChild_spec (replies : ℕ → Reply) (query : Query) (hc : w.connectionHandle = some c) :
    ∃ w', Advanced w w' (childCourse replies w.requests c query) ∧
      executeChild replies query w =
        outcome (childCourse replies w.requests c query).stop.error w' := by
  cases hrefusal : query.refusal with
  | some error =>
      rw [childCourse_refused hrefusal]
      refine ⟨w, ⟨hc, rfl, rfl, rfl, (List.append_nil _).symm, rfl, rfl⟩, ?_⟩
      exact bind_error (Query.executeInTransaction_of_refusal hrefusal)
  | none =>
      have hrun := Query.executeInTransaction_of_not_refused replies hrefusal hc
      have hsent := w.exchanged_sent c query.request (replies w.requests)
      rcases hexchange : (replies w.requests).exchange query.request c with ⟨answer, c'⟩
      have hconnection := exchanged_connection (w := w) hexchange
      rw [hexchange] at hrun
      cases answer with
      | raised error =>
          rw [childCourse_raised hrefusal hexchange]
          exact ⟨_, ⟨hconnection, rfl, rfl, rfl, hsent, rfl, rfl⟩, bind_error hrun⟩
      | done =>
          have hthen : executeChild replies query w =
              (PQtransactionStatus >>= fun status =>
                if status ≠ .inTrans then (do
                  setError endedMessage
                  throw endedError) else pure ())
                (w.exchanged query.request (replies w.requests) c) := bind_ok hrun
          rw [bind_ok (PQtransactionStatus_eq hconnection)] at hthen
          by_cases hstatus : c'.PQtransactionStatus = .inTrans
          · rw [childCourse_through hrefusal hexchange hstatus]
            rw [if_neg (not_not_intro hstatus)] at hthen
            exact ⟨_, ⟨hconnection, rfl, rfl, rfl, hsent, rfl, rfl⟩, hthen⟩
          · rw [childCourse_ended hrefusal hexchange hstatus]
            rw [if_pos hstatus, setError, bind_ok modify_apply] at hthen
            refine ⟨_, ?_, hthen⟩
            exact ⟨hconnection, rfl, rfl, rfl, hsent, rfl, rfl⟩

namespace Advanced

variable {w₁ w₂ w₃ : Backend} {k k' : ChildrenCourse}

/-- The end of a course, as the start of the next. -/
lemma trans (h : Advanced w₁ w₂ k) (h' : Advanced w₂ w₃ k') (hthrough : k.stop = .through c) :
    Advanced w₁ w₃ { k' with log := k.log ++ k'.log } where
  connection := h'.connection
  connectionError := h'.connectionError.trans h.connectionError
  attempts := h'.attempts.trans h.attempts
  requests := h'.requests
  sent := by rw [h'.sent, h.sent, List.append_assoc]
  data := by
    rw [h'.data, h.data, hthrough]
    rfl
  children := h'.children.trans h.children

end Advanced

lemma map_forgetStatus_modify (i : ℕ) (children : List IQueryData) (status : QueryStatus) :
    (children.modify i fun d => { d with status := status }).map forgetStatus =
      children.map forgetStatus := by
  induction children generalizing i with
  | nil => cases i <;> rfl
  | cons d rest ih =>
      cases i with
      | zero => rfl
      | succ i => simpa using ih i

/-- The state in which the `i`th child is executed. -/
def childStarted (i : ℕ) (w : Backend) : Backend :=
  { w with
    children := w.children.modify i fun d => { d with status := .running }
    activeAliases := w.activeAliases ++ [i] }

/-- The state after the `i`th child has been executed. -/
def childLeft (i : ℕ) (w : Backend) : Backend :=
  { w with activeAliases := w.activeAliases.filter (· ≠ i) }

/-- Starting and leaving a child makes no difference to its course. -/
lemma Advanced.of_child {i : ℕ} {w w' : Backend} {k : ChildrenCourse}
    (h : Advanced (childStarted i w) w' k) : Advanced w (childLeft i w') k where
  connection := h.connection
  connectionError := h.connectionError
  attempts := h.attempts
  requests := h.requests
  sent := h.sent
  data := h.data
  children := h.children.trans (map_forgetStatus_modify i w.children .running)

/-- A round of the loop over the children. -/
lemma executeInTransaction_cons (i : ℕ) (query : Query) (queries : List Query) :
    executeInTransaction replies i (query :: queries) w =
      (tryCatch (executeChild replies query) (fun error => do
        removeActiveQueryAlias i
        throw error) >>= fun _ => do
        removeActiveQueryAlias i
        executeInTransaction replies (i + 1) queries) (childStarted i w) := rfl

lemma executeInTransaction_of_ok {i : ℕ} {query : Query} (queries : List Query) {w₁ : Backend}
    (h : executeChild replies query (childStarted i w) = .ok () w₁) :
    executeInTransaction replies i (query :: queries) w =
      executeInTransaction replies (i + 1) queries (childLeft i w₁) := by
  rw [executeInTransaction_cons, bind_ok (tryCatch_ok h), removeActiveQueryAlias,
    bind_ok modify_apply, childLeft]

lemma executeInTransaction_of_error {i : ℕ} {query : Query} (queries : List Query)
    {w₁ : Backend} {error : PGException}
    (h : executeChild replies query (childStarted i w) = .error error w₁) :
    executeInTransaction replies i (query :: queries) w = .error error (childLeft i w₁) := by
  have hraised : tryCatch (executeChild replies query) (fun error => do
      removeActiveQueryAlias i
      throw error) (childStarted i w) = .error error (childLeft i w₁) := by
    rw [tryCatch_error h, removeActiveQueryAlias, bind_ok modify_apply, throw_apply, childLeft]
  rw [executeInTransaction_cons, bind_error hraised]

/-- The children come to the course that the replies determine. -/
theorem executeInTransaction_spec (replies : ℕ → Reply) (i : ℕ) (queries : List Query)
    (hc : w.connectionHandle = some c) :
    ∃ w', Advanced w w' (childrenCourse replies w.requests c queries) ∧
      executeInTransaction replies i queries w =
        outcome (childrenCourse replies w.requests c queries).stop.error w' := by
  induction queries generalizing i w c with
  | nil => exact ⟨w, ⟨hc, rfl, rfl, rfl, (List.append_nil _).symm, rfl, rfl⟩, rfl⟩
  | cons query queries ih =>
      obtain ⟨w₁, hadvanced, hchild⟩ :=
        executeChild_spec replies query (show (childStarted i w).connectionHandle = some c from hc)
      have hfirst : Advanced w (childLeft i w₁) (childCourse replies w.requests c query) :=
        hadvanced.of_child
      have hchild : executeChild replies query (childStarted i w) =
          outcome (childCourse replies w.requests c query).stop.error w₁ := hchild
      cases herror : (childCourse replies w.requests c query).stop.error with
      | none =>
          -- the child leaves the transaction open, and the rest of the children follow
          obtain ⟨c', hthrough⟩ := ChildrenEnd.eq_through herror
          have hc' : (childLeft i w₁).connectionHandle = some c' := by
            rw [hfirst.connection, hthrough]
            rfl
          obtain ⟨w₂, hrest, hqueries⟩ := ih (i + 1) hc'
          rw [hfirst.requests] at hrest hqueries
          rw [herror] at hchild
          rw [childrenCourse_through queries hthrough]
          refine ⟨w₂, hfirst.trans hrest hthrough, ?_⟩
          rw [executeInTransaction_of_ok queries hchild, hqueries]
      | some error =>
          rw [herror] at hchild
          rw [childrenCourse_stops herror]
          refine ⟨childLeft i w₁, hfirst, ?_⟩
          rw [executeInTransaction_of_error queries hchild, herror]
          rfl

/-! ### The transaction -/

/-- Where the execution of a transaction ends, with the connection at that point. -/
inductive Ending
  | beginRaised (error : PGException) (connection : PGconn)
  | childRaised (error : PGException) (connection : PGconn)
  | childEnded (connection : PGconn)
  | commitRaised (error : PGException) (connection : PGconn)
  | committed (connection : PGconn)
deriving DecidableEq, Repr

namespace Ending

def connection : Ending → PGconn
  | beginRaised _ c | childRaised _ c | childEnded c | commitRaised _ c | committed c => c

/-- The exception that is thrown. -/
def error : Ending → Option PGException
  | beginRaised error _ | childRaised error _ | commitRaised error _ => some error
  | childEnded _ => some endedError
  | committed _ => none

/-- A `ROLLBACK` is sent. -/
def rollsBack : Ending → Bool
  | childRaised error _ => decide (error.cls ≠ .connection)
  | childEnded _ => true
  | _ => false

/-- The text that says that the outcome is unknown, where the connection has failed. -/
def failure : Ending → Option Text
  | childRaised error _ =>
      if error.cls = .connection then some (unknownMessage error.message) else none
  | commitRaised error _ =>
      if error.cls = .connection then some (commitUnknownMessage error.message) else none
  | _ => none

/-- The data of the transaction, before the outer handler. -/
def data (d : IQueryData) (ending : Ending) : IQueryData :=
  match ending.failure with
  | some message => { d with resultStatus := .error, errorText := message }
  | none =>
      match ending with
      | childEnded _ => { d with errorText := endedMessage }
      | committed _ => { d with resultStatus := .success }
      | _ => d

/-- The data of the children, before the outer handler. -/
def children (cs : List IQueryData) (ending : Ending) : List IQueryData :=
  match ending.failure with
  | some message => cs.map (failChild message)
  | none =>
      match ending with
      | committed _ => cs.map succeedChild
      | _ => cs

variable {ending : Ending} {message : Text} {error : PGException} {c : PGconn}

lemma data_of_failure (h : ending.failure = some message) (d : IQueryData) :
    ending.data d = { d with resultStatus := .error, errorText := message } := by
  simp only [data, h]

lemma children_of_failure (h : ending.failure = some message) (cs : List IQueryData) :
    ending.children cs = cs.map (failChild message) := by
  simp only [children, h]

lemma childRaised_failure (h : error.cls = .connection) :
    (childRaised error c).failure = some (unknownMessage error.message) := if_pos h

lemma commitRaised_failure (h : error.cls = .connection) :
    (commitRaised error c).failure = some (commitUnknownMessage error.message) := if_pos h

lemma childRaised_no_failure (h : error.cls ≠ .connection) :
    (childRaised error c).failure = none := if_neg h

lemma commitRaised_no_failure (h : error.cls ≠ .connection) :
    (commitRaised error c).failure = none := if_neg h

/-- After an error that is no connection error the data are left to the outer handler. -/
lemma childRaised_data (h : error.cls ≠ .connection) (d : IQueryData) :
    (childRaised error c).data d = d := by
  simp only [data, childRaised_no_failure h]

lemma commitRaised_data (h : error.cls ≠ .connection) (d : IQueryData) :
    (commitRaised error c).data d = d := by
  simp only [data, commitRaised_no_failure h]

lemma childRaised_children (h : error.cls ≠ .connection) (cs : List IQueryData) :
    (childRaised error c).children cs = cs := by
  simp only [children, childRaised_no_failure h]

lemma commitRaised_children (h : error.cls ≠ .connection) (cs : List IQueryData) :
    (commitRaised error c).children cs = cs := by
  simp only [children, commitRaised_no_failure h]

end Ending

/-- The requests that reach the server before any `ROLLBACK`, the number of the next request,
and the ending. -/
structure Course where
  log : List (Request × Reply)
  requests : ℕ
  ending : Ending
deriving DecidableEq, Repr

/-- How `COMMIT` ends the course. -/
def commitEnding (commit : Answer × PGconn) : Ending :=
  match commit.1 with
  | .raised error => .commitRaised error commit.2
  | .done => .committed commit.2

/-- The course of a transaction, when that of its children is known. -/
def closing (replies : ℕ → Reply) (k : ChildrenCourse) : Course :=
  match k.stop with
  | .raised error c => ⟨k.log, k.requests, .childRaised error c⟩
  | .ended c => ⟨k.log, k.requests, .childEnded c⟩
  | .through c =>
      { log := k.log ++ c.entry COMMIT (replies k.requests)
        requests := k.requests + 1
        ending := commitEnding ((replies k.requests).exchange COMMIT c) }

/-- The course of the children, with the `BEGIN` in front of it. -/
def begunCourse (replies : ℕ → Reply) (n : ℕ) (c c' : PGconn) (queries : List Query) :
    ChildrenCourse :=
  let k := childrenCourse replies (n + 1) c' queries
  { k with log := c.entry BEGIN (replies n) ++ k.log }

/-- The course of a transaction from its `BEGIN`, the `n`th request, on. -/
def course (replies : ℕ → Reply) (n : ℕ) (c : PGconn) (queries : List Query) : Course :=
  let begun := (replies n).exchange BEGIN c
  match begun.1 with
  | .raised error => ⟨c.entry BEGIN (replies n), n + 1, .beginRaised error begun.2⟩
  | .done => closing replies (begunCourse replies n c begun.2 queries)

section course

variable {n : ℕ} {c' : PGconn} {error : PGException} {k : ChildrenCourse}

lemma course_of_raised (queries : List Query)
    (h : (replies n).exchange BEGIN c = (.raised error, c')) :
    course replies n c queries =
      ⟨c.entry BEGIN (replies n), n + 1, .beginRaised error c'⟩ := by
  simp only [course, h]

lemma course_of_done (queries : List Query) (h : (replies n).exchange BEGIN c = (.done, c')) :
    course replies n c queries = closing replies (begunCourse replies n c c' queries) := by
  simp only [course, h]

lemma closing_of_raised (h : k.stop = .raised error c) :
    closing replies k = ⟨k.log, k.requests, .childRaised error c⟩ := by
  simp only [closing, h]

lemma closing_of_ended (h : k.stop = .ended c) :
    closing replies k = ⟨k.log, k.requests, .childEnded c⟩ := by
  simp only [closing, h]

lemma closing_of_through (h : k.stop = .through c) :
    closing replies k =
      { log := k.log ++ c.entry COMMIT (replies k.requests)
        requests := k.requests + 1
        ending := commitEnding ((replies k.requests).exchange COMMIT c) } := by
  simp only [closing, h]

end course

namespace Course

/-- The connection at the end, after a `ROLLBACK` if one is sent. -/
def connection (replies : ℕ → Reply) (k : Course) : PGconn :=
  if k.ending.rollsBack then ((replies k.requests).exchange ROLLBACK k.ending.connection).2
  else k.ending.connection

/-- All requests that reach the server. -/
def sent (replies : ℕ → Reply) (k : Course) : List (Request × Reply) :=
  if k.ending.rollsBack then
    k.log ++ k.ending.connection.entry ROLLBACK (replies k.requests)
  else k.log

end Course

/-- The state has moved along the course of a transaction, up to the outer handler. -/
structure Reached (replies : ℕ → Reply) (w w' : Backend) (k : Course) : Prop where
  connection : w'.connectionHandle = some (k.connection replies)
  connectionError : w'.connectionError = w.connectionError
  attempts : w'.attempts = w.attempts
  sent : w'.sent = w.sent ++ k.sent replies
  data : w'.data = k.ending.data w.data
  children : ∃ cs, cs.map forgetStatus = w.children.map forgetStatus ∧
    w'.children = k.ending.children cs

/-- `try { ROLLBACK } catch (...) {}` -/
lemma rollback_eq (replies : ℕ → Reply) (hc : w.connectionHandle = some c) :
    tryCatch (executeCommand replies "ROLLBACK".toList) (fun _ => pure ()) w =
      .ok () (w.exchanged ROLLBACK (replies w.requests) c) := by
  have hrun := executeCommand_eq replies (show containsNul "ROLLBACK".toList = false by decide) hc
  cases hanswer : ((replies w.requests).exchange (.query "ROLLBACK".toList) c).1 with
  | done =>
      rw [hanswer] at hrun
      exact tryCatch_ok hrun
  | raised error =>
      rw [hanswer] at hrun
      exact tryCatch_error hrun

/-- The handlers around `executeInTransaction`. -/
lemma childrenFailed_of_connection (replies : ℕ → Reply) {error : PGException}
    (h : error.cls = .connection) :
    childrenFailed replies error w = .error error (failedAll (unknownMessage error.message) w) := by
  rw [childrenFailed, if_pos h, failAll, bind_ok modify_apply]
  rfl

lemma childrenFailed_of_other (replies : ℕ → Reply) {error : PGException}
    (h : error.cls ≠ .connection) (hc : w.connectionHandle = some c) :
    childrenFailed replies error w =
      .error error (w.exchanged ROLLBACK (replies w.requests) c) := by
  rw [childrenFailed, if_neg h, bind_ok (rollback_eq replies hc)]
  rfl

lemma commitFailed_of_connection {error : PGException} (h : error.cls = .connection) :
    commitFailed error w = .error error (failedAll (commitUnknownMessage error.message) w) := by
  rw [commitFailed, if_pos h]
  rfl

lemma commitFailed_of_other {error : PGException} (h : error.cls ≠ .connection) :
    commitFailed error w = .error error w := by
  rw [commitFailed, if_neg h]
  rfl

/-- The exchange for `BEGIN`, as the beginning of a course. -/
lemma Advanced.of_exchanged {w' : Backend} {k : ChildrenCourse} {reply : Reply}
    {request : Request} (h : Advanced (w.exchanged request reply c) w' k) :
    Advanced w w' { k with log := c.entry request reply ++ k.log } where
  connection := h.connection
  connectionError := h.connectionError
  attempts := h.attempts
  requests := h.requests
  sent := by rw [h.sent, Backend.exchanged_sent, List.append_assoc]
  data := h.data
  children := h.children

namespace Reached

variable {w' : Backend} {k : ChildrenCourse} {error : PGException} {c' : PGconn}

/-- A child has raised a connection error. -/
lemma of_childRaised_connection (h : Advanced w w' k) (hstop : k.stop = .raised error c')
    (hcls : error.cls = .connection) :
    Reached replies w (failedAll (unknownMessage error.message) w')
      ⟨k.log, k.requests, .childRaised error c'⟩ where
  connection := by
    rw [Course.connection, Ending.rollsBack, decide_eq_false (not_not_intro hcls), failedAll,
      h.connection, hstop]
    rfl
  connectionError := h.connectionError
  attempts := h.attempts
  sent := by
    rw [Course.sent, Ending.rollsBack, decide_eq_false (not_not_intro hcls)]
    exact h.sent
  data := by
    rw [Ending.data_of_failure (Ending.childRaised_failure hcls), failedAll, h.data, hstop]
    rfl
  children := by
    refine ⟨w'.children, h.children, ?_⟩
    rw [Ending.children_of_failure (Ending.childRaised_failure hcls)]
    rfl

/-- A child has raised another error, and the transaction has been rolled back. -/
lemma of_childRaised_other (h : Advanced w w' k) (hstop : k.stop = .raised error c')
    (hcls : error.cls ≠ .connection) :
    Reached replies w (w'.exchanged ROLLBACK (replies w'.requests) c')
      ⟨k.log, k.requests, .childRaised error c'⟩ where
  connection := by
    rw [Course.connection, Ending.rollsBack, decide_eq_true hcls, h.requests]
    rfl
  connectionError := h.connectionError
  attempts := h.attempts
  sent := by
    rw [Course.sent, Ending.rollsBack, decide_eq_true hcls, Backend.exchanged_sent, h.sent,
      h.requests, List.append_assoc]
    rfl
  data := by
    rw [Ending.childRaised_data hcls]
    exact h.data.trans (by rw [hstop]; rfl)
  children := by
    exact ⟨w'.children, h.children, (Ending.childRaised_children hcls _).symm⟩

/-- A child has ended the transaction, and a `ROLLBACK` has been sent. -/
lemma of_childEnded (h : Advanced w w' k) (hstop : k.stop = .ended c') :
    Reached replies w (w'.exchanged ROLLBACK (replies w'.requests) c')
      ⟨k.log, k.requests, .childEnded c'⟩ where
  connection := by
    rw [h.requests]
    rfl
  connectionError := h.connectionError
  attempts := h.attempts
  sent := by
    rw [Backend.exchanged_sent, h.sent, h.requests, List.append_assoc]
    rfl
  data := h.data.trans (by rw [hstop]; rfl)
  children := ⟨w'.children, h.children, rfl⟩

variable {log : List (Request × Reply)} {reply : Reply} {n : ℕ}

/-- `COMMIT` has raised a connection error. -/
lemma of_commitRaised_connection (h : Advanced w w' k) (hstop : k.stop = .through c')
    (hexchange : reply.exchange COMMIT c' = (.raised error, c)) (hcls : error.cls = .connection) :
    Reached replies w
      (failedAll (commitUnknownMessage error.message) (w'.exchanged COMMIT reply c'))
      ⟨k.log ++ c'.entry COMMIT reply, n, .commitRaised error c⟩ where
  connection := exchanged_connection (w := w') hexchange
  connectionError := h.connectionError
  attempts := h.attempts
  sent := by
    rw [failedAll, Backend.exchanged_sent, h.sent, List.append_assoc]
    rfl
  data := by
    rw [Ending.data_of_failure (Ending.commitRaised_failure hcls), failedAll, Backend.exchanged, h.data, hstop]
    rfl
  children := by
    refine ⟨w'.children, h.children, ?_⟩
    rw [Ending.children_of_failure (Ending.commitRaised_failure hcls)]
    rfl

/-- `COMMIT` has raised another error. -/
lemma of_commitRaised_other (h : Advanced w w' k) (hstop : k.stop = .through c')
    (hexchange : reply.exchange COMMIT c' = (.raised error, c)) (hcls : error.cls ≠ .connection) :
    Reached replies w (w'.exchanged COMMIT reply c')
      ⟨k.log ++ c'.entry COMMIT reply, n, .commitRaised error c⟩ where
  connection := exchanged_connection hexchange
  connectionError := h.connectionError
  attempts := h.attempts
  sent := by
    rw [Backend.exchanged_sent, h.sent, List.append_assoc]
    rfl
  data := by
    rw [Ending.commitRaised_data hcls]
    exact h.data.trans (by rw [hstop]; rfl)
  children := by
    exact ⟨w'.children, h.children, (Ending.commitRaised_children hcls _).symm⟩

/-- `COMMIT` has succeeded. -/
lemma of_committed (h : Advanced w w' k) (hstop : k.stop = .through c')
    (hexchange : reply.exchange COMMIT c' = (.done, c)) :
    Reached replies w (succeededAll (w'.exchanged COMMIT reply c'))
      ⟨k.log ++ c'.entry COMMIT reply, n, .committed c⟩ where
  connection := exchanged_connection (w := w') hexchange
  connectionError := h.connectionError
  attempts := h.attempts
  sent := by
    rw [succeededAll, Backend.exchanged_sent, h.sent, List.append_assoc]
    rfl
  data := by
    rw [succeededAll, Backend.exchanged, h.data, hstop]
    rfl
  children := ⟨w'.children, h.children, rfl⟩

end Reached

/-- Once the children are through, `COMMIT` is exchanged. -/
lemma commit_spec {w w' : Backend} {k : ChildrenCourse} {c' : PGconn} (h : Advanced w w' k)
    (hstop : k.stop = .through c') :
    ∃ w'', Reached replies w w'' (closing replies k) ∧
      (tryCatch (executeCommand replies "COMMIT".toList) commitFailed >>= fun _ => succeedAll) w' =
        outcome (closing replies k).ending.error w'' := by
  have hc' : w'.connectionHandle = some c' := by
    rw [h.connection, hstop]
    rfl
  have hcommit := executeCommand_eq replies (show containsNul "COMMIT".toList = false by decide) hc'
  rw [h.requests] at hcommit
  rw [closing_of_through hstop]
  rcases hexchange : (replies k.requests).exchange COMMIT c' with ⟨answer, c''⟩
  rw [show (replies k.requests).exchange (.query "COMMIT".toList) c' = (answer, c'')
    from hexchange] at hcommit
  cases answer with
  | done =>
      refine ⟨_, .of_committed h hstop hexchange, ?_⟩
      exact bind_ok (tryCatch_ok hcommit)
  | raised error =>
      by_cases hcls : error.cls = .connection
      · refine ⟨_, .of_commitRaised_connection h hstop hexchange hcls, ?_⟩
        exact bind_error ((tryCatch_error hcommit).trans (commitFailed_of_connection hcls))
      · refine ⟨_, .of_commitRaised_other h hstop hexchange hcls, ?_⟩
        exact bind_error ((tryCatch_error hcommit).trans (commitFailed_of_other hcls))

/-- After the children, the handlers or `COMMIT` close the course. -/
lemma closing_spec {w w' w₁ : Backend} {k : ChildrenCourse} {queries : List Query}
    (h : Advanced w w' k)
    (hchildren : executeInTransaction replies 0 queries w₁ = outcome k.stop.error w') :
    ∃ w'', Reached replies w w'' (closing replies k) ∧
      (tryCatch (executeInTransaction replies 0 queries) (childrenFailed replies) >>= fun _ =>
        tryCatch (executeCommand replies "COMMIT".toList) commitFailed >>= fun _ => succeedAll) w₁ =
        outcome (closing replies k).ending.error w'' := by
  have hc' := h.connection
  cases hstop : k.stop with
  | raised error c' =>
      rw [hstop] at hchildren hc'
      rw [closing_of_raised hstop]
      by_cases hcls : error.cls = .connection
      · refine ⟨_, .of_childRaised_connection h hstop hcls, ?_⟩
        exact bind_error ((tryCatch_error hchildren).trans
          (childrenFailed_of_connection replies hcls))
      · refine ⟨_, .of_childRaised_other h hstop hcls, ?_⟩
        exact bind_error ((tryCatch_error hchildren).trans
          (childrenFailed_of_other replies hcls hc'))
  | ended c' =>
      rw [hstop] at hchildren hc'
      rw [closing_of_ended hstop]
      refine ⟨_, .of_childEnded h hstop, ?_⟩
      exact bind_error ((tryCatch_error hchildren).trans
        (childrenFailed_of_other replies (by decide) hc'))
  | through c' =>
      rw [hstop] at hchildren
      obtain ⟨w'', hreached, hcommit⟩ := commit_spec h hstop
      refine ⟨w'', hreached, ?_⟩
      rw [bind_ok (tryCatch_ok hchildren)]
      exact hcommit

/-- `executeStatement`, up to its outer handler, follows the course of the transaction. -/
theorem executeBody_spec (replies : ℕ → Reply) (queries : List Query)
    (hc : w.connectionHandle = some c) :
    ∃ w', Reached replies w w' (course replies w.requests c queries) ∧
      executeBody replies queries w =
        outcome (course replies w.requests c queries).ending.error w' := by
  have hbegin := executeCommand_eq replies (show containsNul "BEGIN".toList = false by decide) hc
  rcases hbegun : (replies w.requests).exchange BEGIN c with ⟨answer, c₁⟩
  rw [show (replies w.requests).exchange (.query "BEGIN".toList) c = (answer, c₁) from hbegun]
    at hbegin
  have hc₁ := exchanged_connection (w := w) hbegun
  cases answer with
  | raised error =>
      rw [course_of_raised queries hbegun]
      refine ⟨_, ⟨hc₁, rfl, rfl, w.exchanged_sent c BEGIN _, rfl, w.children, rfl, rfl⟩, ?_⟩
      exact bind_error hbegin
  | done =>
      rw [course_of_done queries hbegun]
      obtain ⟨w', hadvanced, hchildren⟩ := executeInTransaction_spec replies 0 queries hc₁
      obtain ⟨w'', hreached, hbody⟩ := closing_spec (k := begunCourse replies w.requests c c₁ queries)
        hadvanced.of_exchanged hchildren
      exact ⟨w'', hreached, (bind_ok hbegin).trans hbody⟩

/-- The result of `executeStatement`, in terms of the state that its outer handler finds. -/
def Ending.result (stores : FlagStores) (ending : Ending) (w : Backend) :
    EStateM.Result PGException Backend Unit :=
  match ending.error with
  | none => .ok () w
  | some error => .error error (handleFailure stores error w)

/-- `executeStatement` follows the course of the transaction. -/
theorem executeStatement_spec (replies : ℕ → Reply) (stores : FlagStores) (queries : List Query)
    (hc : w.connectionHandle = some c) :
    ∃ w', Reached replies w w' (course replies w.requests c queries) ∧
      executeStatement replies stores queries w =
        (course replies w.requests c queries).ending.result stores w' := by
  obtain ⟨w', hreached, hbody⟩ := executeBody_spec replies queries hc
  refine ⟨w', hreached, ?_⟩
  unfold Ending.result
  cases herror : (course replies w.requests c queries).ending.error with
  | none =>
      rw [herror] at hbody
      exact tryCatch_ok hbody
  | some error =>
      rw [herror] at hbody
      exact tryCatch_error hbody

end GmsvPg
