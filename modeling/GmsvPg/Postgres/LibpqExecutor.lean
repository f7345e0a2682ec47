/-
# Sending a request and reading its results

`pg/src/postgres/LibpqExecutor.cpp`, without the conversion of the result rows, which
decides nothing here.  Reading the results of a reply is a loop that raises an exception at
the first result that is no success; its outcome is a function of the reply and of the
connection, the `exchange`.
-/
import GmsvPg.Postgres.Libpq

namespace GmsvPg

open Library

/-- `PGException(message)`. -/
def pgException (message : Text) (sqlstate : Text := []) : PGException := ⟨.pg, message, sqlstate⟩

/-- A parameter of a prepared query: `LIBPQ_PARAMETER_TEXT` with its value, or
`LIBPQ_PARAMETER_NULL`. -/
inductive LibpqParameter
  | text (value : Text)
  | null
deriving DecidableEq, Repr

/-- What `PQsendQueryParams` is given for a parameter. -/
def LibpqParameter.value : LibpqParameter → Option Text
  | .text value => some value
  | .null => none

namespace LibpqExecutor

/-- `containsNul` -/
def containsNul (value : Text) : Bool := decide ('\x00' ∈ value)

def nulMessage : Text := "pg: SQL strings cannot contain embedded NUL bytes".toList

def copyMessage : Text :=
  "pg: COPY queries are not supported through db:query(); connection was reset".toList

/-- `isSuccessStatus` -/
def isSuccessStatus (status : ExecStatusType) : Bool :=
  status == .commandOk || status == .tuplesOk || status == .emptyQuery

/-- The test in `drainResults` for a result that starts a `COPY`. -/
def isCopyStatus (status : ExecStatusType) : Bool :=
  status == .copyIn || status == .copyOut || status == .copyBoth

/-- `throwResultError` -/
def throwResultError (result : PGresult) : PGM Unit := do
  let message ← PQerrorMessage
  let status ← PQstatus
  let error := if result.errorMessage ≠ [] then result.errorMessage else message
  let state := result.sqlstate
  if status = .bad ∨ (2 ≤ state.length ∧ state.take 2 = "08".toList) then
    throw (PGConnectionException error state)
  else
    throw (pgException error state)

/-- The loop that reads the remaining results after an error. -/
def discardResults (request : Request) (reply : Reply) : List PGresult → PGM Unit
  | [] => modifyConnection (·.ready request reply)
  | result :: rest => do
      modifyConnection (·.fetch result)
      discardResults request reply rest

/-- `drainUnsupportedCopy` -/
def drainUnsupportedCopy (reply : Reply) : PGM Unit := modifyConnection (·.reset reply)

/-- `drainResults`, with the results that `PQgetResult` has still to return. -/
def drainResults (request : Request) (reply : Reply) : List PGresult → PGM Unit
  | [] => do
      modifyConnection (·.ready request reply)
      if (← PQstatus) = .bad then
        throw (PGConnectionException (← PQerrorMessage))
  | result :: rest => do
      modifyConnection (·.fetch result)
      if isCopyStatus result.status then
        drainUnsupportedCopy reply
        throw (PGConnectionException copyMessage)
      if !isSuccessStatus result.status then
        tryCatch (throwResultError result) fun error => do
          discardResults request reply rest
          throw error
      drainResults request reply rest

variable (replies : ℕ → Reply)

/-- The part that `executeCommand` and `executeParams` have in common. -/
def sendAndDrain (request : Request) : PGM Unit := do
  match ← send replies request with
  | none => throw (PGConnectionException (← PQerrorMessage))
  | some reply => drainResults request reply reply.results

/-- `executeCommand` -/
def executeCommand (sql : Text) : PGM Unit := do
  if containsNul sql then throw (pgException nulMessage)
  sendAndDrain replies (.query sql)

/-- `executeParams` -/
def executeParams (sql : Text) (parameters : List LibpqParameter) : PGM Unit := do
  if containsNul sql then throw (pgException nulMessage)
  sendAndDrain replies (.queryParams sql (parameters.map LibpqParameter.value))

/-- `executeSingleStatement` -/
def executeSingleStatement (sql : Text) : PGM Unit := executeParams replies sql []

end LibpqExecutor

/-- What a request comes to for its caller. -/
inductive Answer
  | done
  | raised (error : PGException)
deriving DecidableEq, Repr

/-- A call that comes to the answer and leaves the state `w`. -/
def Answer.result : Answer → Backend → EStateM.Result PGException Backend Unit
  | .done, w => .ok () w
  | .raised error, w => .error error w

namespace PGconn

open LibpqExecutor

/-- The exception for a result that is an error. -/
def resultError (c : PGconn) (result : PGresult) : PGException :=
  let error := if result.errorMessage ≠ [] then result.errorMessage else c.errorMessage
  if c.status = .bad ∨ (2 ≤ result.sqlstate.length ∧ result.sqlstate.take 2 = "08".toList) then
    PGConnectionException error result.sqlstate
  else pgException error result.sqlstate

/-- The connection after all remaining results have been read. -/
def discard (c : PGconn) (request : Request) (reply : Reply) (results : List PGresult) :
    PGconn :=
  (results.foldl fetch c).ready request reply

/-- Reading results: the answer, and the connection afterwards. -/
def drain (request : Request) (reply : Reply) : List PGresult → PGconn → Answer × PGconn
  | [], c =>
      if (c.ready request reply).status = .bad then
        (.raised (PGConnectionException c.errorMessage), c.ready request reply)
      else (.done, c.ready request reply)
  | result :: rest, c =>
      if isCopyStatus result.status then
        (.raised (PGConnectionException copyMessage), (c.fetch result).reset reply)
      else if isSuccessStatus result.status then drain request reply rest (c.fetch result)
      else (.raised ((c.fetch result).resultError result),
        (c.fetch result).discard request reply rest)

end PGconn

/-- The exchange of a request for its reply on the connection `c`. -/
def Reply.exchange (reply : Reply) (request : Request) (c : PGconn) : Answer × PGconn :=
  let c := { c with errorMessage := reply.errorMessage }
  if c.refuses request reply then (.raised (PGConnectionException reply.errorMessage), c)
  else PGconn.drain request reply reply.results c

/-- The state after the exchange of a request for its reply. -/
def Backend.exchanged (w : Backend) (request : Request) (reply : Reply) (c : PGconn) : Backend :=
  { w with
    connectionHandle := some (reply.exchange request c).2
    requests := w.requests + 1
    sent := if c.refuses request reply then w.sent else w.sent ++ [(request, reply)] }

namespace LibpqExecutor

open Raise

variable {request : Request} {reply : Reply} {w : Backend} {c : PGconn}

/-- The state with the connection `c` in place of its own. -/
def withConnection (w : Backend) (c : PGconn) : Backend := { w with connectionHandle := some c }

lemma modifyConnection_eq {f : PGconn → PGconn} (h : w.connectionHandle = some c) :
    modifyConnection f w = .ok () (withConnection w (f c)) := by
  rw [modifyConnection, modify_apply, h]
  rfl

lemma PQstatus_eq (h : w.connectionHandle = some c) : PQstatus w = .ok c.status w := by
  rw [PQstatus, bind_ok get_apply, h]
  rfl

lemma PQerrorMessage_eq (h : w.connectionHandle = some c) :
    PQerrorMessage w = .ok c.errorMessage w := by
  rw [PQerrorMessage, bind_ok get_apply, h]
  rfl

lemma discardResults_eq (results : List PGresult) (h : w.connectionHandle = some c) :
    discardResults request reply results w =
      .ok () (withConnection w (c.discard request reply results)) := by
  induction results generalizing w c with
  | nil => exact modifyConnection_eq h
  | cons result rest ih =>
      rw [discardResults, bind_ok (modifyConnection_eq h), ih rfl]
      rfl

lemma throwResultError_eq (result : PGresult) (h : w.connectionHandle = some c) :
    throwResultError result w = .error (c.resultError result) w := by
  rw [throwResultError, bind_ok (PQerrorMessage_eq h), bind_ok (PQstatus_eq h)]
  unfold PGconn.resultError
  by_cases hlost : c.status = .bad ∨ (2 ≤ result.sqlstate.length ∧
      result.sqlstate.take 2 = "08".toList)
  · simp only [if_pos hlost, throw_apply]
  · simp only [if_neg hlost, throw_apply]

lemma drainResults_eq (results : List PGresult) (h : w.connectionHandle = some c) :
    drainResults request reply results w =
      (PGconn.drain request reply results c).1.result
        (withConnection w (PGconn.drain request reply results c).2) := by
  induction results generalizing w c with
  | nil =>
      rw [drainResults, bind_ok (modifyConnection_eq h), bind_ok (PQstatus_eq rfl)]
      unfold PGconn.drain
      by_cases hbad : (c.ready request reply).status = .bad
      · rw [if_pos hbad, if_pos hbad, bind_ok (PQerrorMessage_eq rfl)]
        rfl
      · rw [if_neg hbad, if_neg hbad]
        rfl
  | cons result rest ih =>
      rw [drainResults, bind_ok (modifyConnection_eq h)]
      unfold PGconn.drain
      cases hcopy : isCopyStatus result.status with
      | true =>
          rw [if_pos rfl, if_pos rfl, drainUnsupportedCopy, bind_ok (modifyConnection_eq rfl)]
          rfl
      | false =>
          cases hsuccess : isSuccessStatus result.status with
          | true => exact ih rfl
          | false =>
              have hraise : tryCatch (throwResultError result) (fun error => do
                  discardResults request reply rest
                  throw error) (withConnection w (c.fetch result)) =
                    .error ((c.fetch result).resultError result)
                      (withConnection w ((c.fetch result).discard request reply rest)) := by
                rw [tryCatch_error (throwResultError_eq result rfl),
                  bind_ok (discardResults_eq rest rfl)]
                rfl
              exact bind_error hraise

lemma send_eq {replies : ℕ → Reply} (h : w.connectionHandle = some c) :
    send replies request w =
      .ok (if c.refuses request (replies w.requests) then none else some (replies w.requests))
        { w with
          connectionHandle := some { c with errorMessage := (replies w.requests).errorMessage }
          requests := w.requests + 1
          sent := if c.refuses request (replies w.requests) then w.sent
            else w.sent ++ [(request, replies w.requests)] } := by
  rw [send, bind_ok get_apply, h]
  rfl

/-- Sending a request and reading the results is the exchange of the request for its reply. -/
lemma sendAndDrain_eq {replies : ℕ → Reply} (h : w.connectionHandle = some c) :
    sendAndDrain replies request w =
      ((replies w.requests).exchange request c).1.result
        (w.exchanged request (replies w.requests) c) := by
  rw [sendAndDrain, bind_ok (send_eq h)]
  cases hrefused : c.refuses request (replies w.requests) with
  | true =>
      have hrefused' : PGconn.refuses { c with errorMessage := (replies w.requests).errorMessage }
          request (replies w.requests) = true := hrefused
      rw [Backend.exchanged, Reply.exchange, hrefused, hrefused']
      exact bind_ok (PQerrorMessage_eq
        (c := { c with errorMessage := (replies w.requests).errorMessage }) rfl)
  | false =>
      have hrefused' : PGconn.refuses { c with errorMessage := (replies w.requests).errorMessage }
          request (replies w.requests) = false := hrefused
      rw [Backend.exchanged, Reply.exchange, hrefused, hrefused']
      exact drainResults_eq _ rfl

lemma executeCommand_eq (replies : ℕ → Reply) {sql : Text} (hnul : containsNul sql = false)
    (h : w.connectionHandle = some c) :
    executeCommand replies sql w =
      ((replies w.requests).exchange (.query sql) c).1.result
        (w.exchanged (.query sql) (replies w.requests) c) := by
  rw [executeCommand, hnul]
  exact sendAndDrain_eq h

lemma executeParams_eq {replies : ℕ → Reply} {sql : Text} {parameters : List LibpqParameter}
    (hnul : containsNul sql = false) (h : w.connectionHandle = some c) :
    executeParams replies sql parameters w =
      ((replies w.requests).exchange (.queryParams sql (parameters.map LibpqParameter.value))
        c).1.result
        (w.exchanged (.queryParams sql (parameters.map LibpqParameter.value))
          (replies w.requests) c) := by
  rw [executeParams, hnul]
  exact sendAndDrain_eq h

lemma executeParams_nul {replies : ℕ → Reply} {sql : Text} {parameters : List LibpqParameter}
    (hnul : containsNul sql = true) :
    executeParams replies sql parameters w = .error (pgException nulMessage) w := by
  rw [executeParams, hnul]
  rfl

end LibpqExecutor

end GmsvPg
