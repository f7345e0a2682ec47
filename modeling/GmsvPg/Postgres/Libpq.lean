/-
# The connection to the server

What `pg/src/postgres` uses of libpq.  A connection has a status and a transaction status.
A request is refused by libpq or reaches the server, which answers it with a `Reply`: the
results that `PQgetResult` returns one after the other, and what becomes of the connection.
The replies are not constrained, except that a successful `BEGIN` opens a transaction, a
failed one changes nothing, a successful `COMMIT` ends the transaction, a successful
statement leaves it open unless it is said to end it, and a `ROLLBACK` on a live connection
is not refused and ends the transaction.
-/
import GmsvPg.Library.Raise
import GmsvPg.Postgres.IQuery

namespace GmsvPg

/-- `ConnStatusType`. -/
inductive ConnStatusType
  | ok
  | bad
deriving DecidableEq, Repr

/-- `PGTransactionStatusType`, without `PQTRANS_ACTIVE`: a connection whose results have all
been read is not active. -/
inductive PGTransactionStatusType
  | idle
  | inTrans
  | inError
  | unknown
deriving DecidableEq, Repr

/-- `ExecStatusType`, without the values of single-row and pipeline mode. -/
inductive ExecStatusType
  | emptyQuery
  | commandOk
  | tuplesOk
  | copyOut
  | copyIn
  | copyBoth
  | badResponse
  | nonfatalError
  | fatalError
deriving DecidableEq, Repr

/-- The result is an error message, of the server or of libpq. -/
def ExecStatusType.isError : ExecStatusType → Bool
  | .badResponse | .nonfatalError | .fatalError => true
  | _ => false

/-- The status and the error fields of a result. -/
structure PGresult where
  status : ExecStatusType
  errorMessage : Text := []
  /-- `PG_DIAG_SQLSTATE`, empty if the result has none -/
  sqlstate : Text := []
  /-- libpq finds the connection lost while it reads this result -/
  lost : Bool := false
deriving DecidableEq, Repr

/-- The answer to one request. -/
structure Reply where
  /-- libpq refuses to send the request although the connection is live -/
  refused : Bool := false
  results : List PGresult := []
  /-- libpq finds the connection lost after the last result -/
  lost : Bool := false
  /-- `PQerrorMessage` from the request on -/
  errorMessage : Text := []
  /-- the statement has ended the surrounding transaction; it may have opened another -/
  endsTransaction : Bool := false
  /-- the transaction status afterwards, where the request does not determine it -/
  transactionStatus : PGTransactionStatusType := .inError
  /-- a `PQreset` called in answer to the reply succeeds -/
  resets : Bool := true
deriving DecidableEq, Repr

/-- The server has answered with an error. -/
def Reply.failed (reply : Reply) : Bool := reply.results.any fun result => result.status.isError

/-- What is sent: `PQsendQuery` or `PQsendQueryParams` with the parameter values. -/
inductive Request
  | query (sql : Text)
  | queryParams (sql : Text) (values : List (Option Text))
deriving DecidableEq, Repr

def BEGIN : Request := .query "BEGIN".toList
def COMMIT : Request := .query "COMMIT".toList
def ROLLBACK : Request := .query "ROLLBACK".toList

/-- The transaction status that the server reports after a request. -/
def Request.statusAfter (request : Request) (reply : Reply) (before : PGTransactionStatusType) :
    PGTransactionStatusType :=
  if request = BEGIN then
    if reply.failed then before else .inTrans
  else if request = COMMIT then
    if reply.failed then reply.transactionStatus else .idle
  else if request = ROLLBACK then
    .idle
  else
    if reply.failed || reply.endsTransaction then reply.transactionStatus else before

/-- A connection. -/
structure PGconn where
  status : ConnStatusType := .ok
  transactionStatus : PGTransactionStatusType := .idle
  errorMessage : Text := []
deriving DecidableEq, Repr

namespace PGconn

/-- `PQtransactionStatus(connection)`. -/
def PQtransactionStatus (c : PGconn) : PGTransactionStatusType :=
  match c.status with
  | .ok => c.transactionStatus
  | .bad => .unknown

/-- The connection does not carry an open or failed transaction into the next query. -/
def Settled (c : PGconn) : Prop := c.status = .ok → c.transactionStatus = .idle

instance (c : PGconn) : Decidable c.Settled := inferInstanceAs (Decidable (_ → _))

/-- libpq refuses to send the request. -/
def refuses (c : PGconn) (request : Request) (reply : Reply) : Bool :=
  decide (c.status = .bad) || (reply.refused && decide (request ≠ ROLLBACK))

/-- `PQgetResult` has returned a result. -/
def fetch (c : PGconn) (result : PGresult) : PGconn :=
  { c with status := if result.lost then .bad else c.status }

/-- `PQgetResult` has returned `NULL`. -/
def ready (c : PGconn) (request : Request) (reply : Reply) : PGconn :=
  { c with
    status := if reply.lost then .bad else c.status
    transactionStatus := request.statusAfter reply c.transactionStatus }

/-- `PQreset(connection)`. -/
def reset (c : PGconn) (reply : Reply) : PGconn :=
  { c with status := if reply.resets then .ok else .bad, transactionStatus := .idle }

end PGconn

/-- What the worker thread works on while it runs one query: the session of the database, the
data of the query and, if this is a transaction, of its children.  `replies n` answers the
`n`th request. -/
structure Backend where
  connectionHandle : Option PGconn := none
  connectionError : Text := []
  /-- the requests made so far, and the calls of `PQconnectdb` -/
  requests : ℕ := 0
  attempts : ℕ := 0
  /-- the requests that reached the server, with their replies, oldest first -/
  sent : List (Request × Reply) := []
  data : IQueryData := {}
  children : List IQueryData := []
  /-- the children in `activeAliases` -/
  activeAliases : List ℕ := []
deriving DecidableEq, Repr

/-- A function of the worker thread. -/
abbrev PGM : Type → Type := EStateM PGException Backend

/-- `PQerrorMessage` of a null connection. -/
def nullConnectionMessage : Text := "connection pointer is NULL\n".toList

def PQstatus : PGM ConnStatusType := do
  return ((← get).connectionHandle.map PGconn.status).getD .bad

def PQtransactionStatus : PGM PGTransactionStatusType := do
  return ((← get).connectionHandle.map PGconn.PQtransactionStatus).getD .unknown

def PQerrorMessage : PGM Text := do
  return ((← get).connectionHandle.map PGconn.errorMessage).getD nullConnectionMessage

/-- A libpq call that changes the connection. -/
def modifyConnection (f : PGconn → PGconn) : PGM Unit :=
  modify fun w => { w with connectionHandle := w.connectionHandle.map f }

/-- `PQsendQuery(connection, ...)` or `PQsendQueryParams(connection, ...)`: the reply if it
returns 1. -/
def send (replies : ℕ → Reply) (request : Request) : PGM (Option Reply) := do
  let w ← get
  match w.connectionHandle with
  | none => return none
  | some c =>
      let reply := replies w.requests
      let refused := c.refuses request reply
      set { w with
        connectionHandle := some { c with errorMessage := reply.errorMessage }
        requests := w.requests + 1
        sent := if refused then w.sent else w.sent ++ [(request, reply)] }
      return if refused then none else some reply

end GmsvPg
