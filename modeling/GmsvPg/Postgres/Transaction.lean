/-
# Executing a transaction

`Transaction::executeStatement` and `Transaction::executeInTransaction`.  The children of a
transaction are a list of queries; their data are the `children` of the state, in the same
order.  While the worker thread handles a failure, the main thread may store into the
cancellation flags of the transaction and of its children; `FlagStores` says what it stores.
-/
import GmsvPg.Postgres.Query

namespace GmsvPg

open Library LibpqExecutor Raise

/-- What the main thread stores in the cancellation flags around the handler of
`executeStatement`: each time the last value it stores, if it stores any. -/
structure FlagStores where
  /-- in the flag of a child, before the handler reads it -/
  child : ℕ → Option Bool := fun _ => none
  /-- in the flag of the transaction, before the handler begins -/
  early : Option Bool := none
  /-- in the flag of the transaction, before the handler reads it for a child -/
  during : ℕ → Option Bool := fun _ => none
  /-- in the flag of the transaction, before `runQuery` reads it -/
  late : Option Bool := none

/-- A flag after the main thread's store. -/
def stored (store : Option Bool) (flag : Bool) : Bool := store.getD flag

namespace Transaction

def unknownMessage (what : Text) : Text := "Transaction outcome unknown: ".toList ++ what

def commitUnknownMessage (what : Text) : Text :=
  "Transaction commit outcome unknown: ".toList ++ what

def rolledBackMessage (what : Text) : Text := "Transaction rolled back: ".toList ++ what

def endedMessage : Text :=
  "Transaction outcome unknown: child query ended the surrounding transaction".toList

/-- The exception thrown when a child has ended the transaction. -/
def endedError : PGException :=
  pgException "pg: transaction child query ended the surrounding transaction".toList

/-- `pair.second->setStatus(QUERY_RUNNING)` for the `i`th child. -/
def setRunning (i : ℕ) : PGM Unit :=
  modify fun w => { w with children := w.children.modify i fun d => { d with status := .running } }

/-- `Database::addActiveQueryAlias` for the `i`th child. -/
def addActiveQueryAlias (i : ℕ) : PGM Unit :=
  modify fun w => { w with activeAliases := w.activeAliases ++ [i] }

/-- `Database::removeActiveQueryAlias` for the `i`th child. -/
def removeActiveQueryAlias (i : ℕ) : PGM Unit :=
  modify fun w => { w with activeAliases := w.activeAliases.filter (· ≠ i) }

/-- `data->setError(message)` for the transaction. -/
def setError (message : Text) : PGM Unit :=
  modify fun w => { w with data := { w.data with errorText := message } }

section execute

variable (replies : ℕ → Reply)

/-- The body of the loop of `executeInTransaction`, for a child whose alias is set. -/
def executeChild (query : Query) : PGM Unit := do
  query.executeInTransaction replies
  if (← PQtransactionStatus) ≠ .inTrans then
    setError endedMessage
    throw endedError

/-- `executeInTransaction`, from the `i`th child on. -/
def executeInTransaction : ℕ → List Query → PGM Unit
  | _, [] => pure ()
  | i, query :: queries => do
      setRunning i
      addActiveQueryAlias i
      tryCatch (executeChild replies query) fun error => do
        removeActiveQueryAlias i
        throw error
      removeActiveQueryAlias i
      executeInTransaction (i + 1) queries

/-- What a child is left with when the connection fails. -/
def failChild (message : Text) (d : IQueryData) : IQueryData :=
  { d with resultStatus := .error, status := .complete, errorText := message, finished := true }

/-- What a child is left with when the transaction is committed. -/
def succeedChild (d : IQueryData) : IQueryData :=
  { d with resultStatus := .success, status := .complete, finished := true }

/-- What the transaction and its children are left with when the connection fails. -/
def failedAll (message : Text) (w : Backend) : Backend :=
  { w with
    children := w.children.map (failChild message)
    data := { w.data with resultStatus := .error, errorText := message } }

/-- The body of the two handlers for a `PGConnectionException`. -/
def failAll (message : Text) : PGM Unit := modify (failedAll message)

/-- What the outer handler does with a child, after it has read the flag of the transaction. -/
def abandonChild (error : PGException) (cancelled : Bool) (d : IQueryData) : IQueryData :=
  if cancelled then
    { d with resultStatus := .none, status := .aborted, finished := true }
  else if d.resultStatus ≠ .error then
    { d with
      resultStatus := .error
      status := .complete
      errorText := rolledBackMessage error.message
      finished := true }
  else { d with finished := true }

/-- The second loop of the outer handler: the children and the flag of the transaction. -/
def abandonChildren (error : PGException) :
    (ℕ → Option Bool) → Bool → List IQueryData → List IQueryData × Bool
  | _, flag, [] => ([], flag)
  | during, flag, d :: rest =>
      let flag := stored (during 0) flag
      let after := abandonChildren error (fun i => during (i + 1)) flag rest
      (abandonChild error flag d :: after.1, after.2)

/-- The stores of the main thread before the outer handler reads a flag. -/
def storeFlags (stores : FlagStores) (w : Backend) : Backend :=
  { w with
    children := w.children.mapIdx fun i d =>
      { d with cancellationRequested := stored (stores.child i) d.cancellationRequested }
    data := { w.data with
      cancellationRequested := stored stores.early w.data.cancellationRequested } }

/-- The first loop of the outer handler. -/
def collectFlags (w : Backend) : Backend :=
  { w with data := { w.data with
      cancellationRequested :=
        w.children.any (·.cancellationRequested) || w.data.cancellationRequested } }

/-- The text of the transaction says that its outcome is unknown. -/
def outcomeUnknown (text : Text) : Bool :=
  Text.contains text "Transaction outcome unknown".toList ||
    Text.contains text "Transaction commit outcome unknown".toList

/-- The outer handler, up to its `throw`. -/
def handleFailure (stores : FlagStores) (error : PGException) (w : Backend) : Backend :=
  let w := collectFlags (storeFlags stores w)
  let after := abandonChildren error stores.during w.data.cancellationRequested w.children
  let data := { w.data with cancellationRequested := after.2 }
  { w with
    children := after.1
    data := if outcomeUnknown w.data.errorText then data
      else { data with
        resultStatus := .error
        errorText := rolledBackMessage error.message } }

/-- The handlers around `executeInTransaction`.  Of a connection error nothing is known about
the outcome; after any other error the transaction is rolled back. -/
def childrenFailed (error : PGException) : PGM Unit := do
  if error.cls = .connection then
    failAll (unknownMessage error.message)
  else
    tryCatch (executeCommand replies "ROLLBACK".toList) fun _ => pure ()
  throw error

/-- The handler around `COMMIT`. -/
def commitFailed (error : PGException) : PGM Unit := do
  if error.cls = .connection then
    failAll (commitUnknownMessage error.message)
  throw error

/-- What the transaction and its children are left with after `COMMIT`. -/
def succeededAll (w : Backend) : Backend :=
  { w with
    children := w.children.map succeedChild
    data := { w.data with resultStatus := .success } }

/-- The loop over the children after `COMMIT`. -/
def succeedAll : PGM Unit := modify succeededAll

/-- The part of `executeStatement` inside the outer `try`. -/
def executeBody (queries : List Query) : PGM Unit := do
  executeCommand replies "BEGIN".toList
  tryCatch (executeInTransaction replies 0 queries) (childrenFailed replies)
  tryCatch (executeCommand replies "COMMIT".toList) commitFailed
  succeedAll

/-- `executeStatement` -/
def executeStatement (stores : FlagStores) (queries : List Query) : PGM Unit :=
  tryCatch (executeBody replies queries) fun error => do
    modify (handleFailure stores error)
    throw error

end execute

end Transaction

end GmsvPg
