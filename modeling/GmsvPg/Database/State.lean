/-
# The shared state of a `Database` and the accesses to it

A `Database` is used by two threads: the main (Lua) thread, which starts, aborts and waits
for executions, and the worker thread that `connect()` spawns.  This file fixes what they
share: the members of `Database`, of `QueryWorker`, `ActiveQueryState` and
`ConnectionSession`, and the data of every execution.  An `Access` is one atomic access to
it: a load or store of an atomic, or one mutex section.  The control flow of the two
threads, which decides what access comes next, is in the two files that follow.

The state also carries a `History`, which no access reads: it records what has happened,
in order, and the properties of runs are stated about it.
-/
import GmsvPg.Postgres.BlockingQueue
import GmsvPg.Postgres.IQuery
import Mathlib.Logic.Function.Basic

namespace GmsvPg.Database

/-- One execution: a query object with the data object built for this start.  `start` builds
fresh data each time, so a serial number identifies the data, and the pair with it.
`children` is the number of staged children of a transaction, 0 for a plain query. -/
structure Execution where
  query : ℕ
  data : ℕ
  children : ℕ
deriving DecidableEq, Repr

/-- A data object: that of an execution, or that of a staged child of a transaction. -/
inductive DataId
  | own (e : Execution)
  | child (e : Execution) (index : ℕ)
deriving DecidableEq, Repr

/-- The execution a data object belongs to. -/
def DataId.execution : DataId → Execution
  | .own e => e
  | .child e _ => e

/-- The two threads. -/
inductive Thread
  | main
  | worker
deriving DecidableEq, Repr

/-- `QueryWorker`: the two queues. -/
structure QueryWorker where
  queryQueue : BlockingQueue Execution := {}
  finishedQueries : BlockingQueue Execution := {}

/-- `ActiveQueryState`; connections are numbered in the order `PQconnectdb` returned them. -/
structure ActiveQueryState where
  activeData : Option DataId := none
  activeAliases : List DataId := []
  activeConnection : Option ℕ := none
deriving DecidableEq, Repr

/-- `ConnectionSession`: the connection, whether its `PQstatus` is `CONNECTION_OK`, and the
text of the last failed attempt. -/
structure ConnectionSession where
  connectionHandle : Option ℕ := none
  connectionOk : Bool := false
  connectionError : Text := []

/-- `ConnectionSession::isOpen`. -/
def ConnectionSession.isOpen (s : ConnectionSession) : Bool :=
  s.connectionHandle.isSome && s.connectionOk

/-- `ActiveQueryState::cancel`, its test: `data` is active or a registered alias. -/
def ActiveQueryState.matchesActive (a : ActiveQueryState) (d : DataId) : Bool :=
  decide (a.activeData = some d) || decide (d ∈ a.activeAliases)

lemma ActiveQueryState.matchesActive_iff {a : ActiveQueryState} {d : DataId} :
    a.matchesActive d = true ↔ a.activeData = some d ∨ d ∈ a.activeAliases := by
  simp [matchesActive]

/-- A `PQcancel` call: whose cancellation was requested, the connection whose backend it is
sent to, and what was published as active when it was made. -/
structure CancelCall where
  target : DataId
  connection : ℕ
  published : ActiveQueryState
deriving DecidableEq, Repr

/-- What has happened so far; no access reads it. -/
structure History where
  /-- accepted by `enqueueQuery`, in order -/
  accepted : List Execution := []
  /-- returned by `takeNext` to the worker -/
  taken : List Execution := []
  /-- found not aborted by the locked test of `run` -/
  passed : List Execution := []
  /-- `executeStatement` called, in order -/
  executed : List Execution := []
  /-- `executeStatement` left, in order -/
  executionEnded : List Execution := []
  /-- ended with an error that `runQuery` classified as a user cancellation -/
  cancelled : List Execution := []
  /-- put on `finishedQueries` by the thread that held it -/
  finished : List Execution := []
  /-- put on `finishedQueries` by `completeQueryWithError` -/
  forced : List Execution := []
  /-- returned to the caller in `QueryAbortResult.completed` -/
  returned : List Execution := []
  /-- taken execution marked `QUERY_ABORTED` after reading `QUERY_WAITING` -/
  marked : List Execution := []
  /-- received by `takeFinishedQueries`, with the status it then had -/
  delivered : List (Execution × QueryStatus) := []
  /-- `PQcancel` calls -/
  cancels : List CancelCall := []

/-- An access to the shared state. -/
inductive Access
  /-- a load, or a control step -/
  | read
  /-- `setStatus` -/
  | setStatus (e : Execution) (v : QueryStatus)
  /-- `setResultStatus` -/
  | setResultStatus (e : Execution) (v : QueryResultStatus)
  /-- `setError` -/
  | setError (e : Execution) (text : Text)
  /-- `setFinished(true)` -/
  | setFinished (e : Execution)
  /-- `setCancellationRequested` -/
  | setCancellationRequested (d : DataId) (v : Bool)
  /-- the successful `queryQueue.put` of `enqueue` -/
  | put (e : Execution)
  /-- `queryQueue.take` returning an element -/
  | take (e : Execution)
  /-- `removeQueued` that finds its execution -/
  | removeQueued (e : Execution)
  /-- `queryQueue.clear` -/
  | clearQueue
  /-- `queryQueue.closeAndClear` -/
  | closeAndClear
  /-- `finishedQueries.put` by the thread that holds the execution -/
  | finish (e : Execution)
  /-- `finishedQueries.put` in `completeQueryWithError` -/
  | forceFinish (e : Execution)
  /-- a `QueryAbortResult` is returned to the caller -/
  | returnCompleted (es : List Execution)
  /-- the locked status test of `run` lets the execution through -/
  | pass (e : Execution)
  /-- `setStatus(QUERY_ABORTED)` after `QUERY_WAITING` was read -/
  | markAborted (e : Execution)
  /-- `setStatus(QUERY_ABORTED)` after `runQuery` recognised a user cancellation -/
  | setCancelled (e : Execution)
  /-- `setInFlight` -/
  | setInFlight (e : Execution)
  /-- `clearInFlight` -/
  | clearInFlight (e : Execution)
  /-- the constructor of `ActiveQueryState::Guard` -/
  | enterGuard (e : Execution)
  /-- the destructor of `ActiveQueryState::Guard`, and `ActiveQueryState::clear` -/
  | clearActive
  /-- `addAlias` -/
  | addAlias (d : DataId)
  /-- `removeAlias` -/
  | removeAlias (d : DataId)
  /-- `executeStatement` is called -/
  | execute (e : Execution)
  /-- `executeStatement` returns or throws -/
  | endExecution (e : Execution)
  /-- `PQcancel` -/
  | sendCancel (d : DataId) (connection : ℕ)
  /-- acquire `m_queryMutex` -/
  | lockQuery (t : Thread)
  /-- release `m_queryMutex` -/
  | unlockQuery
  /-- acquire `m_connectMutex` -/
  | lockConnect
  /-- release `m_connectMutex` -/
  | unlockConnect
  /-- store to `m_status` -/
  | setDatabaseStatus (v : DatabaseStatus)
  | setCanWait (v : Bool)
  | setSuccess (v : Bool)
  | setConnectionDone
  | setDisconnected (v : Bool)
  | setShuttingDown
  | setStartedConnecting
  /-- `ConnectionSession::reset`: `PQfinish` -/
  | resetSession
  /-- `ConnectionSession::connect`: `PQconnectdb`, which fails with a text or succeeds -/
  | connectSession (error : Option Text)
  /-- `ReconnectLog::add` -/
  | addReconnect (success : Bool)

/-- What the two threads share. -/
structure Shared where
  data : DataId → IQueryData := fun _ => {}
  worker : QueryWorker := {}
  session : ConnectionSession := {}
  connections : ℕ := 0
  reconnectLog : List (Bool × Text) := []
  activeQuery : ActiveQueryState := {}
  inFlight : Option Execution := none
  queryMutex : Option Thread := none
  connectMutex : Bool := false
  shouldAutoReconnect : Bool := true
  startedConnecting : Bool := false
  canWait : Bool := false
  shuttingDown : Bool := false
  success : Bool := true
  disconnected : Bool := false
  connectionDone : Bool := false
  status : DatabaseStatus := .notConnected
  history : History := {}

namespace Shared

variable (s : Shared)

/-- The executions in `queryQueue`. -/
def queue : List Execution := s.worker.queryQueue.backingQueue

/-- Whether `queryQueue` is closed. -/
def closed : Bool := s.worker.queryQueue.closed

/-- The data of an execution. -/
def own (e : Execution) : IQueryData := s.data (.own e)

/-- The shared state with the data of one object changed. -/
def modifyData (d : DataId) (f : IQueryData → IQueryData) : Shared :=
  { s with data := Function.update s.data d (f (s.data d)) }

/-- The shared state with `queryQueue` replaced. -/
def setQueue (q : BlockingQueue Execution) : Shared :=
  { s with worker := { s.worker with queryQueue := q } }

/-- The shared state with an execution appended to `finishedQueries`. -/
def putFinished (e : Execution) : Shared :=
  { s with worker := { s.worker with finishedQueries := (s.worker.finishedQueries.put e).1 } }

/-- The shared state with the history changed. -/
def record (f : History → History) : Shared := { s with history := f s.history }

/-- The effect of an access. -/
def apply : Access → Shared
  | .read => s
  | .setStatus e v => s.modifyData (.own e) ({ · with status := v })
  | .setResultStatus e v => s.modifyData (.own e) ({ · with resultStatus := v })
  | .setError e text => s.modifyData (.own e) ({ · with errorText := text })
  | .setFinished e => s.modifyData (.own e) ({ · with finished := true })
  | .setCancellationRequested d v => s.modifyData d ({ · with cancellationRequested := v })
  | .put e =>
      (s.setQueue (s.worker.queryQueue.put e).1).record
        fun h => { h with accepted := h.accepted ++ [e] }
  | .take e =>
      (s.setQueue { s.worker.queryQueue with backingQueue := s.queue.tail }).record
        fun h => { h with taken := h.taken ++ [e] }
  | .removeQueued e => s.setQueue (s.worker.queryQueue.removeIf fun x => decide (x = e)).1
  | .clearQueue => s.setQueue s.worker.queryQueue.clear.1
  | .closeAndClear => s.setQueue s.worker.queryQueue.closeAndClear.1
  | .finish e => (s.putFinished e).record fun h => { h with finished := h.finished ++ [e] }
  | .forceFinish e => (s.putFinished e).record fun h => { h with forced := h.forced ++ [e] }
  | .returnCompleted es => s.record fun h => { h with returned := h.returned ++ es }
  | .pass e => s.record fun h => { h with passed := h.passed ++ [e] }
  | .markAborted e =>
      (s.modifyData (.own e) ({ · with status := .aborted })).record fun h =>
        { h with marked := if e ∈ h.taken then h.marked ++ [e] else h.marked }
  | .setCancelled e =>
      (s.modifyData (.own e) ({ · with status := .aborted })).record fun h =>
        { h with cancelled := h.cancelled ++ [e] }
  | .setInFlight e => { s with inFlight := some e }
  | .clearInFlight e => { s with inFlight := if s.inFlight = some e then none else s.inFlight }
  | .enterGuard e =>
      { s with activeQuery := { s.activeQuery with
          activeData := some (.own e)
          activeConnection := s.session.connectionHandle } }
  | .clearActive => { s with activeQuery := {} }
  | .addAlias d =>
      { s with activeQuery := { s.activeQuery with
          activeAliases :=
            if s.activeQuery.activeConnection.isSome then s.activeQuery.activeAliases ++ [d]
            else s.activeQuery.activeAliases } }
  | .removeAlias d =>
      { s with activeQuery := { s.activeQuery with
          activeAliases := s.activeQuery.activeAliases.filter (· ≠ d) } }
  | .execute e => s.record fun h => { h with executed := h.executed ++ [e] }
  | .endExecution e => s.record fun h => { h with executionEnded := h.executionEnded ++ [e] }
  | .sendCancel d connection =>
      s.record fun h => { h with cancels := h.cancels ++ [⟨d, connection, s.activeQuery⟩] }
  | .lockQuery t => { s with queryMutex := some t }
  | .unlockQuery => { s with queryMutex := none }
  | .lockConnect => { s with connectMutex := true }
  | .unlockConnect => { s with connectMutex := false }
  | .setDatabaseStatus v => { s with status := v }
  | .setCanWait v => { s with canWait := v }
  | .setSuccess v => { s with success := v }
  | .setConnectionDone => { s with connectionDone := true }
  | .setDisconnected v => { s with disconnected := v }
  | .setShuttingDown => { s with shuttingDown := true }
  | .setStartedConnecting => { s with startedConnecting := true }
  | .resetSession =>
      { s with session := { s.session with connectionHandle := none, connectionOk := false } }
  | .connectSession none =>
      { s with session := ⟨some s.connections, true, []⟩, connections := s.connections + 1 }
  | .connectSession (some error) => { s with session := ⟨none, false, error⟩ }
  | .addReconnect success =>
      { s with reconnectLog := s.reconnectLog ++
          [(success, if success then [] else s.session.connectionError)] }

/-! ### What an access leaves unchanged -/

variable {s} {a : Access}

@[simp, grind =] lemma own_modifyData (d : DataId) (f : IQueryData → IQueryData) (e : Execution) :
    (s.modifyData d f).own e = if d = .own e then f (s.own e) else s.own e := by
  by_cases h : d = .own e
  · subst h
    simp [modifyData, own]
  · simp [modifyData, own, h, Function.update_of_ne (Ne.symm h)]

@[simp, grind =] lemma own_record (f : History → History) (e : Execution) :
    (s.record f).own e = s.own e := rfl

@[simp, grind =] lemma own_setQueue (q : BlockingQueue Execution) (e : Execution) :
    (s.setQueue q).own e = s.own e := rfl

@[simp, grind =] lemma own_putFinished (x e : Execution) : (s.putFinished x).own e = s.own e := rfl

/-- Nothing makes finished data unfinished. -/
lemma apply_finished_mono {e : Execution} (h : (s.own e).finished = true) :
    ((s.apply a).own e).finished = true := by
  cases a with
  | connectSession error => cases error <;> exact h
  | setStatus | setResultStatus | setError | setFinished | setCancellationRequested
  | markAborted | setCancelled => grind [apply]
  | _ => exact h

end Shared

end GmsvPg.Database
