/-
# The worker thread

The control flow of `Database::connectRun`, `Database::run`, `Database::runQuery` and
`Database::attemptReconnect`: for each point between two accesses to shared memory, the
access the thread makes next and the point it then stands at.  `executeStatement` is the
one call that is not followed statement by statement here: it registers the children of a
transaction as aliases, one after the other, and then returns or throws, whatever the
server did.  What it does to the data of a transaction and of its children is the subject
of the files on `Transaction`.
-/
import GmsvPg.Database.State

namespace GmsvPg.Database

/-- What the environment decides at a step. -/
inductive Choice
  /-- nothing is to be decided -/
  | go
  /-- `PQconnectdb` fails with a text, or succeeds -/
  | connected (error : Option Text)
  /-- `executeStatement` goes on with its children -/
  | nextChild
  /-- `executeStatement` throws, or returns -/
  | left (thrown : Option PGException)
  /-- `PQgetCancel` returns an object, or null -/
  | gotCancel (ok : Bool)
  /-- `PQcancel` reports success, or failure -/
  | cancelSent (ok : Bool)
  /-- `SELECT 1` succeeds, or fails -/
  | pinged (ok : Bool)
deriving DecidableEq, Repr

/-- The points of `Database::attemptReconnect`.  Both callers hold `m_queryMutex`, which is
recursive, so its acquisition is not a step. -/
inductive ReconnectStage
  | testShuttingDown
  | clearActive
  | storeNotConnected
  | resetSession
  | attemptConnection
  | storeStatus (success : Bool)
  | logEvent (success : Bool)
deriving DecidableEq, Repr

/-- The next access of `attemptReconnect`, and where it leads: a further point, or the
return value. -/
def ReconnectStage.next (s : Shared) (c : Choice) :
    ReconnectStage → Option (Access × (ReconnectStage ⊕ Bool))
  | .testShuttingDown =>
      if s.shuttingDown then some (.read, .inr false) else some (.read, .inl .clearActive)
  | .clearActive => some (.clearActive, .inl .storeNotConnected)
  | .storeNotConnected => some (.setDatabaseStatus .notConnected, .inl .resetSession)
  | .resetSession => some (.resetSession, .inl .attemptConnection)
  | .attemptConnection =>
      match c with
      | .connected error => some (.connectSession error, .inl (.storeStatus error.isNone))
      | _ => none
  | .storeStatus success =>
      some (.setDatabaseStatus (if success then .connected else .connectionFailed),
        .inl (.logEvent success))
  | .logEvent success => some (.addReconnect success, .inr success)

/-- `attemptReconnect` touches the connection and what is published about it, and nothing
that belongs to an execution. -/
lemma ReconnectStage.next_access {s : Shared} {c : Choice} {r : ReconnectStage} {a : Access}
    {z : ReconnectStage ⊕ Bool} (h : r.next s c = some (a, z)) :
    a = .read ∨ a = .clearActive ∨ (∃ v, a = .setDatabaseStatus v) ∨ a = .resetSession ∨
      (∃ error, a = .connectSession error) ∨ ∃ success, a = .addReconnect success := by
  cases r <;> simp only [ReconnectStage.next] at h
  all_goals grind

/-- The points of the code that completes an execution with an error, in
`completeQueuedWithError` and `completeQueuedWithErrorAndClose`. -/
inductive CompleteStage
  | setError
  | setResultStatus
  | setStatus
  | put
  | setFinished
deriving DecidableEq, Repr

/-- The next access of that code, and where it leads. -/
def CompleteStage.next (e : Execution) (reason : Text) :
    CompleteStage → Access × Option CompleteStage
  | .setError => (.setError e reason, some .setResultStatus)
  | .setResultStatus => (.setResultStatus e .error, some .setStatus)
  | .setStatus => (.setStatus e .complete, some .put)
  | .put => (.finish e, some .setFinished)
  | .setFinished => (.setFinished e, none)

/-- The points of the body of the loop of `Database::run` with `Database::runQuery`, for one
execution taken from the queue. -/
inductive RunStage
  | setInFlight
  /-- `getStatus() == QUERY_ABORTED`, before the lock -/
  | testStatus
  /-- the three statements of the two branches for an aborted execution; `locked` tells
  whether `m_queryMutex` is held -/
  | finishAborted (locked : Bool)
  | setFinishedAborted (locked : Bool)
  | clearInFlightAborted (locked : Bool)
  | unlockAborted
  | lockQuery
  | testShuttingDown
  | testStatusLocked
  | storeAborted
  | storeRunning
  | testOpen
  | testAutoReconnect
  | reconnectFirst (r : ReconnectStage)
  | enterGuard
  | execute
  /-- inside `executeStatement`: the children still to come, and the one registered -/
  | executing (todo : List ℕ) (current : Option ℕ)
  | clearCancellation
  | storeSuccess
  /-- the destructor of the guard, on return or while an exception is thrown -/
  | leaveGuard (thrown : Option PGException)
  /-- `isCancellationRequested() && isUserCancellationError(error)` -/
  | testCancellation (error : PGException)
  | storeCancelled
  | storeResultNone
  | clearCancellationThrown (error : PGException)
  | testRetry (error : PGException)
  | reconnectAgain (error : PGException) (r : ReconnectStage)
  | storeError (error : PGException)
  | testErrorText (error : PGException)
  | setErrorText (error : PGException)
  /-- `getStatus() != QUERY_ABORTED`, after `runQuery` -/
  | testAborted
  | storeComplete
  | unlock
  | finish
  | setFinished
  | clearInFlight
deriving DecidableEq, Repr

/-- The points of `Database::connectRun` up to the call of `run`, in the order of the
source; the two notifications of `m_connectWakeupVariable` are not steps. -/
inductive ConnectStage
  | lockConnect
  | attemptConnection
  | failSuccess
  | failDone
  | failStatus
  | failDisconnected
  | failCanWait
  | failClose
  /-- completing the queued executions with an error: the one at hand, and the rest -/
  | drain (e : Execution) (stage : CompleteStage) (rest : List Execution) (reason : Text)
  | failReturn
  | storeSuccess
  | storeDone
  | storeConnected
  | unlockConnect
deriving DecidableEq, Repr

/-- The points of `Database::connectRun` after `run` has returned. -/
inductive LeaveStage
  | resetSession
  | storeCanWait
  | storeDisconnected
  | testStatus
  | storeNotConnected
deriving DecidableEq, Repr

/-- Where the worker thread stands. -/
inductive WorkerPC
  | notStarted
  | connecting (c : ConnectStage)
  | taking
  | running (e : Execution) (r : RunStage)
  | leaving (l : LeaveStage)
  | ended
deriving DecidableEq, Repr

/-- The reason `connectRun` completes the queued executions with. -/
def connectFailureReason (s : Shared) : Text :=
  if s.session.connectionError = [] then "Connection to database failed".toList
  else s.session.connectionError

/-- Continue `drain` with the next execution, or leave the loop. -/
def ConnectStage.drainNext (reason : Text) : List Execution → ConnectStage
  | [] => .failReturn
  | e :: rest => .drain e .setError rest reason

/-- The worker in `connectRun`, before `run`. -/
def ConnectStage.next (s : Shared) (c : Choice) : ConnectStage → Option (Access × WorkerPC)
  | .lockConnect =>
      if s.connectMutex then none else some (.lockConnect, .connecting .attemptConnection)
  | .attemptConnection =>
      -- `attemptConnection` takes `m_queryMutex` for the duration of the call
      match c, s.queryMutex with
      | .connected none, none => some (.connectSession none, .connecting .storeSuccess)
      | .connected (some error), none =>
          some (.connectSession (some error), .connecting .failSuccess)
      | _, _ => none
  | .failSuccess => some (.setSuccess false, .connecting .failDone)
  | .failDone => some (.setConnectionDone, .connecting .failStatus)
  | .failStatus => some (.setDatabaseStatus .connectionFailed, .connecting .failDisconnected)
  | .failDisconnected => some (.setDisconnected false, .connecting .failCanWait)
  | .failCanWait => some (.setCanWait false, .connecting .failClose)
  | .failClose =>
      some (.closeAndClear,
        .connecting (ConnectStage.drainNext (connectFailureReason s) s.queue))
  | .drain e stage rest reason =>
      match stage.next e reason with
      | (a, some stage') => some (a, .connecting (.drain e stage' rest reason))
      | (a, none) => some (a, .connecting (ConnectStage.drainNext reason rest))
  | .failReturn => some (.unlockConnect, .ended)
  | .storeSuccess => some (.setSuccess true, .connecting .storeDone)
  | .storeDone => some (.setConnectionDone, .connecting .storeConnected)
  | .storeConnected => some (.setDatabaseStatus .connected, .connecting .unlockConnect)
  | .unlockConnect => some (.unlockConnect, .taking)

/-- The worker in the body of the loop of `run`, and in `runQuery`, for the execution `e`. -/
def RunStage.next (s : Shared) (c : Choice) (e : Execution) :
    RunStage → Option (Access × WorkerPC)
  | .setInFlight => some (.setInFlight e, .running e .testStatus)
  | .testStatus =>
      if (s.own e).status = .aborted then some (.read, .running e (.finishAborted false))
      else some (.read, .running e .lockQuery)
  | .finishAborted locked => some (.finish e, .running e (.setFinishedAborted locked))
  | .setFinishedAborted locked => some (.setFinished e, .running e (.clearInFlightAborted locked))
  | .clearInFlightAborted locked =>
      some (.clearInFlight e, if locked then .running e .unlockAborted else .taking)
  | .unlockAborted => some (.unlockQuery, .taking)
  | .lockQuery =>
      if s.queryMutex = none then some (.lockQuery .worker, .running e .testShuttingDown)
      else none
  | .testShuttingDown =>
      if s.shuttingDown then some (.read, .running e .storeAborted)
      else some (.read, .running e .testStatusLocked)
  | .testStatusLocked =>
      if (s.own e).status = .aborted then some (.read, .running e .storeAborted)
      else some (.pass e, .running e .storeRunning)
  | .storeAborted => some (.setStatus e .aborted, .running e (.finishAborted true))
  | .storeRunning => some (.setStatus e .running, .running e .testOpen)
  | .testOpen =>
      if s.session.isOpen then some (.read, .running e .enterGuard)
      else some (.read, .running e .testAutoReconnect)
  | .testAutoReconnect =>
      if s.shouldAutoReconnect then
        some (.read, .running e (.reconnectFirst .testShuttingDown))
      else
        some (.read, .running e
          (.testCancellation (PGConnectionException s.session.connectionError)))
  | .reconnectFirst r =>
      match r.next s c with
      | some (a, .inl r') => some (a, .running e (.reconnectFirst r'))
      | some (a, .inr true) => some (a, .running e .enterGuard)
      | some (a, .inr false) =>
          some (a, .running e
            (.testCancellation (PGConnectionException s.session.connectionError)))
      | none => none
  | .enterGuard => some (.enterGuard e, .running e .execute)
  | .execute => some (.execute e, .running e (.executing (List.range e.children) none))
  | .executing todo current =>
      match c, todo, current with
      | .nextChild, i :: rest, none =>
          some (.addAlias (.child e i), .running e (.executing rest (some i)))
      | .nextChild, _, some i =>
          some (.removeAlias (.child e i), .running e (.executing todo none))
      | .left none, [], none => some (.endExecution e, .running e .clearCancellation)
      | .left (some error), _, none =>
          some (.endExecution e, .running e (.leaveGuard (some error)))
      | _, _, _ => none
  | .clearCancellation =>
      some (.setCancellationRequested (.own e) false, .running e .storeSuccess)
  | .storeSuccess => some (.setResultStatus e .success, .running e (.leaveGuard none))
  | .leaveGuard none => some (.clearActive, .running e .testAborted)
  | .leaveGuard (some error) =>
      some (.clearActive, .running e
        (if error.cls = .other then .clearCancellationThrown error else .testCancellation error))
  | .testCancellation error =>
      if (s.own e).cancellationRequested && isUserCancellationError error then
        some (.read, .running e .storeCancelled)
      else some (.read, .running e (.clearCancellationThrown error))
  | .storeCancelled => some (.setCancelled e, .running e .storeResultNone)
  | .storeResultNone => some (.setResultStatus e .none, .running e .testAborted)
  | .clearCancellationThrown error =>
      some (.setCancellationRequested (.own e) false, .running e
        (if error.cls = .connection then .testRetry error else .storeError error))
  | .testRetry error =>
      if s.shouldAutoReconnect && isRetriableError error then
        some (.read, .running e (.reconnectAgain error .testShuttingDown))
      else some (.read, .running e (.storeError error))
  | .reconnectAgain error r =>
      match r.next s c with
      | some (a, .inl r') => some (a, .running e (.reconnectAgain error r'))
      | some (a, .inr _) => some (a, .running e (.storeError error))
      | none => none
  | .storeError error => some (.setResultStatus e .error, .running e (.testErrorText error))
  | .testErrorText error =>
      if (s.own e).errorText = [] then some (.read, .running e (.setErrorText error))
      else some (.read, .running e .testAborted)
  | .setErrorText error => some (.setError e error.message, .running e .testAborted)
  | .testAborted =>
      if (s.own e).status = .aborted then some (.read, .running e .unlock)
      else some (.read, .running e .storeComplete)
  | .storeComplete => some (.setStatus e .complete, .running e .unlock)
  | .unlock => some (.unlockQuery, .running e .finish)
  | .finish => some (.finish e, .running e .setFinished)
  | .setFinished => some (.setFinished e, .running e .clearInFlight)
  | .clearInFlight => some (.clearInFlight e, .taking)

/-- The worker in `connectRun`, after `run`. -/
def LeaveStage.next (s : Shared) : LeaveStage → Option (Access × WorkerPC)
  | .resetSession =>
      if s.queryMutex = none then some (.resetSession, .leaving .storeCanWait) else none
  | .storeCanWait => some (.setCanWait false, .leaving .storeDisconnected)
  | .storeDisconnected => some (.setDisconnected true, .leaving .testStatus)
  | .testStatus =>
      if s.status = .connected then some (.read, .leaving .storeNotConnected)
      else some (.read, .ended)
  | .storeNotConnected => some (.setDatabaseStatus .notConnected, .ended)

/-- The next access of the worker thread, and where it then stands. -/
def WorkerPC.next (s : Shared) (c : Choice) : WorkerPC → Option (Access × WorkerPC)
  | .notStarted => none
  | .connecting stage => stage.next s c
  | .taking =>
      match s.queue with
      | [] => if s.closed then some (.read, .leaving .resetSession) else none
      | e :: _ => some (.take e, .running e .setInFlight)
  | .running e stage => stage.next s c e
  | .leaving stage => stage.next s
  | .ended => none

/-- In its turn, an execution stays with the worker thread until the thread goes back to the
queue. -/
lemma RunStage.next_pc {s : Shared} {c : Choice} {e : Execution} {r : RunStage} {a : Access}
    {pc : WorkerPC} (h : r.next s c e = some (a, pc)) :
    pc = .taking ∨ ∃ r', pc = .running e r' := by
  cases r <;> simp only [RunStage.next] at h
  all_goals repeat' split at h
  all_goals grind

end GmsvPg.Database
