/-
# The main thread

The control flow of the `Database` operations that the Lua thread calls: `enqueueQuery`,
`abortQuery`, `abortAllQueries`, `cancelRunningQuery`, `waitForQuery`, `shutdown` (with the
`join` that `disconnect(true)` and the destructor add), `ping` and `connect`.  As for the
worker, a point stands between two accesses to shared memory.  The operations that are a
single mutex section are steps of their own, in the file that puts the threads together.
-/
import GmsvPg.Database.Worker

namespace GmsvPg.Database

/-- The points of `Database::enqueueQuery`, with `QueryWorker::enqueue`. -/
inductive EnqueueStage
  | testShuttingDown
  | testClosed
  | storeWaiting
  | put
  | storeAborted
  | setFinished
deriving DecidableEq, Repr

/-- The points of `Database::abortQuery`. -/
inductive AbortStage
  | removeQueued
  | storeRemoved
  | setFinished
  | returnRemoved
  | testWaiting
  | storeAborted
  | testRunning
deriving DecidableEq, Repr

/-- The points of `ActiveQueryState::cancel`.  The first is the mutex section; the handle
of the connection is what `PQgetCancel` was given. -/
inductive CancelStage
  | lookup
  | send (connection : ℕ)
  | clearRequest
deriving DecidableEq, Repr

/-- What a bulk abort has collected: the result `abortAllQueries` will return, and the data of
every execution it removed from the queue, marked, or requested cancellation of. -/
structure BulkResult where
  requestedCount : ℕ := 0
  completed : List Execution := []
  affected : List DataId := []
deriving DecidableEq, Repr

/-- One more abort requested. -/
def BulkResult.request (g : BulkResult) (d : DataId) : BulkResult :=
  { g with requestedCount := g.requestedCount + 1, affected := g.affected ++ [d] }

/-- One more queued execution completed. -/
def BulkResult.complete (g : BulkResult) (e : Execution) : BulkResult :=
  { g.request (.own e) with completed := g.completed ++ [e] }

/-- The points of `Database::abortAllQueries`, with `QueryWorker::abortQueued`. -/
inductive AbortAllStage
  | clearQueue
  | storeRemoved (e : Execution) (rest : List Execution)
  | setFinished (e : Execution) (rest : List Execution)
  | readInFlight
  | testInFlight (e : Execution)
  | storeInFlight (e : Execution)
  | readActive
  | returnResult
deriving DecidableEq, Repr

/-- The points of `Database::shutdown`, with `QueryWorker::abortQueuedAndClose`. -/
inductive ShutdownStage
  | exchange
  | storeStatus
  | readActive
  | readInFlight
  | testInFlight (e : Execution)
  | storeInFlight (e : Execution)
  | closeAndClear
  /-- in the loop of `abortQueuedAndClose`: the execution at hand, the rest, and `completed` -/
  | storeRemoved (e : Execution) (rest completed : List Execution)
  | setFinished (e : Execution) (rest completed : List Execution)
  | finish (todo : List Execution)
  | returnResult
deriving DecidableEq, Repr

/-- The points of `Database::waitForQuery`, with `completeQueuedWithError` and
`completeQueryWithError`. -/
inductive WaitStage
  | testFinished
  | testCanWait
  | testWaiting
  | removeQueued
  | complete (stage : CompleteStage)
  | testFinishedAgain
  | forceError
  | forceResultStatus
  | forceStatus
  | forceFinished
  | forcePut
  | block
deriving DecidableEq, Repr

/-- The points of `Database::ping`. -/
inductive PingStage
  | lockQuery
  | ping
  | testStatus
  | storeNotConnected
  | testAutoReconnect
  | reconnect (r : ReconnectStage)
  | unlockQuery
deriving DecidableEq, Repr

/-- The points of `Database::connect`. -/
inductive ConnectCallStage
  | testStatus
  | exchange
  | storeCanWait
  | storeConnecting
  | spawn
deriving DecidableEq, Repr

/-- The callers of `cancelRunningQuery`. -/
inductive CancelCaller
  | abortQuery
  | abortAll (g : BulkResult)
  | shutdown (join : Bool) (g : BulkResult)
deriving DecidableEq, Repr

/-- Where the main thread stands. -/
inductive MainPC
  | idle
  | enqueue (e : Execution) (stage : EnqueueStage)
  | abort (e : Execution) (stage : AbortStage)
  | cancel (d : DataId) (stage : CancelStage) (caller : CancelCaller)
  | abortAll (stage : AbortAllStage) (g : BulkResult)
  | shutdown (stage : ShutdownStage) (join : Bool) (g : BulkResult)
  | waiting (e : Execution) (stage : WaitStage)
  | ping (stage : PingStage)
  | connect (stage : ConnectCallStage)
  | joining
deriving DecidableEq, Repr

/-- `enqueueQuery` for the execution `e`. -/
def EnqueueStage.next (s : Shared) (e : Execution) : EnqueueStage → Access × MainPC
  | .testShuttingDown =>
      (.read, .enqueue e (if s.shuttingDown then .storeAborted else .testClosed))
  | .testClosed => (.read, .enqueue e (if s.closed then .storeAborted else .storeWaiting))
  | .storeWaiting => (.setStatus e .waiting, .enqueue e .put)
  | .put => if s.closed then (.read, .enqueue e .storeAborted) else (.put e, .idle)
  | .storeAborted => (.setStatus e .aborted, .enqueue e .setFinished)
  | .setFinished => (.setFinished e, .idle)

/-- `abortQuery` for the execution `e`. -/
def AbortStage.next (s : Shared) (e : Execution) : AbortStage → Access × MainPC
  | .removeQueued =>
      if e ∈ s.queue then (.removeQueued e, .abort e .storeRemoved)
      else (.read, .abort e .testWaiting)
  | .storeRemoved => (.setStatus e .aborted, .abort e .setFinished)
  | .setFinished => (.setFinished e, .abort e .returnRemoved)
  | .returnRemoved => (.returnCompleted [e], .idle)
  | .testWaiting =>
      (.read, .abort e (if (s.own e).status = .waiting then .storeAborted else .testRunning))
  | .storeAborted => (.markAborted e, .idle)
  | .testRunning =>
      (.read, if (s.own e).status = .running then .cancel (.own e) .lookup .abortQuery else .idle)

/-- Where `cancelRunningQuery` returns to. -/
def CancelCaller.resume (d : DataId) (requested : Bool) : CancelCaller → MainPC
  | .abortQuery => .idle
  | .abortAll g => .abortAll .returnResult (if requested then g.request d else g)
  | .shutdown join g => .shutdown .readInFlight join (if requested then g.request d else g)

/-- `ActiveQueryState::cancel` for the data `d`. -/
def CancelStage.next (s : Shared) (c : Choice) (d : DataId) (caller : CancelCaller) :
    CancelStage → Option (Access × MainPC)
  | .lookup =>
      if s.activeQuery.matchesActive d then
        match s.activeQuery.activeConnection, c with
        | some connection, .gotCancel true =>
            some (.setCancellationRequested d true, .cancel d (.send connection) caller)
        | some _, .gotCancel false =>
            some (.setCancellationRequested d false, caller.resume d false)
        | some _, _ => none
        | none, _ => some (.read, caller.resume d false)
      else some (.read, caller.resume d false)
  | .send connection =>
      match c with
      | .cancelSent true => some (.sendCancel d connection, caller.resume d true)
      | .cancelSent false => some (.sendCancel d connection, .cancel d .clearRequest caller)
      | _ => none
  | .clearRequest => some (.setCancellationRequested d false, caller.resume d false)

/-- Continue the loop of `abortQueued` with the next execution, or leave it. -/
def AbortAllStage.nextQueued : List Execution → AbortAllStage
  | [] => .readInFlight
  | e :: rest => .storeRemoved e rest

/-- `abortAllQueries`. -/
def AbortAllStage.next (s : Shared) (g : BulkResult) : AbortAllStage → Access × MainPC
  | .clearQueue => (.clearQueue, .abortAll (AbortAllStage.nextQueued s.queue) g)
  | .storeRemoved e rest => (.setStatus e .aborted, .abortAll (.setFinished e rest) g)
  | .setFinished e rest =>
      (.setFinished e, .abortAll (AbortAllStage.nextQueued rest) (g.complete e))
  | .readInFlight =>
      match s.inFlight with
      | some e => (.read, .abortAll (.testInFlight e) g)
      | none => (.read, .abortAll .readActive g)
  | .testInFlight e =>
      (.read, .abortAll
        (if (s.own e).status = .waiting then .storeInFlight e else .readActive) g)
  | .storeInFlight e => (.markAborted e, .abortAll .readActive (g.request (.own e)))
  | .readActive =>
      match s.activeQuery.activeData with
      | some d => (.read, .cancel d .lookup (.abortAll g))
      | none => (.read, .abortAll .returnResult g)
  | .returnResult => (.returnCompleted g.completed, .idle)

/-- Continue the loop of `abortQueuedAndClose` with the next execution, or go on to hand over
those in `completed`. -/
def ShutdownStage.nextQueued (completed : List Execution) : List Execution → ShutdownStage
  | [] => .finish completed
  | e :: rest => .storeRemoved e rest completed

/-- `shutdown`; `join` tells whether its caller joins the worker thread afterwards. -/
def ShutdownStage.next (s : Shared) (join : Bool) (g : BulkResult) :
    ShutdownStage → Access × MainPC
  | .exchange =>
      if s.shuttingDown then (.read, .shutdown .returnResult join g)
      else (.setShuttingDown, .shutdown .storeStatus join g)
  | .storeStatus => (.setDatabaseStatus .notConnected, .shutdown .readActive join g)
  | .readActive =>
      match s.activeQuery.activeData with
      | some d => (.read, .cancel d .lookup (.shutdown join g))
      | none => (.read, .shutdown .readInFlight join g)
  | .readInFlight =>
      match s.inFlight with
      | some e => (.read, .shutdown (.testInFlight e) join g)
      | none => (.read, .shutdown .closeAndClear join g)
  | .testInFlight e =>
      (.read, .shutdown
        (if (s.own e).status = .waiting then .storeInFlight e else .closeAndClear) join g)
  | .storeInFlight e => (.markAborted e, .shutdown .closeAndClear join (g.request (.own e)))
  | .closeAndClear => (.closeAndClear, .shutdown (ShutdownStage.nextQueued [] s.queue) join g)
  | .storeRemoved e rest completed =>
      (.setStatus e .aborted, .shutdown (.setFinished e rest completed) join g)
  | .setFinished e rest completed =>
      (.setFinished e,
        .shutdown (ShutdownStage.nextQueued (completed ++ [e]) rest) join (g.request (.own e)))
  | .finish todo =>
      match todo with
      | [] => (.read, .shutdown .returnResult join g)
      | e :: rest => (.finish e, .shutdown (.finish rest) join g)
  | .returnResult => (.read, if join then .joining else .idle)

/-- The reason `waitForQuery` completes an execution with. -/
def cannotWaitReason : Text :=
  "Can not wait on query, database is not connected or connection failed.".toList

/-- `waitForQuery` for the execution `e`. -/
def WaitStage.next (s : Shared) (e : Execution) : WaitStage → Option (Access × MainPC)
  | .testFinished =>
      some (.read, if (s.own e).finished then .idle else .waiting e .testCanWait)
  | .testCanWait => some (.read, .waiting e (if s.canWait then .block else .testWaiting))
  | .testWaiting =>
      some (.read, .waiting e
        (if (s.own e).status = .waiting then .removeQueued else .testFinishedAgain))
  | .removeQueued =>
      if e ∈ s.queue then some (.removeQueued e, .waiting e (.complete .setError))
      else some (.read, .waiting e .testFinishedAgain)
  | .complete stage =>
      match stage.next e cannotWaitReason with
      | (a, some stage') => some (a, .waiting e (.complete stage'))
      | (a, none) => some (a, .idle)
  | .testFinishedAgain =>
      some (.read, if (s.own e).finished then .idle else .waiting e .forceError)
  | .forceError => some (.setError e cannotWaitReason, .waiting e .forceResultStatus)
  | .forceResultStatus => some (.setResultStatus e .error, .waiting e .forceStatus)
  | .forceStatus => some (.setStatus e .complete, .waiting e .forceFinished)
  | .forceFinished => some (.setFinished e, .waiting e .forcePut)
  | .forcePut => some (.forceFinish e, .idle)
  | .block => if (s.own e).finished then some (.read, .idle) else none

/-- `ping`. -/
def PingStage.next (s : Shared) (c : Choice) : PingStage → Option (Access × MainPC)
  | .lockQuery =>
      if s.queryMutex = none then some (.lockQuery .main, .ping .ping) else none
  | .ping =>
      if s.session.isOpen then
        match c with
        | .pinged true => some (.read, .ping .unlockQuery)
        | .pinged false => some (.read, .ping .testStatus)
        | _ => none
      else some (.read, .ping .testStatus)
  | .testStatus =>
      some (.read, .ping (if s.status = .connected then .storeNotConnected else .unlockQuery))
  | .storeNotConnected => some (.setDatabaseStatus .notConnected, .ping .testAutoReconnect)
  | .testAutoReconnect =>
      some (.read, .ping
        (if s.shouldAutoReconnect then .reconnect .testShuttingDown else .unlockQuery))
  | .reconnect r =>
      match r.next s c with
      | some (a, .inl r') => some (a, .ping (.reconnect r'))
      | some (a, .inr _) => some (a, .ping .unlockQuery)
      | none => none
  | .unlockQuery => some (.unlockQuery, .idle)

/-- `connect`, except that the last step also starts the worker thread. -/
def ConnectCallStage.next (s : Shared) : ConnectCallStage → Access × MainPC
  | .testStatus =>
      (.read, if s.status = .notConnected then .connect .exchange else .idle)
  | .exchange =>
      if s.startedConnecting then (.read, .idle) else (.setStartedConnecting, .connect .storeCanWait)
  | .storeCanWait => (.setCanWait true, .connect .storeConnecting)
  | .storeConnecting => (.setDatabaseStatus .connecting, .connect .spawn)
  | .spawn => (.read, .idle)

/-- The next access of the main thread inside an operation, and where it then stands.  The
end of `joining` depends on the worker thread and is not decided here. -/
def MainPC.next (s : Shared) (c : Choice) : MainPC → Option (Access × MainPC)
  | .idle => none
  | .enqueue e stage => some (stage.next s e)
  | .abort e stage => some (stage.next s e)
  | .cancel d stage caller => stage.next s c d caller
  | .abortAll stage g => some (stage.next s g)
  | .shutdown stage join g => some (stage.next s join g)
  | .waiting e stage => stage.next s e
  | .ping stage => stage.next s c
  | .connect stage => some (stage.next s)
  | .joining => none

/-! ### Where a point of the main thread is reached from -/

/-- The points from which a point is reached in one step, as far as the operation goes: an
operation is not left before the main thread is idle or joins the worker thread, except for
`cancelRunningQuery`, which returns to its caller. -/
def MainPC.Source (pc : MainPC) : MainPC → Prop
  | .idle | .joining => True
  | .enqueue e _ => ∃ stage, pc = .enqueue e stage
  | .abort e _ => ∃ stage, pc = .abort e stage
  | .cancel d stage caller =>
      (∃ stage', pc = .cancel d stage' caller) ∨
        stage = .lookup ∧
          ((∃ e, caller = .abortQuery ∧ d = .own e ∧ pc = .abort e .testRunning) ∨
            (∃ g, caller = .abortAll g ∧ pc = .abortAll .readActive g) ∨
            ∃ join g, caller = .shutdown join g ∧ pc = .shutdown .readActive join g)
  | .abortAll _ _ =>
      (∃ stage g, pc = .abortAll stage g) ∨ ∃ d stage g, pc = .cancel d stage (.abortAll g)
  | .shutdown _ join _ =>
      (∃ stage g, pc = .shutdown stage join g) ∨
        ∃ d stage g, pc = .cancel d stage (.shutdown join g)
  | .waiting e _ => ∃ stage, pc = .waiting e stage
  | .ping _ => ∃ stage, pc = .ping stage
  | .connect _ => ∃ stage, pc = .connect stage

lemma CancelCaller.resume_source (d : DataId) (stage : CancelStage) (requested : Bool)
    (caller : CancelCaller) :
    (MainPC.cancel d stage caller).Source (caller.resume d requested) := by
  cases caller with
  | abortQuery => trivial
  | abortAll g => exact .inr ⟨d, stage, g, rfl⟩
  | shutdown join g => exact .inr ⟨d, stage, g, rfl⟩

lemma MainPC.next_source {s : Shared} {c : Choice} {pc pc' : MainPC} {a : Access}
    (h : pc.next s c = some (a, pc')) : pc.Source pc' := by
  cases pc with
  | enqueue e stage =>
      cases stage <;> simp only [MainPC.next, EnqueueStage.next] at h
      all_goals grind [Source]
  | abort e stage =>
      cases stage <;> simp only [MainPC.next, AbortStage.next] at h
      all_goals repeat' split at h
      all_goals grind [Source]
  | cancel d stage caller =>
      cases stage <;> simp only [MainPC.next, CancelStage.next] at h
      all_goals repeat' split at h
      all_goals grind [Source, CancelCaller.resume_source]
  | abortAll stage g =>
      cases stage <;> simp only [MainPC.next, AbortAllStage.next] at h
      all_goals repeat' split at h
      all_goals grind [Source]
  | shutdown stage join g =>
      cases stage <;> simp only [MainPC.next, ShutdownStage.next] at h
      all_goals repeat' split at h
      all_goals grind [Source]
  | waiting e stage =>
      cases stage <;> simp only [MainPC.next, WaitStage.next] at h
      all_goals grind [Source]
  | ping stage =>
      cases stage <;> simp only [MainPC.next, PingStage.next] at h
      all_goals grind [Source]
  | connect stage =>
      cases stage <;> simp only [MainPC.next, ConnectCallStage.next] at h
      all_goals repeat' split at h
      all_goals grind [Source]
  | idle | joining => exact absurd h (by simp [MainPC.next])

end GmsvPg.Database
