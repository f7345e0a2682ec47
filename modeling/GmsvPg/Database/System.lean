/-
# The two threads together

A state of the system is the shared memory with the points at which the two threads stand,
and the number of executions built so far.  A step is one access of one of the threads, the
begin of an operation by an idle main thread, or the loss of the connection.  Every
interleaving of the two threads is a list of steps.
-/
import GmsvPg.Library.Machine
import GmsvPg.Database.MainThread

namespace GmsvPg.Database

open Library

/-- A state of the system. -/
structure State extends Shared where
  started : ℕ := 0
  workerPC : WorkerPC := .notStarted
  mainPC : MainPC := .idle

/-- The operations an idle main thread can begin. -/
inductive Call
  /-- `start()` of a query, or of a transaction with staged children -/
  | start (query children : ℕ)
  /-- `abortQuery` -/
  | abort (e : Execution)
  /-- `abortAllQueries` -/
  | abortAll
  /-- `cancelRunningQuery`, which `abortQuery` reaches for the data of a running child -/
  | cancel (d : DataId)
  /-- `disconnect(wait)` -/
  | disconnect (wait : Bool)
  /-- the destructor -/
  | destroy
  /-- `waitForQuery` -/
  | waitForQuery (e : Execution)
  /-- `swapQueryToFront` -/
  | swapToFront (e : Execution)
  /-- `takeFinishedQueries` -/
  | takeFinished
  /-- `takeReconnectEvents` -/
  | takeReconnectEvents
  /-- `ping` -/
  | ping
  /-- `connect` -/
  | connect
  /-- `wait`, once the initial attempt is done -/
  | wait
  /-- `setAutoReconnect` -/
  | setAutoReconnect (enabled : Bool)
deriving DecidableEq, Repr

/-- A step of the system. -/
inductive Action
  | worker (c : Choice)
  | main (c : Choice)
  | call (m : Call)
  | connectionLost
deriving DecidableEq, Repr

namespace State

variable (s : State)

/-- The state after an access by the worker thread. -/
def stepWorker (a : Access) (pc : WorkerPC) : State :=
  { s with toShared := s.toShared.apply a, workerPC := pc }

/-- The state after an access by the main thread. -/
def stepMain (a : Access) (pc : MainPC) : State :=
  { s with toShared := s.toShared.apply a, mainPC := pc }

/-- The execution that `start` builds next. -/
def newExecution (query children : ℕ) : Execution := ⟨query, s.started, children⟩

/-- Everything on `finishedQueries` goes to the caller, with the status it now has. -/
def takeFinished : State :=
  { s with
    worker := { s.worker with finishedQueries := s.worker.finishedQueries.clear.1 }
    history := { s.history with
      delivered := s.history.delivered ++
        s.worker.finishedQueries.backingQueue.map fun e => (e, (s.own e).status) } }

/-- The data object has been built. -/
def built (e : Execution) : Prop := e.data < s.started

instance (e : Execution) : Decidable (s.built e) := inferInstanceAs (Decidable (_ < _))

/-- The begin of an operation on the execution `e`, which must have been built. -/
def callOn (e : Execution) (t : State) : Option State := if s.built e then some t else none

/-- The begin of an operation, or the whole of one that is a single mutex section. -/
def call : Call → Option State
  | .start query children =>
      some { s with
        started := s.started + 1
        mainPC := .enqueue (s.newExecution query children) .testShuttingDown }
  | .abort e => s.callOn e { s with mainPC := .abort e .removeQueued }
  | .abortAll => some { s with mainPC := .abortAll .clearQueue {} }
  | .cancel d => s.callOn d.execution { s with mainPC := .cancel d .lookup .abortQuery }
  | .disconnect wait =>
      if s.startedConnecting then some { s with mainPC := .shutdown .exchange wait {} }
      else some s
  | .destroy => some { s with mainPC := .shutdown .exchange true {} }
  | .waitForQuery e => s.callOn e { s with mainPC := .waiting e .testFinished }
  | .swapToFront e =>
      s.callOn e { s with
        toShared :=
          s.toShared.setQueue (s.worker.queryQueue.swapToFrontIf fun x => decide (x = e)).1 }
  | .takeFinished => some s.takeFinished
  | .takeReconnectEvents => some { s with reconnectLog := [] }
  | .ping => some { s with mainPC := .ping .lockQuery }
  | .connect => some { s with mainPC := .connect .testStatus }
  | .wait => if s.connectionDone && !s.connectMutex then some s else none
  | .setAutoReconnect enabled => some { s with shouldAutoReconnect := enabled }

/-- The main thread goes on with its operation. -/
def continueMain (c : Choice) : Option State :=
  match s.mainPC with
  | .connect .spawn =>
      some { s with workerPC := .connecting .lockConnect, mainPC := .idle }
  | .joining =>
      if s.workerPC = .notStarted ∨ s.workerPC = .ended then some { s with mainPC := .idle }
      else none
  | pc => (pc.next s.toShared c).map fun z => s.stepMain z.1 z.2

end State

/-- The system. -/
def system : Machine State Action where
  init := {}
  next s
    | .worker c => (s.workerPC.next s.toShared c).map fun z => s.stepWorker z.1 z.2
    | .main c => s.continueMain c
    | .call m => if s.mainPC = .idle then s.call m else none
    | .connectionLost => some { s with session := { s.session with connectionOk := false } }

/-! ### Stretches of runs -/

/-- The main thread calls `connect`. -/
def connectSteps : List Action := .call .connect :: List.replicate 5 (.main .go)

/-- `connectRun` up to the call of `run`: the initial attempt succeeds. -/
def connectedSteps : List Action :=
  [.worker .go, .worker (.connected none)] ++ List.replicate 4 (.worker .go)

/-- The main thread starts an execution, which is accepted. -/
def startSteps (query children : ℕ) : List Action :=
  .call (.start query children) :: List.replicate 4 (.main .go)

/-- The worker thread goes on by `n` steps that leave nothing to decide. -/
def workerSteps (n : ℕ) : List Action := List.replicate n (.worker .go)

/-- The main thread goes on by `n` steps that leave nothing to decide. -/
def mainSteps (n : ℕ) : List Action := List.replicate n (.main .go)

/-! ### What a step can do -/

/-- The points at which the operations on what exists already begin. -/
inductive Entry (s : State) : MainPC → Prop
  | abort {e : Execution} (h : s.built e) : Entry s (.abort e .removeQueued)
  | abortAll : Entry s (.abortAll .clearQueue {})
  | cancel {d : DataId} (h : s.built d.execution) : Entry s (.cancel d .lookup .abortQuery)
  | shutdown {join : Bool} : Entry s (.shutdown .exchange join {})
  | waiting {e : Execution} (h : s.built e) : Entry s (.waiting e .testFinished)
  | ping : Entry s (.ping .lockQuery)
  | connect : Entry s (.connect .testStatus)

/-- The begin of an operation, by the part of the state it concerns. -/
inductive CallStep (s : State) : Call → State → Prop
  | start {query children : ℕ} :
      CallStep s (.start query children) { s with
        started := s.started + 1
        mainPC := .enqueue (s.newExecution query children) .testShuttingDown }
  | enter {m : Call} {pc : MainPC} (h : Entry s pc) : CallStep s m { s with mainPC := pc }
  | swapToFront {e : Execution} :
      CallStep s (.swapToFront e) { s with
        toShared :=
          s.toShared.setQueue (s.worker.queryQueue.swapToFrontIf fun x => decide (x = e)).1 }
  | takeFinished : CallStep s .takeFinished s.takeFinished
  | takeReconnectEvents : CallStep s .takeReconnectEvents { s with reconnectLog := [] }
  | setAutoReconnect {enabled : Bool} :
      CallStep s (.setAutoReconnect enabled) { s with shouldAutoReconnect := enabled }
  | none {m : Call} : CallStep s m s

/-- The steps of the system, by the part of the state they concern. -/
inductive Step (s : State) : Action → State → Prop
  /-- an access of the worker thread -/
  | worker {c : Choice} {a : Access} {pc : WorkerPC}
      (h : s.workerPC.next s.toShared c = some (a, pc)) : Step s (.worker c) (s.stepWorker a pc)
  /-- an access of the main thread inside an operation -/
  | main {c : Choice} {a : Access} {pc : MainPC} (hspawn : s.mainPC ≠ .connect .spawn)
      (h : s.mainPC.next s.toShared c = some (a, pc)) : Step s (.main c) (s.stepMain a pc)
  /-- `connect` starts the worker thread -/
  | spawn {c : Choice} (h : s.mainPC = .connect .spawn) :
      Step s (.main c) { s with workerPC := .connecting .lockConnect, mainPC := .idle }
  /-- `join` returns -/
  | join {c : Choice} (h : s.mainPC = .joining)
      (hworker : s.workerPC = .notStarted ∨ s.workerPC = .ended) :
      Step s (.main c) { s with mainPC := .idle }
  /-- the main thread begins an operation, or does one that is a single mutex section -/
  | call {m : Call} {t : State} (hidle : s.mainPC = .idle) (h : CallStep s m t) :
      Step s (.call m) t
  /-- the connection is lost -/
  | connectionLost :
      Step s .connectionLost { s with session := { s.session with connectionOk := false } }

lemma callOn_eq_some {s t u : State} {e : Execution} (h : s.callOn e t = some u) :
    s.built e ∧ t = u := by
  unfold State.callOn at h
  split at h
  · rename_i hbuilt
    exact ⟨hbuilt, Option.some.inj h⟩
  · exact absurd h (by simp)

lemma callStep_of_call {s t : State} {m : Call} (h : s.call m = some t) : CallStep s m t := by
  cases m with
  | start query children =>
      obtain rfl := Option.some.inj h
      exact .start
  | abort e =>
      obtain ⟨hbuilt, rfl⟩ := callOn_eq_some h
      exact .enter (.abort hbuilt)
  | abortAll =>
      obtain rfl := Option.some.inj h
      exact .enter .abortAll
  | cancel d =>
      obtain ⟨hbuilt, rfl⟩ := callOn_eq_some h
      exact .enter (.cancel hbuilt)
  | disconnect wait =>
      simp only [State.call] at h
      split at h <;> obtain rfl := Option.some.inj h
      · exact .enter .shutdown
      · exact .none
  | destroy =>
      obtain rfl := Option.some.inj h
      exact .enter .shutdown
  | waitForQuery e =>
      obtain ⟨hbuilt, rfl⟩ := callOn_eq_some h
      exact .enter (.waiting hbuilt)
  | swapToFront e =>
      obtain ⟨-, rfl⟩ := callOn_eq_some h
      exact .swapToFront
  | takeFinished =>
      obtain rfl := Option.some.inj h
      exact .takeFinished
  | takeReconnectEvents =>
      obtain rfl := Option.some.inj h
      exact .takeReconnectEvents
  | ping =>
      obtain rfl := Option.some.inj h
      exact .enter .ping
  | connect =>
      obtain rfl := Option.some.inj h
      exact .enter .connect
  | wait =>
      simp only [State.call] at h
      split at h
      · obtain rfl := Option.some.inj h
        exact .none
      · exact absurd h (by simp)
  | setAutoReconnect enabled =>
      obtain rfl := Option.some.inj h
      exact .setAutoReconnect

lemma step_of_next {s t : State} {a : Action} (h : system.next s a = some t) : Step s a t := by
  cases a with
  | worker c =>
      obtain ⟨⟨b, pc⟩, hpc, rfl⟩ := Option.map_eq_some_iff.1 h
      exact .worker hpc
  | main c =>
      have h : s.continueMain c = some t := h
      unfold State.continueMain at h
      split at h
      · rename_i hpc
        obtain rfl := Option.some.inj h
        exact .spawn hpc
      · rename_i hpc
        split at h
        · rename_i hworker
          obtain rfl := Option.some.inj h
          exact .join hpc hworker
        · exact absurd h (by simp)
      · rename_i hspawn _
        obtain ⟨⟨b, pc⟩, hpc, rfl⟩ := Option.map_eq_some_iff.1 h
        exact .main (fun h' => hspawn h') hpc
  | call m =>
      simp only [system] at h
      split at h
      · rename_i hidle
        exact .call hidle (callStep_of_call h)
      · exact absurd h (by simp)
  | connectionLost =>
      obtain rfl := Option.some.inj h
      exact .connectionLost

/-- **Invariance.**  `Machine.Reach.invariant` for the system, by the kind of step. -/
theorem system_invariant {C : State → Action → Prop} {I : State → Prop} (hinit : I {})
    (hstep : ∀ s t a, system.Reach C s → I s → C s a → Step s a t → I t)
    {s : State} (h : system.Reach C s) : I s :=
  h.invariant hinit fun s t a hr hI hC hnext => hstep s t a hr hI hC (step_of_next hnext)

end GmsvPg.Database
