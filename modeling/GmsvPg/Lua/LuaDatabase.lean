/-
# A database object and its callbacks

The Lua side of one database: the members of `LuaDatabase`, the executions between `start` and
`finishLuaQueryData`, and the stack of the functions of this layer that the main thread is in.
User code runs at the bottom of the stack, and in a callback on top of it; it may call every
function again, so the stack has any depth.  Underneath, the two threads go on as before: the
functions of this layer begin the operations of `Database`, and the worker thread moves at any
time.

The state also records what was invoked, and for each entry of `finishedQueries` when it was
put there; nothing reads these records.
-/
import GmsvPg.Database.System
import GmsvPg.Lua.Think

namespace GmsvPg.Database

/-- The access that a step makes to the shared state, if it is one of a thread. -/
def State.access (s : State) : Action → Option Access
  | .worker c => (s.workerPC.next s.toShared c).map Prod.fst
  | .main c => (s.mainPC.next s.toShared c).map Prod.fst
  | _ => none

/-- The execution that an access puts on `finishedQueries`. -/
def Access.puts : Access → Option Execution
  | .finish e | .forceFinish e => some e
  | _ => none

/-- The reconnect event that an access logs. -/
def Access.logs (s : Shared) : Access → Option (Bool × Text)
  | .addReconnect success => some (success, if success then [] else s.session.connectionError)
  | _ => none

/-- The operations with which the function that calls them ends. -/
def Call.direct : Call → Bool
  | .cancel _ | .ping | .setAutoReconnect _ => true
  | _ => false

/-- The thread that a step is one of. -/
def Action.thread : Action → Thread
  | .worker _ => .worker
  | _ => .main

end GmsvPg.Database

namespace GmsvPg.Lua

open Library
open Database (Execution DataId Thread Choice MainPC Access system)

/-- An entry of `finishedQueries`: the number of entries before it, the thread that put it
there, whether `m_connectionDone` was set then, and how many reconnect events were logged. -/
structure Put where
  execution : Execution
  number : ℕ
  thread : Thread
  connectionDone : Bool
  logged : ℕ
deriving DecidableEq, Repr

/-- A reconnect event that was logged, and the thread that logged it. -/
structure Logged where
  thread : Thread
  success : Bool
  error : Text
deriving DecidableEq, Repr

/-- A callback that was invoked: one of the database table, the terminal callback of an
execution from `finishedQueries`, or `onAborted` of an execution that an abort completed. -/
inductive Callback
  | database (callback : DatabaseCallback)
  | finished (p : Put)
  | aborted (e : Execution)
deriving DecidableEq, Repr

/-- The functions of this layer that call others or run user code. -/
inductive Frame
  /-- `think`, with the execution `query:wait()` called it for -/
  | think (stage : ThinkStage Put) (waited : Option Execution)
  /-- `IQuery::wait`, before `waitForQuery` -/
  | beforeWait (e : Execution)
  /-- `Database::wait`, or `Database::waitForQuery` for an execution -/
  | waiting (waited : Option Execution)
  /-- `IQuery::abort`: what is still to be aborted, and what was completed -/
  | abort (todo completed : List Execution)
  /-- `Database::abortAllQueries`, for `abortAllQueries` or for `disconnect(wait)` -/
  | abortAll (disconnect : Option Bool)
  /-- the loop over `completed` -/
  | completed (rest : List Execution) (disconnect : Option Bool)
  /-- `onAborted` of an execution is running in that loop -/
  | inAborted (e : Execution) (rest : List Execution) (disconnect : Option Bool)
  /-- `Database::disconnect(wait)` -/
  | disconnecting (wait : Bool)
deriving DecidableEq, Repr

/-- What a function of this layer does between two points. -/
inductive Effect
  | think (effect : ThinkEffect Put)
  /-- an operation of `Database` is called -/
  | call (m : Database.Call)
  /-- `runAbortedCallback` -/
  | runAborted (e : Execution)
  /-- `finishLuaQueryData` after it -/
  | finishAborted (e : Execution)
deriving DecidableEq, Repr

namespace Frame

/-- A callback is running. -/
def inUserCode : Frame → Bool
  | .think stage _ => stage.inUserCode
  | .inAborted _ _ _ => true
  | _ => false

/-- What the innermost function does next, and where it then stands; without a frame it
returns.  `abortAllQueries` goes on when its `Database` operation returns. -/
def next (v : ThinkView Put) : Frame → Option (Effect × Option Frame)
  | .think stage waited =>
      some (.think (stage.next v).1, (stage.next v).2.map fun stage' => .think stage' waited)
  | .beforeWait e => some (.call (.waitForQuery e), some (.waiting (some e)))
  | .waiting none => some (.call .wait, some (.think .testConnectionDone none))
  | .waiting (some e) => some (.think .read, some (.think .testConnectionDone (some e)))
  | .abort [] done => some (.think .read, some (.completed done none))
  | .abort (e :: todo) done => some (.call (.abort e), some (.abort todo done))
  | .abortAll _ => none
  | .completed [] none => some (.think .read, none)
  | .completed [] (some wait) => some (.call (.disconnect wait), some (.disconnecting wait))
  | .completed (e :: rest) disconnect =>
      some (.runAborted e, some (.inAborted e rest disconnect))
  | .inAborted e rest disconnect => some (.finishAborted e, some (.completed rest disconnect))
  | .disconnecting wait =>
      some (.think .read, if wait then some (.think .testConnectionDone none) else none)

/-- `QueryAbortResult.completed` of an operation that returned. -/
def collect (es : List Execution) : Frame → Frame
  | .abort todo done => .abort todo (done ++ es)
  | .abortAll disconnect => .completed es disconnect
  | f => f

end Frame

/-- The functions that user code calls. -/
inductive Call
  /-- `db:connect()` -/
  | connect
  /-- `db:disconnect(wait)` -/
  | disconnect (wait : Bool)
  /-- `db:abortAllQueries()` -/
  | abortAllQueries
  /-- `db:wait()` -/
  | wait
  /-- the Think hook; also `query:wait()` for the data that the query has in a transaction,
  once that data is finished -/
  | think
  /-- `query:start()` -/
  | start (query children : ℕ)
  /-- `query:abort()` -/
  | abort (query : ℕ)
  /-- `query:abort()` for the data that the query has in a running transaction -/
  | abortChild (d : DataId)
  /-- `query:wait(shouldSwap)` -/
  | waitQuery (query : ℕ) (shouldSwap : Bool)
  /-- `db:ping()` -/
  | ping
  /-- `db:setAutoReconnect()` -/
  | setAutoReconnect (enabled : Bool)
deriving DecidableEq, Repr

/-- A step of the two threads: of the worker thread, of the main thread inside an operation of
`Database`, inside a function of this layer, or in user code. -/
inductive Action
  | worker (c : Choice)
  | connectionLost
  | main (c : Choice)
  | lua
  | call (f : Call)
deriving DecidableEq, Repr

/-- A state: the database underneath, and the Lua side. -/
structure State where
  database : Database.State := {}
  /-- `m_tableReference != 0` -/
  tableReference : Bool := false
  dbCallbackRan : Bool := false
  /-- the executions in the `runningQueryData` of all queries, in the order of `start` -/
  running : List Execution := []
  /-- the functions the main thread is in, the innermost first -/
  frames : List Frame := []
  /-- the entries of `finishedQueries` -/
  puts : List Put := []
  putCount : ℕ := 0
  /-- the reconnect events that were logged, in order -/
  eventLog : List Logged := []
  /-- the number of reconnect events taken -/
  eventsTaken : ℕ := 0
  /-- what was invoked, in order -/
  invoked : List Callback := []

namespace State

variable (s : State)

/-- What `think` reads. -/
def view : ThinkView Put where
  connectionDone := s.database.connectionDone
  connectionSuccessful := s.database.success
  disconnected := s.database.disconnected
  dbCallbackRan := s.dbCallbackRan
  hasTable := s.tableReference
  reconnectEvents := (s.database.reconnectLog.zipIdx s.eventsTaken).map
    fun event => ⟨event.2, event.1.1, event.1.2⟩
  finishedQueries := s.puts

/-- The number of reconnect events logged so far. -/
def logged : ℕ := s.eventsTaken + s.database.reconnectLog.length

/-- What a step of the threads puts on `finishedQueries`. -/
def newPuts (a : Database.Action) : List Put :=
  ((s.database.access a).bind Access.puts).toList.map
    fun e => ⟨e, s.putCount, a.thread, s.database.connectionDone, s.logged⟩

/-- The reconnect events that a step of the threads logs. -/
def newEvents (a : Database.Action) : List Logged :=
  ((s.database.access a).bind (Access.logs s.database.toShared)).toList.map
    fun event => ⟨a.thread, event.1, event.2⟩

/-- A step of the database underneath. -/
def step (a : Database.Action) : Option State :=
  (system.next s.database a).map fun t =>
    { s with
      database := t
      puts := s.puts ++ s.newPuts a
      putCount := s.putCount + (s.newPuts a).length
      eventLog := s.eventLog ++ s.newEvents a }

/-- The main thread has made a step from the point `pc`: `enqueueQuery` may have thrown, after
which `start` undoes what it has done, or aborted executions may have been returned. -/
def afterMain : MainPC → State
  | .enqueue e .setFinished => { s with running := s.running.erase e }
  | .abort e .returnRemoved => { s with frames := s.frames.modifyHead (Frame.collect [e]) }
  | .abortAll .returnResult g =>
      { s with frames := s.frames.modifyHead (Frame.collect g.completed) }
  | _ => s

/-- The effect of what the innermost function does. -/
def perform : Effect → Option State
  | .think .read => some s
  | .think .setCallbackRan => some { s with dbCallbackRan := true }
  | .think (.invoke callback) => some { s with invoked := s.invoked ++ [.database callback] }
  | .think .takeReconnectEvents =>
      (s.step (.call .takeReconnectEvents)).map fun t => { t with eventsTaken := s.logged }
  | .think .takeFinishedQueries =>
      (s.step (.call .takeFinished)).map fun t => { t with puts := [] }
  | .think (.runCallback p) => some { s with invoked := s.invoked ++ [.finished p] }
  | .think (.finishQueryData p) => some { s with running := s.running.erase p.execution }
  | .think .freeTable => some { s with tableReference := false }
  | .call m => s.step (.call m)
  | .runAborted e => some { s with invoked := s.invoked ++ [.aborted e] }
  | .finishAborted e => some { s with running := s.running.erase e }

/-- The innermost function goes on. -/
def lua : Option State :=
  match s.frames with
  | [] => none
  | f :: below =>
      (f.next s.view).bind fun z =>
        (s.perform z.1).map fun t => { t with frames := z.2.toList ++ below }

/-- User code is running. -/
def inUserCode : Bool :=
  match s.frames with
  | [] => true
  | f :: _ => f.inUserCode

/-- A function of this layer is entered. -/
def push (f : Frame) : State := { s with frames := f :: s.frames }

/-- The execution that `query:wait()` waits for: `runningQueryData.back()`. -/
def lastRunning (query : ℕ) : Option Execution :=
  (s.running.filter fun e => decide (e.query = query)).getLast?

/-- User code calls a function.  A call that throws leaves user code where it was. -/
def call : Call → Option State
  | .connect => { s with tableReference := true }.step (.call .connect)
  | .disconnect wait => (s.step (.call .abortAll)).map fun t => t.push (.abortAll (some wait))
  | .abortAllQueries => (s.step (.call .abortAll)).map fun t => t.push (.abortAll none)
  | .wait => if s.database.startedConnecting then some (s.push (.waiting none)) else some s
  | .think => some (s.push (.think .testConnectionDone none))
  | .start query children =>
      (s.step (.call (.start query children))).map fun t =>
        { t with running := s.running ++ [s.database.newExecution query children] }
  | .abort query =>
      some (s.push (.abort (s.running.filter fun e => decide (e.query = query)) []))
  | .abortChild d => s.step (.call (.cancel d))
  | .waitQuery query shouldSwap =>
      match s.lastRunning query with
      | none => some s
      | some e =>
          if (s.database.own e).status = .notRunning then some s
          else if shouldSwap then
            (s.step (.call (.swapToFront e))).map fun t => t.push (.beforeWait e)
          else some (s.push (.beforeWait e))
  | .ping => s.step (.call .ping)
  | .setAutoReconnect enabled => s.step (.call (.setAutoReconnect enabled))

end State

/-- The machine. -/
def machine : Machine State Action where
  init := {}
  next s
    | .worker c => s.step (.worker c)
    | .connectionLost => s.step .connectionLost
    | .main c =>
        if s.database.mainPC = .idle then none
        else (s.step (.main c)).map fun t => t.afterMain s.database.mainPC
    | .lua => if s.database.mainPC = .idle then s.lua else none
    | .call f => if s.database.mainPC = .idle ∧ s.inUserCode = true then s.call f else none

/-! ### Stretches of runs -/

/-- `db:connect()`. -/
def connectSteps : List Action := .call .connect :: List.replicate 5 (.main .go)

/-- `connectRun` up to the call of `run`: the initial attempt succeeds. -/
def connectedSteps : List Action :=
  [.worker .go, .worker (.connected none)] ++ List.replicate 4 (.worker .go)

/-- `query:start()`, accepted. -/
def startSteps (query children : ℕ) : List Action :=
  .call (.start query children) :: List.replicate 4 (.main .go)

/-- The worker thread goes on by `n` steps that leave nothing to decide. -/
def workerSteps (n : ℕ) : List Action := List.replicate n (.worker .go)

/-- The worker thread takes an execution, and its statement succeeds. -/
def executeSteps : List Action := workerSteps 10 ++ [.worker (.left none)] ++ workerSteps 9

/-- The main thread goes on by `n` steps inside an operation of `Database`. -/
def mainSteps (n : ℕ) : List Action := List.replicate n (.main .go)

/-- The main thread goes on by `n` steps in this layer. -/
def luaSteps (n : ℕ) : List Action := List.replicate n .lua

/-! ### What a step can do -/

/-- The transitions of the functions of this layer, one by one. -/
inductive Frame.Moves (v : ThinkView Put) : Frame → Effect → Option Frame → Prop
  | announce {w : Option Execution} (hdone : v.connectionDone = true)
      (hran : v.dbCallbackRan = false) (htable : v.hasTable = true) :
      Moves v (.think .testConnectionDone w) (.think .setCallbackRan)
        (some (.think .connectionCallback w))
  | noConnection {w : Option Execution} :
      Moves v (.think .testConnectionDone w) (.think .read) (some (.think .takeReconnectEvents w))
  | connection {w : Option Execution} :
      Moves v (.think .connectionCallback w)
        (.think (.invoke (if v.connectionSuccessful then .onConnected else .onConnectionFailed)))
        (some (.think .inConnectionCallback w))
  | connectionReturn {w : Option Execution} :
      Moves v (.think .inConnectionCallback w) (.think .read) (some (.think .testSuccessful w))
  | successful {w : Option Execution} :
      Moves v (.think .testSuccessful w) (.think .read) (some (.think .takeReconnectEvents w))
  | failed {w : Option Execution} (hfailed : v.connectionSuccessful = false) :
      Moves v (.think .testSuccessful w) (.think .freeTable)
        (some (.think .takeReconnectEvents w))
  | takeReconnectEvents {w : Option Execution} :
      Moves v (.think .takeReconnectEvents w) (.think .takeReconnectEvents)
        (some (.think (.reconnectEvents (if v.hasTable then v.reconnectEvents else [])) w))
  | eventsDone {w : Option Execution} :
      Moves v (.think (.reconnectEvents []) w) (.think .read)
        (some (.think .takeFinishedQueries w))
  | event {event : ReconnectEvent} {rest : List ReconnectEvent} {w : Option Execution} :
      Moves v (.think (.reconnectEvents (event :: rest)) w) (.think (.invoke event.callback))
        (some (.think (.inReconnectCallback rest) w))
  | eventReturn {rest : List ReconnectEvent} {w : Option Execution} :
      Moves v (.think (.inReconnectCallback rest) w) (.think .read)
        (some (.think (.reconnectEvents rest) w))
  | takeFinishedQueries {w : Option Execution} :
      Moves v (.think .takeFinishedQueries w) (.think .takeFinishedQueries)
        (some (.think (.finishedQueries v.finishedQueries) w))
  | batchDone {w : Option Execution} :
      Moves v (.think (.finishedQueries []) w) (.think .read) (some (.think .testDisconnected w))
  | runCallback {p : Put} {rest : List Put} {w : Option Execution} :
      Moves v (.think (.finishedQueries (p :: rest)) w) (.think (.runCallback p))
        (some (.think (.inCallback p rest) w))
  | callbackReturn {p : Put} {rest : List Put} {w : Option Execution} :
      Moves v (.think (.inCallback p rest) w) (.think (.finishQueryData p))
        (some (.think (.finishedQueries rest) w))
  | disconnected {w : Option Execution} (hdisconnected : v.disconnected = true)
      (htable : v.hasTable = true) :
      Moves v (.think .testDisconnected w) (.think (.invoke .onDisconnected))
        (some (.think .inDisconnectedCallback w))
  | thinkReturn {w : Option Execution} :
      Moves v (.think .testDisconnected w) (.think .read) none
  | disconnectedReturn {w : Option Execution} :
      Moves v (.think .inDisconnectedCallback w) (.think .freeTable) none
  | waitForQuery {e : Execution} :
      Moves v (.beforeWait e) (.call (.waitForQuery e)) (some (.waiting (some e)))
  | wait : Moves v (.waiting none) (.call .wait) (some (.think .testConnectionDone none))
  | waited {e : Execution} :
      Moves v (.waiting (some e)) (.think .read) (some (.think .testConnectionDone (some e)))
  | abort {e : Execution} {todo done : List Execution} :
      Moves v (.abort (e :: todo) done) (.call (.abort e)) (some (.abort todo done))
  | abortDone {done : List Execution} :
      Moves v (.abort [] done) (.think .read) (some (.completed done none))
  | runAborted {e : Execution} {rest : List Execution} {disconnect : Option Bool} :
      Moves v (.completed (e :: rest) disconnect) (.runAborted e)
        (some (.inAborted e rest disconnect))
  | abortedReturn {e : Execution} {rest : List Execution} {disconnect : Option Bool} :
      Moves v (.inAborted e rest disconnect) (.finishAborted e) (some (.completed rest disconnect))
  | completedReturn : Moves v (.completed [] none) (.think .read) none
  | disconnect {wait : Bool} :
      Moves v (.completed [] (some wait)) (.call (.disconnect wait)) (some (.disconnecting wait))
  | disconnectThink :
      Moves v (.disconnecting true) (.think .read) (some (.think .testConnectionDone none))
  | disconnectReturn : Moves v (.disconnecting false) (.think .read) none

lemma Frame.moves_of_next {v : ThinkView Put} {f : Frame} {effect : Effect} {f' : Option Frame}
    (h : f.next v = some (effect, f')) : f.Moves v effect f' := by
  cases f with
  | think stage w =>
      obtain ⟨rfl, rfl⟩ := by simpa [next] using h
      cases stage with
      | testConnectionDone =>
          cases hdone : v.connectionDone && !v.dbCallbackRan && v.hasTable with
          | true =>
              simp only [ThinkStage.next, hdone]
              obtain ⟨⟨hread, hran⟩, htable⟩ :
                  (v.connectionDone = true ∧ v.dbCallbackRan = false) ∧ v.hasTable = true := by
                simpa using hdone
              exact .announce hread hran htable
          | false =>
              simp only [ThinkStage.next, hdone]
              exact .noConnection
      | testSuccessful =>
          cases hsuccess : v.connectionSuccessful with
          | true =>
              simp only [ThinkStage.next, hsuccess]
              exact .successful
          | false =>
              simp only [ThinkStage.next, hsuccess]
              exact .failed hsuccess
      | testDisconnected =>
          cases hlast : v.disconnected && v.hasTable with
          | true =>
              obtain ⟨hdisconnected, htable⟩ := Bool.and_eq_true_iff.1 hlast
              simp only [ThinkStage.next, hlast]
              exact .disconnected hdisconnected htable
          | false =>
              simp only [ThinkStage.next, hlast]
              exact .thinkReturn
      | connectionCallback => exact .connection
      | inConnectionCallback => exact .connectionReturn
      | takeReconnectEvents => exact .takeReconnectEvents
      | reconnectEvents rest =>
          cases rest with
          | nil => exact .eventsDone
          | cons event rest => exact .event
      | inReconnectCallback rest => exact .eventReturn
      | takeFinishedQueries => exact .takeFinishedQueries
      | finishedQueries rest =>
          cases rest with
          | nil => exact .batchDone
          | cons p rest => exact .runCallback
      | inCallback p rest => exact .callbackReturn
      | inDisconnectedCallback => exact .disconnectedReturn
  | beforeWait e =>
      obtain ⟨rfl, rfl⟩ := by simpa [next] using h
      exact .waitForQuery
  | waiting w =>
      cases w with
      | none =>
          obtain ⟨rfl, rfl⟩ := by simpa [next] using h
          exact .wait
      | some e =>
          obtain ⟨rfl, rfl⟩ := by simpa [next] using h
          exact .waited
  | abort todo done =>
      cases todo with
      | nil =>
          obtain ⟨rfl, rfl⟩ := by simpa [next] using h
          exact .abortDone
      | cons e todo =>
          obtain ⟨rfl, rfl⟩ := by simpa [next] using h
          exact .abort
  | abortAll disconnect => exact absurd h (by simp [next])
  | completed rest disconnect =>
      cases rest with
      | nil =>
          cases disconnect with
          | none =>
              obtain ⟨rfl, rfl⟩ := by simpa [next] using h
              exact .completedReturn
          | some wait =>
              obtain ⟨rfl, rfl⟩ := by simpa [next] using h
              exact .disconnect
      | cons e rest =>
          obtain ⟨rfl, rfl⟩ := by simpa [next] using h
          exact .runAborted
  | inAborted e rest disconnect =>
      obtain ⟨rfl, rfl⟩ := by simpa [next] using h
      exact .abortedReturn
  | disconnecting wait =>
      cases wait with
      | true =>
          obtain ⟨rfl, rfl⟩ := by simpa [next] using h
          exact .disconnectThink
      | false =>
          obtain ⟨rfl, rfl⟩ := by simpa [next] using h
          exact .disconnectReturn

/-- The state after the database underneath has made a step. -/
def State.withDatabase (s : State) (a : Database.Action) (t : Database.State) : State :=
  { s with
    database := t
    puts := s.puts ++ s.newPuts a
    putCount := s.putCount + (s.newPuts a).length
    eventLog := s.eventLog ++ s.newEvents a }

lemma State.step_eq_some {s t : State} {a : Database.Action} :
    s.step a = some t ↔ ∃ u, system.next s.database a = some u ∧ s.withDatabase a u = t :=
  Option.map_eq_some_iff

/-- The steps of the machine. -/
inductive Step (s : State) : Action → State → Prop
  /-- the worker thread, or the loss of the connection -/
  | environment {a : Action} {b : Database.Action} {t : Database.State}
      (hb : (∃ c, a = .worker c ∧ b = .worker c) ∨ a = .connectionLost ∧ b = .connectionLost)
      (h : system.next s.database b = some t) : Step s a (s.withDatabase b t)
  /-- the main thread inside an operation of `Database` -/
  | main {c : Choice} {t : Database.State} (hpc : s.database.mainPC ≠ .idle)
      (h : system.next s.database (.main c) = some t) :
      Step s (.main c) ((s.withDatabase (.main c) t).afterMain s.database.mainPC)
  /-- the innermost function of this layer -/
  | lua {f : Frame} {f' : Option Frame} {below : List Frame} {effect : Effect} {t : State}
      (hidle : s.database.mainPC = .idle) (hframes : s.frames = f :: below)
      (hnext : f.Moves s.view effect f') (ht : s.perform effect = some t) :
      Step s .lua { t with frames := f'.toList ++ below }
  /-- user code calls a function -/
  | call {f : Call} {t : State} (hidle : s.database.mainPC = .idle)
      (huser : s.inUserCode = true) (h : s.call f = some t) : Step s (.call f) t

lemma step_of_next {s t : State} {a : Action} (h : machine.next s a = some t) : Step s a t := by
  cases a with
  | worker c =>
      have h : s.step (.worker c) = some t := h
      obtain ⟨u, hu, rfl⟩ := State.step_eq_some.1 h
      exact .environment (.inl ⟨c, rfl, rfl⟩) hu
  | connectionLost =>
      have h : s.step .connectionLost = some t := h
      obtain ⟨u, hu, rfl⟩ := State.step_eq_some.1 h
      exact .environment (.inr ⟨rfl, rfl⟩) hu
  | main c =>
      simp only [machine] at h
      split at h
      · exact absurd h (by simp)
      · rename_i hpc
        obtain ⟨t, ht, rfl⟩ := Option.map_eq_some_iff.1 h
        obtain ⟨u, hu, rfl⟩ := State.step_eq_some.1 ht
        exact .main hpc hu
  | lua =>
      simp only [machine] at h
      split at h
      · rename_i hidle
        unfold State.lua at h
        split at h
        · exact absurd h (by simp)
        · rename_i f below hframes
          obtain ⟨⟨effect, f'⟩, hnext, h⟩ := Option.bind_eq_some_iff.1 h
          obtain ⟨t, ht, rfl⟩ := Option.map_eq_some_iff.1 h
          exact .lua hidle hframes (Frame.moves_of_next hnext) ht
      · exact absurd h (by simp)
  | call f =>
      simp only [machine] at h
      split at h
      · rename_i hcall
        exact .call hcall.1 hcall.2 h
      · exact absurd h (by simp)

/-- **Invariance.**  `Machine.Reach.invariant` for this layer, by the kind of step. -/
theorem machine_invariant {C : State → Action → Prop} {I : State → Prop} (hinit : I {})
    (hstep : ∀ s t a, machine.Reach C s → I s → C s a → Step s a t → I t)
    {s : State} (h : machine.Reach C s) : I s :=
  h.invariant hinit fun s t a hr hI hC hnext => hstep s t a hr hI hC (step_of_next hnext)

/-- What calling a function does to the database underneath, and to the stack. -/
inductive CallStep (s : State) : Call → State → Prop
  /-- an operation of `Database` is called -/
  | begin {f : Call} {m : Database.Call} {t : Database.State} {frames : List Frame}
      (h : system.next s.database (.call m) = some t)
      (hf : f ≠ .connect ∧ ∀ query children, f ≠ .start query children)
      (hframes : frames = [] ∧ m.direct = true ∨ ∃ d, m = .abortAll ∧ frames = [.abortAll d]) :
      CallStep s f { s with database := t, frames := frames ++ s.frames }
  /-- `connect` takes a reference to the table first -/
  | connect {t : Database.State} (h : system.next s.database (.call .connect) = some t) :
      CallStep s .connect { s with database := t, tableReference := true }
  /-- `start` adds the new execution to `runningQueryData` first -/
  | start {query children : ℕ} {t : Database.State}
      (h : system.next s.database (.call (.start query children)) = some t) :
      CallStep s (.start query children) { s with
        database := t
        running := s.running ++ [s.database.newExecution query children] }
  /-- `query:wait` -/
  | waitQuery {query : ℕ} {shouldSwap : Bool} {e : Execution} {t : Database.State}
      (he : s.lastRunning query = some e)
      (h : t = s.database ∨ system.next s.database (.call (.swapToFront e)) = some t) :
      CallStep s (.waitQuery query shouldSwap) { s with
        database := t
        frames := .beforeWait e :: s.frames }
  /-- another function of this layer is entered -/
  | enter {f : Call} {frame : Frame}
      (h : frame = .waiting none ∨ frame = .think .testConnectionDone none ∨
        ∃ query, f = .abort query ∧
          frame = .abort (s.running.filter fun e => decide (e.query = query)) []) :
      CallStep s f (s.push frame)
  /-- the call throws -/
  | throw {f : Call} : CallStep s f s

lemma State.withDatabase_call (s : State) (m : Database.Call) (t : Database.State) :
    s.withDatabase (.call m) t = { s with database := t } := by
  simp [withDatabase, newPuts, newEvents, Database.State.access]

lemma callStep_of_call {s t : State} {f : Call} (h : s.call f = some t) : CallStep s f t := by
  cases f with
  | connect =>
      obtain ⟨u, hu, rfl⟩ := State.step_eq_some.1 h
      rw [State.withDatabase_call]
      exact .connect hu
  | disconnect wait =>
      obtain ⟨v, hv, rfl⟩ := Option.map_eq_some_iff.1 h
      obtain ⟨u, hu, rfl⟩ := State.step_eq_some.1 hv
      rw [State.withDatabase_call]
      exact .begin hu (by simp) (.inr ⟨some wait, rfl, rfl⟩)
  | abortAllQueries =>
      obtain ⟨v, hv, rfl⟩ := Option.map_eq_some_iff.1 h
      obtain ⟨u, hu, rfl⟩ := State.step_eq_some.1 hv
      rw [State.withDatabase_call]
      exact .begin hu (by simp) (.inr ⟨none, rfl, rfl⟩)
  | wait =>
      simp only [State.call] at h
      split at h <;> obtain rfl := Option.some.inj h
      · exact .enter (.inl rfl)
      · exact .throw
  | think =>
      obtain rfl := Option.some.inj h
      exact .enter (.inr (.inl rfl))
  | start query children =>
      obtain ⟨v, hv, rfl⟩ := Option.map_eq_some_iff.1 h
      obtain ⟨u, hu, rfl⟩ := State.step_eq_some.1 hv
      rw [State.withDatabase_call]
      exact .start hu
  | abort query =>
      obtain rfl := Option.some.inj h
      exact .enter (.inr (.inr ⟨query, rfl, rfl⟩))
  | waitQuery query shouldSwap =>
      simp only [State.call] at h
      split at h
      · obtain rfl := Option.some.inj h
        exact .throw
      · rename_i e he
        split at h
        · obtain rfl := Option.some.inj h
          exact .throw
        · split at h
          · obtain ⟨v, hv, rfl⟩ := Option.map_eq_some_iff.1 h
            obtain ⟨u, hu, rfl⟩ := State.step_eq_some.1 hv
            rw [State.withDatabase_call]
            exact .waitQuery he (.inr hu)
          · obtain rfl := Option.some.inj h
            exact .waitQuery he (.inl rfl)
  | abortChild | ping | setAutoReconnect =>
      obtain ⟨u, hu, rfl⟩ := State.step_eq_some.1 h
      rw [State.withDatabase_call]
      exact .begin hu (by simp) (.inl ⟨rfl, rfl⟩)

/-! ### What a step leaves unchanged -/

/-- The callback that an effect invokes. -/
def Effect.callback : Effect → Option Callback
  | .think (.invoke callback) => some (.database callback)
  | .think (.runCallback p) => some (.finished p)
  | .runAborted e => some (.aborted e)
  | _ => none

/-- The points from which callbacks are invoked, and where they run. -/
inductive Frame.Invokes (v : ThinkView Put) : Frame → Callback → Frame → Prop
  | connection {waited : Option Execution} :
      Invokes v (.think .connectionCallback waited)
        (.database (if v.connectionSuccessful then .onConnected else .onConnectionFailed))
        (.think .inConnectionCallback waited)
  | reconnect {event : ReconnectEvent} {rest : List ReconnectEvent} {waited : Option Execution} :
      Invokes v (.think (.reconnectEvents (event :: rest)) waited) (.database event.callback)
        (.think (.inReconnectCallback rest) waited)
  | finished {p : Put} {rest : List Put} {waited : Option Execution} :
      Invokes v (.think (.finishedQueries (p :: rest)) waited) (.finished p)
        (.think (.inCallback p rest) waited)
  | disconnected {waited : Option Execution} (hdisconnected : v.disconnected = true)
      (htable : v.hasTable = true) :
      Invokes v (.think .testDisconnected waited) (.database .onDisconnected)
        (.think .inDisconnectedCallback waited)
  | aborted {e : Execution} {rest : List Execution} {disconnect : Option Bool} :
      Invokes v (.completed (e :: rest) disconnect) (.aborted e) (.inAborted e rest disconnect)

lemma Frame.Moves.invokes {v : ThinkView Put} {f : Frame} {effect : Effect}
    {f' : Option Frame} {c : Callback} (h : f.Moves v effect f')
    (hc : effect.callback = some c) : ∃ g, f' = some g ∧ f.Invokes v c g := by
  cases h with
  | connection =>
      obtain rfl := Option.some.inj hc
      exact ⟨_, rfl, .connection⟩
  | event =>
      obtain rfl := Option.some.inj hc
      exact ⟨_, rfl, .reconnect⟩
  | runCallback =>
      obtain rfl := Option.some.inj hc
      exact ⟨_, rfl, .finished⟩
  | disconnected hdisconnected htable =>
      obtain rfl := Option.some.inj hc
      exact ⟨_, rfl, .disconnected hdisconnected htable⟩
  | runAborted =>
      obtain rfl := Option.some.inj hc
      exact ⟨_, rfl, .aborted⟩
  | _ => cases hc

/-- The execution that an effect removes from `runningQueryData`. -/
def Effect.finishes : Effect → Option Execution
  | .think (.finishQueryData p) => some p.execution
  | .finishAborted e => some e
  | _ => none

/-- The operation of `Database` that an effect calls. -/
def Effect.calls : Effect → Option Database.Call
  | .think .takeReconnectEvents => some .takeReconnectEvents
  | .think .takeFinishedQueries => some .takeFinished
  | .call m => some m
  | _ => none

namespace State

variable {s t : State} {effect : Effect}

@[simp] lemma withDatabase_database (a : Database.Action) (u : Database.State) :
    (s.withDatabase a u).database = u := rfl

@[simp] lemma withDatabase_tableReference (a : Database.Action) (u : Database.State) :
    (s.withDatabase a u).tableReference = s.tableReference := rfl

@[simp] lemma withDatabase_dbCallbackRan (a : Database.Action) (u : Database.State) :
    (s.withDatabase a u).dbCallbackRan = s.dbCallbackRan := rfl

@[simp] lemma withDatabase_frames (a : Database.Action) (u : Database.State) :
    (s.withDatabase a u).frames = s.frames := rfl

@[simp] lemma withDatabase_invoked (a : Database.Action) (u : Database.State) :
    (s.withDatabase a u).invoked = s.invoked := rfl

@[simp] lemma afterMain_database (pc : MainPC) : (s.afterMain pc).database = s.database := by
  unfold afterMain
  split <;> rfl

@[simp] lemma afterMain_tableReference (pc : MainPC) :
    (s.afterMain pc).tableReference = s.tableReference := by
  unfold afterMain
  split <;> rfl

@[simp] lemma afterMain_dbCallbackRan (pc : MainPC) :
    (s.afterMain pc).dbCallbackRan = s.dbCallbackRan := by
  unfold afterMain
  split <;> rfl

@[simp] lemma afterMain_invoked (pc : MainPC) : (s.afterMain pc).invoked = s.invoked := by
  unfold afterMain
  split <;> rfl

/-- An operation that returns changes the innermost frame at most, and only to hand aborted
executions to it. -/
lemma afterMain_frames (pc : MainPC) :
    (s.afterMain pc).frames = s.frames ∨
      ∃ es, (s.afterMain pc).frames = s.frames.modifyHead (Frame.collect es) := by
  unfold afterMain
  split
  · exact .inl rfl
  · exact .inr ⟨_, rfl⟩
  · exact .inr ⟨_, rfl⟩
  · exact .inl rfl

/-- What an effect does to each member. -/
structure Performed (s t : State) (effect : Effect) : Prop where
  frames : t.frames = s.frames
  invoked : t.invoked = s.invoked ++ effect.callback.toList
  tableReference : t.tableReference = (s.tableReference && decide (effect ≠ .think .freeTable))
  dbCallbackRan : t.dbCallbackRan = (s.dbCallbackRan || decide (effect = .think .setCallbackRan))
  running : t.running = effect.finishes.elim s.running s.running.erase
  puts : t.puts = if effect = .think .takeFinishedQueries then [] else s.puts
  putCount : t.putCount = s.putCount
  eventLog : t.eventLog = s.eventLog
  eventsTaken : t.eventsTaken =
    if effect = .think .takeReconnectEvents then s.logged else s.eventsTaken
  database : t.database = s.database ∨
    ∃ m, effect.calls = some m ∧ system.next s.database (.call m) = some t.database

lemma performed (h : s.perform effect = some t) : s.Performed t effect := by
  cases effect with
  | think effect =>
      cases effect with
      | takeReconnectEvents | takeFinishedQueries =>
          obtain ⟨u, hu, rfl⟩ := Option.map_eq_some_iff.1 h
          obtain ⟨v, hv, rfl⟩ := step_eq_some.1 hu
          rw [withDatabase_call]
          refine ⟨rfl, ?_, ?_, ?_, rfl, ?_, rfl, rfl, ?_, .inr ⟨_, rfl, hv⟩⟩ <;>
            simp [Effect.callback]
      | _ =>
          obtain rfl := Option.some.inj h
          refine ⟨rfl, ?_, ?_, ?_, rfl, ?_, rfl, rfl, ?_, .inl rfl⟩ <;> simp [Effect.callback]
  | call m =>
      obtain ⟨v, hv, rfl⟩ := step_eq_some.1 h
      rw [withDatabase_call]
      refine ⟨rfl, ?_, ?_, ?_, rfl, ?_, rfl, rfl, ?_, .inr ⟨m, rfl, hv⟩⟩ <;>
        simp [Effect.callback]
  | runAborted e | finishAborted e =>
      obtain rfl := Option.some.inj h
      refine ⟨rfl, ?_, ?_, ?_, rfl, ?_, rfl, rfl, ?_, .inl rfl⟩ <;> simp [Effect.callback]

end State

/-- A step of this layer that invokes a callback leaves the database underneath alone. -/
lemma invokes_of_next {s t : State} {c : Callback} (h : machine.next s .lua = some t)
    (hc : t.invoked = s.invoked ++ [c]) :
    ∃ f g below, s.frames = f :: below ∧ t.frames = g :: below ∧ f.Invokes s.view c g ∧
      t.database = s.database := by
  cases step_of_next h with
  | environment hb hdatabase => exact absurd hb (by simp)
  | @lua f f' below effect t hidle hframes hnext ht =>
      have hperformed := State.performed ht
      have hcallback : effect.callback = some c := by
        have happend : s.invoked ++ effect.callback.toList = s.invoked ++ [c] :=
          hperformed.invoked.symm.trans hc
        exact Option.toList_eq_singleton_iff.1 (List.append_cancel_left happend)
      obtain ⟨g, rfl, hinvokes⟩ := hnext.invokes hcallback
      refine ⟨f, g, below, hframes, rfl, hinvokes, hperformed.database.resolve_right ?_⟩
      rintro ⟨m, hcalls, -⟩
      cases effect with
      | think effect => cases effect <;> simp [Effect.callback, Effect.calls] at hcallback hcalls
      | _ => simp [Effect.callback, Effect.calls] at hcallback hcalls

/-- The steps of the database underneath that a step can be. -/
def Action.Drives : Action → Database.Action → Prop
  | .worker c, b => b = .worker c
  | .connectionLost, b => b = .connectionLost
  | .main c, b => b = .main c
  | .lua, b | .call _, b => ∃ m, b = .call m

/-- A step moves the database underneath by a step or not at all. -/
lemma Step.database {s t : State} {a : Action} (h : Step s a t) :
    t.database = s.database ∨ ∃ b, a.Drives b ∧ system.next s.database b = some t.database := by
  cases h with
  | environment hb h =>
      refine .inr ⟨_, ?_, h⟩
      rcases hb with ⟨c, rfl, rfl⟩ | ⟨rfl, rfl⟩ <;> rfl
  | main hpc h =>
      rw [State.afterMain_database]
      exact .inr ⟨_, rfl, h⟩
  | lua hidle hframes hnext ht =>
      exact (State.performed ht).database.imp_right fun ⟨m, _, h⟩ => ⟨_, ⟨m, rfl⟩, h⟩
  | call hidle huser hcall =>
      cases callStep_of_call hcall with
      | begin h => exact .inr ⟨_, ⟨_, rfl⟩, h⟩
      | connect h => exact .inr ⟨_, ⟨_, rfl⟩, h⟩
      | start h => exact .inr ⟨_, ⟨_, rfl⟩, h⟩
      | waitQuery he h => exact h.imp_right fun h => ⟨_, ⟨_, rfl⟩, h⟩
      | enter | throw => exact .inl rfl

/-- The database underneath runs as it does on its own: a condition on the steps of this layer
that restricts the steps underneath restricts the run underneath. -/
theorem database_reach {C : State → Action → Prop} {D : Database.State → Database.Action → Prop}
    (hCD : ∀ s a b, C s a → a.Drives b → D s.database b) {s : State} (h : machine.Reach C s) :
    system.Reach D s.database := by
  refine machine_invariant (I := fun s => system.Reach D s.database) .init
    (fun s t a _ hI hC hstep => ?_) h
  rcases hstep.database with hsame | ⟨b, hdrives, hb⟩
  · exact hsame ▸ hI
  · exact .step hI (hCD s a b hC hdrives) hb

theorem database_reachable {C : State → Action → Prop} {s : State} (h : machine.Reach C s) :
    system.Reachable s.database :=
  database_reach (fun _ _ _ _ _ => trivial) h

end GmsvPg.Lua
