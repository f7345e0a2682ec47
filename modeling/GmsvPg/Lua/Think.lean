/-
# `LuaDatabase::think`

The control flow of `think`, for every place that runs it: the Think hook, `db:wait()`,
`query:wait()` and `db:disconnect(true)`.  A point stands between two things `think` does that
anything else can notice: a read of shared state, a call of user code, a store to its own
members.  At the points whose name begins with `in` a callback is running, which may call
`think` again.
-/
import GmsvPg.Postgres.IQuery

namespace GmsvPg.Lua

/-- The callbacks of a database table; a reconnect event is known by its position among all
that were logged. -/
inductive DatabaseCallback
  | onConnected
  | onConnectionFailed
  | onReconnect (event : ℕ)
  | onReconnectFailed (event : ℕ) (error : Text)
  | onDisconnected
deriving DecidableEq, Repr

/-- An entry of the reconnect log, with its position. -/
structure ReconnectEvent where
  position : ℕ
  success : Bool
  error : Text
deriving DecidableEq, Repr

/-- The callback for a reconnect event. -/
def ReconnectEvent.callback (event : ReconnectEvent) : DatabaseCallback :=
  if event.success then .onReconnect event.position
  else .onReconnectFailed event.position event.error

/-- The points of `think`, where `ε` is the type of what `finishedQueries` holds. -/
inductive ThinkStage (ε : Type)
  | testConnectionDone
  | connectionCallback
  | inConnectionCallback
  | testSuccessful
  | takeReconnectEvents
  | reconnectEvents (rest : List ReconnectEvent)
  | inReconnectCallback (rest : List ReconnectEvent)
  | takeFinishedQueries
  | finishedQueries (rest : List ε)
  | inCallback (current : ε) (rest : List ε)
  | testDisconnected
  | inDisconnectedCallback
deriving DecidableEq, Repr

/-- What `think` does between two points. -/
inductive ThinkEffect (ε : Type)
  /-- a load, or the return of a callback -/
  | read
  /-- `m_dbCallbackRan = true` -/
  | setCallbackRan
  /-- a callback of the database table is invoked -/
  | invoke (callback : DatabaseCallback)
  /-- `takeReconnectEvents` -/
  | takeReconnectEvents
  /-- `takeFinishedQueries` -/
  | takeFinishedQueries
  /-- `runCallback` invokes the callback of an execution -/
  | runCallback (e : ε)
  /-- `finishLuaQueryData`, at the end of `runCallback` -/
  | finishQueryData (e : ε)
  /-- `LuaReferenceFree(m_tableReference)`, `m_tableReference = 0` -/
  | freeTable
deriving DecidableEq, Repr

/-- What `think` reads. -/
structure ThinkView (ε : Type) where
  connectionDone : Bool
  connectionSuccessful : Bool
  disconnected : Bool
  dbCallbackRan : Bool
  /-- `m_tableReference != 0` -/
  hasTable : Bool
  reconnectEvents : List ReconnectEvent
  finishedQueries : List ε

namespace ThinkStage

variable {ε : Type}

/-- A callback is running. -/
def inUserCode : ThinkStage ε → Bool
  | .inConnectionCallback | .inReconnectCallback _ | .inCallback _ _
  | .inDisconnectedCallback => true
  | _ => false

/-- What of a batch of finished executions is still to be delivered. -/
def rest : ThinkStage ε → List ε
  | .finishedQueries rest | .inCallback _ rest => rest
  | _ => []

/-- The reconnect events still to be announced. -/
def events : ThinkStage ε → List ReconnectEvent
  | .reconnectEvents rest | .inReconnectCallback rest => rest
  | _ => []

/-- What `think` does next, and where it then stands; `none` when it returns. -/
def next (v : ThinkView ε) : ThinkStage ε → ThinkEffect ε × Option (ThinkStage ε)
  | .testConnectionDone =>
      if v.connectionDone && !v.dbCallbackRan && v.hasTable then
        (.setCallbackRan, some .connectionCallback)
      else (.read, some .takeReconnectEvents)
  | .connectionCallback =>
      (.invoke (if v.connectionSuccessful then .onConnected else .onConnectionFailed),
        some .inConnectionCallback)
  | .inConnectionCallback => (.read, some .testSuccessful)
  | .testSuccessful =>
      (if v.connectionSuccessful then .read else .freeTable, some .takeReconnectEvents)
  | .takeReconnectEvents =>
      -- without a table the events are dropped
      (.takeReconnectEvents, some (.reconnectEvents (if v.hasTable then v.reconnectEvents else [])))
  | .reconnectEvents [] => (.read, some .takeFinishedQueries)
  | .reconnectEvents (event :: rest) => (.invoke event.callback, some (.inReconnectCallback rest))
  | .inReconnectCallback rest => (.read, some (.reconnectEvents rest))
  | .takeFinishedQueries => (.takeFinishedQueries, some (.finishedQueries v.finishedQueries))
  | .finishedQueries [] => (.read, some .testDisconnected)
  | .finishedQueries (e :: rest) => (.runCallback e, some (.inCallback e rest))
  | .inCallback e rest => (.finishQueryData e, some (.finishedQueries rest))
  | .testDisconnected =>
      if v.disconnected && v.hasTable then (.invoke .onDisconnected, some .inDisconnectedCallback)
      else (.read, none)
  | .inDisconnectedCallback => (.freeTable, none)

end ThinkStage

end GmsvPg.Lua
