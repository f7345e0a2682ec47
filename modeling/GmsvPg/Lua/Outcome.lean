/-
# What a connection callback finds

`onConnected` and `onConnectionFailed` are invoked once `m_connectionDone` is seen, which
`connectRun` stores before `m_status`.  Between the two stores the callback finds
`DATABASE_CONNECTING`, and `serverVersion` throws.  Otherwise `m_status` says what the callback
says, as long as nothing is shut down and no open connection is given up.
-/
import GmsvPg.Lua.LifeCycle
import GmsvPg.Database.ConnectStatus

namespace GmsvPg.Database

/-- The test of `serverVersion`, `serverInfo` and `hostInfo`, which then return a value that
the session has stored. -/
def Shared.requireConnected (s : Shared) (message : Text) : Except Text Unit :=
  if !s.connectionDone || decide (s.status ≠ .connected) then .error message else .ok ()

/-- `Database::serverVersion`. -/
def Shared.serverVersion (s : Shared) : Except Text Unit :=
  s.requireConnected
    "Tried to get server version when client is not connected to server yet!".toList

/-- `Database::serverInfo`. -/
def Shared.serverInfo (s : Shared) : Except Text Unit :=
  s.requireConnected "Tried to get server info when client is not connected to server yet!".toList

/-- `Database::hostInfo`. -/
def Shared.hostInfo (s : Shared) : Except Text Unit :=
  s.requireConnected "Tried to get host info when client is not connected to server yet!".toList

lemma Shared.requireConnected_eq_ok {s : Shared} {message : Text} :
    s.requireConnected message = .ok () ↔ s.connectionDone = true ∧ s.status = .connected := by
  unfold requireConnected
  split
  · rename_i h
    simp only [reduceCtorEq, false_iff, not_and]
    intro hdone hstatus
    simp [hdone, hstatus] at h
  · rename_i h
    simpa using h

end GmsvPg.Database

namespace GmsvPg.Lua

open Library Machine
open Database (Execution Thread Choice MainPC system)

namespace State

/-- `think` invokes a connection callback before `connectRun` has stored `m_status`, or an open
connection is given up. -/
def premature (s : State) : Action → Bool
  | .lua =>
      match s.frames with
      | .think .connectionCallback _ :: _ =>
          decide (s.database.workerPC = .connecting .storeConnected) ||
            decide (s.database.workerPC = .connecting .failStatus)
      | _ => false
  | .worker c => s.database.abandons (.worker c)
  | .main c => s.database.abandons (.main c)
  | _ => false

end State

/-- The condition on a step under which the outcome of connecting is published. -/
def PublishedFirst (s : State) (a : Action) : Prop := s.premature a = false

instance (s : State) (a : Action) : Decidable (PublishedFirst s a) :=
  inferInstanceAs (Decidable (_ = false))

namespace State

variable {C : State → Action → Prop} {s : State}

lemma keepsOpen_of_reach (h : machine.Reach PublishedFirst s) :
    system.Reach Database.KeepsOpen s.database := by
  refine database_reach (fun s a b hC hdrives => ?_) h
  cases a with
  | worker c =>
      obtain rfl := hdrives
      exact hC
  | main c =>
      obtain rfl := hdrives
      exact hC
  | connectionLost =>
      obtain rfl := hdrives
      rfl
  | lua | call f =>
      obtain ⟨m, rfl⟩ := hdrives
      rfl

/-- A connection callback is invoked after `m_connectionDone` was read. -/
def DoneRead (s : State) : Prop :=
  0 < s.frames.countP Frame.atConnection → s.database.connectionDone = true

lemma done_of_setCallbackRan {v : ThinkView Put} {f : Frame} {effect : Effect}
    {f' : Option Frame} (h : f.Moves v effect f')
    (heffect : effect = .think .setCallbackRan) : v.connectionDone = true := by
  cases h with
  | announce hdone hran htable => exact hdone
  | _ => cases heffect

theorem doneRead_of_reach (h : machine.Reach C s) : s.DoneRead := by
  refine machine_invariant (I := DoneRead) (by simp [DoneRead])
    (fun s t a _ hI _ hstep hpos => ?_) h
  have hdone : s.database.connectionDone = true → t.database.connectionDone = true := by
    intro hs
    rcases hstep.database with hsame | ⟨b, -, hb⟩
    · rw [hsame]
      exact hs
    · exact Database.State.connectionDone_of_step (Database.step_of_next hb) hs
  refine hdone ?_
  cases hstep with
  | environment => exact hI hpos
  | main hpc hdatabase =>
      rw [countP_afterMain Frame.atConnection_collect] at hpos
      exact hI hpos
  | @lua f f' below effect t hidle hframes hnext ht =>
      obtain ⟨hle, -⟩ := hnext.connection_le
      have hpos : 0 < (f'.toList ++ below).countP Frame.atConnection := hpos
      rw [List.countP_append] at hpos
      by_cases heffect : effect = .think .setCallbackRan
      · exact done_of_setCallbackRan hnext heffect
      · refine hI ?_
        rw [hframes, ← List.singleton_append, List.countP_append]
        simp only [heffect, decide_false, Bool.toNat_false] at hle
        omega
  | call hidle huser hcall =>
      refine hI ?_
      cases callStep_of_call hcall with
      | begin hdatabase hf hframes =>
          rcases hframes with ⟨rfl, -⟩ | ⟨d, rfl, rfl⟩
          · exact hpos
          · simpa [Frame.atConnection] using hpos
      | waitQuery he hdatabase => simpa [Frame.atConnection] using hpos
      | enter henter =>
          rcases henter with rfl | rfl | ⟨query, -, rfl⟩ <;>
            simpa [push, Frame.atConnection] using hpos
      | connect | start | throw => exact hpos

end State

/-- A connection callback comes from the point after `m_dbCallbackRan` was set, and tells
`m_success`. -/
lemma Frame.Invokes.of_isConnection {v : ThinkView Put} {f g : Frame} {c : Callback}
    (h : f.Invokes v c g) (hc : c.isConnection = true) :
    (∃ waited, f = .think .connectionCallback waited) ∧
      c = .database (if v.connectionSuccessful then .onConnected else .onConnectionFailed) := by
  cases h with
  | @connection waited => exact ⟨⟨waited, rfl⟩, rfl⟩
  | @reconnect event rest waited =>
      cases hevent : event.success <;>
        exact absurd hc (by simp [ReconnectEvent.callback, hevent, Callback.isConnection])
  | _ => exact absurd hc (by simp [Callback.isConnection])

/-- **The outcome of connecting is published** before it is announced, in every run in which
`think` invokes no connection callback between the stores to `m_connectionDone` and `m_status`
and no open connection is given up.  When `onConnected` is invoked, the database has not been
disconnected and its connection is intact, then `status` returns `DATABASE_CONNECTED` and
`serverVersion`, `serverInfo` and `hostInfo` do not throw; when `onConnectionFailed` is
invoked without a disconnection, `status` returns `DATABASE_CONNECTION_FAILED`. -/
theorem outcome_published {s t : State} (h : machine.Reach PublishedFirst s)
    (hC : PublishedFirst s .lua) (hnext : machine.next s .lua = some t) :
    (t.invoked = s.invoked ++ [.database .onConnected] →
      t.database.shuttingDown = false → t.database.intact = true →
        t.database.status = .connected ∧ t.database.serverVersion = .ok () ∧
          t.database.serverInfo = .ok () ∧ t.database.hostInfo = .ok ()) ∧
      (t.invoked = s.invoked ++ [.database .onConnectionFailed] →
        t.database.shuttingDown = false → t.database.status = .connectionFailed) := by
  have hkeeps := State.keepsOpen_of_reach h
  have hstatus := Database.State.statusKept_of_reach hkeeps
  have hpublishes : s.database.workerPC.Publishes s.database.connectionDone s.database.success
      s.database.disconnected := Database.State.publishes_of_reach hkeeps
  -- what is known of the worker thread when a connection callback is invoked
  have hmoment : ∀ c : Callback, c.isConnection = true → t.invoked = s.invoked ++ [c] →
      t.database = s.database ∧ s.database.connectionDone = true ∧
        c = .database (if s.database.success then .onConnected else .onConnectionFailed) ∧
        s.database.workerPC ≠ .connecting .storeConnected ∧
        s.database.workerPC ≠ .connecting .failStatus := by
    intro c hc hinvoked
    obtain ⟨f, g, below, hframes, -, hinvokes, hdatabase⟩ := invokes_of_next hnext hinvoked
    obtain ⟨⟨waited, rfl⟩, hcallback⟩ := hinvokes.of_isConnection hc
    have hpending : 0 < s.frames.countP Frame.atConnection := by
      rw [hframes]
      simp [Frame.atConnection]
    refine ⟨hdatabase, State.doneRead_of_reach h hpending, hcallback, ?_⟩
    have hlate : ¬ (s.database.workerPC = .connecting .storeConnected ∨
        s.database.workerPC = .connecting .failStatus) := by
      simpa [PublishedFirst, State.premature, hframes] using hC
    exact not_or.1 hlate
  refine ⟨fun hinvoked hdown hintact => ?_, fun hinvoked hdown => ?_⟩
  · obtain ⟨hdatabase, hdone, hcallback, hstored, -⟩ := hmoment _ rfl hinvoked
    rw [hdatabase] at hdown hintact ⊢
    have hconnected : s.database.status = .connected := by
      refine (hstatus.intact hdown hintact).2.2.resolve_left fun hpublishing => ?_
      cases hpc : s.database.workerPC with
      | connecting stage =>
          rw [hpc, hdone] at hpublishes
          rw [hpc] at hpublishing
          cases stage with
          | storeSuccess | storeDone => exact absurd hpublishes.1 (by simp)
          | storeConnected => exact hstored hpc
          | _ => exact absurd hpublishing (by simp [Database.WorkerPC.publishing])
      | _ => exact absurd (hpc ▸ hpublishing) (by simp [Database.WorkerPC.publishing])
    have hmay : ∀ message, s.database.requireConnected message = .ok () := fun message =>
      Database.Shared.requireConnected_eq_ok.2 ⟨hdone, hconnected⟩
    exact ⟨hconnected, hmay _, hmay _, hmay _⟩
  · obtain ⟨hdatabase, hdone, hcallback, -, hstored⟩ := hmoment _ rfl hinvoked
    rw [hdatabase] at hdown ⊢
    have hsuccess : s.database.success = false := by
      cases hs : s.database.success with
      | false => rfl
      | true => exact absurd hcallback (by simp [hs])
    refine hstatus.failed hdown ?_
    rw [hdone, hsuccess] at hpublishes
    cases hpc : s.database.workerPC with
    | connecting stage =>
        rw [hpc] at hpublishes
        cases stage with
        | failStatus => exact absurd hpc hstored
        | lockConnect | attemptConnection | failSuccess | storeSuccess | storeDone | failDone =>
            exact absurd hpublishes.1 (by simp)
        | storeConnected | unlockConnect => exact absurd hpublishes.2.1 (by simp)
        | _ => exact .inl rfl
    | ended => exact .inr ⟨rfl, hsuccess⟩
    | leaving l =>
        rw [hpc] at hpublishes
        cases l <;> exact absurd hpublishes.2.1 (by simp)
    | notStarted =>
        rw [hpc] at hpublishes
        exact absurd hpublishes.1 (by simp)
    | taking | running =>
        rw [hpc] at hpublishes
        exact absurd hpublishes.2.1 (by simp)

/-- The connection is made, and `think` is about to invoke `onConnected`. -/
def connectedThinkRun : List Action :=
  connectSteps ++ connectedSteps ++ [.call .think] ++ luaSteps 1

theorem outcome_published_connectedThinkRun :
    ∃ s t, machine.runIf PublishedFirst machine.init connectedThinkRun = some s ∧
      machine.next s .lua = some t ∧ t.invoked = [.database .onConnected] ∧
      t.database.status = .connected ∧ t.database.serverVersion = .ok () ∧
        t.database.serverInfo = .ok () ∧ t.database.hostInfo = .ok () := by
  obtain ⟨s, hs⟩ : ∃ s, machine.runIf PublishedFirst machine.init connectedThinkRun = some s :=
    ⟨_, rfl⟩
  have hcondition : (machine.runIf PublishedFirst machine.init connectedThinkRun).map
      (fun s => (s.premature .lua, s.invoked)) = some (false, []) := rfl
  obtain ⟨hC, hbefore⟩ : s.premature .lua = false ∧ s.invoked = [] := by
    simpa [hs] using hcondition
  obtain ⟨t, ht⟩ : ∃ t, machine.next s .lua = some t := by
    have hsome : ((machine.runIf PublishedFirst machine.init connectedThinkRun).bind
        fun s => machine.next s .lua).isSome = true := rfl
    rw [hs] at hsome
    exact Option.isSome_iff_exists.1 hsome
  have hafter : ((machine.runIf PublishedFirst machine.init connectedThinkRun).bind
      fun s => machine.next s .lua).map
        (fun t => (t.invoked, t.database.shuttingDown, t.database.intact)) =
      some ([.database .onConnected], false, true) := rfl
  obtain ⟨hinvoked, hdown, hintact⟩ : t.invoked = [.database .onConnected] ∧
      t.database.shuttingDown = false ∧ t.database.intact = true := by
    simpa [hs, ht] using hafter
  have houtcome := (outcome_published (reach_of_runIf hs) hC ht).1
  exact ⟨s, t, hs, ht, hinvoked, houtcome (by rw [hinvoked, hbefore]; rfl) hdown hintact⟩

/-- `think` reads `m_connectionDone` and invokes `onConnected` before the worker thread has
stored `m_status`. -/
def earlyThinkRun : List Action :=
  connectSteps ++ [.worker .go, .worker (.connected none)] ++ workerSteps 2 ++ [.call .think] ++
    luaSteps 1

/-- Without the condition `onConnected` can be invoked while the status is still
`DATABASE_CONNECTING`. -/
theorem outcome_unpublished :
    ¬ ∀ s t, machine.Reachable s → machine.next s .lua = some t →
      (t.invoked = s.invoked ++ [.database .onConnected] →
        t.database.shuttingDown = false → t.database.intact = true →
          t.database.status = .connected ∧ t.database.serverVersion = .ok () ∧
            t.database.serverInfo = .ok () ∧ t.database.hostInfo = .ok ()) ∧
      (t.invoked = s.invoked ++ [.database .onConnectionFailed] →
        t.database.shuttingDown = false → t.database.status = .connectionFailed) := by
  intro h
  obtain ⟨s, hs⟩ : ∃ s, machine.run machine.init earlyThinkRun = some s := ⟨_, rfl⟩
  have hbefore : (machine.run machine.init earlyThinkRun).map (·.invoked) = some [] := rfl
  have hbefore : s.invoked = [] := by simpa [hs] using hbefore
  obtain ⟨t, ht⟩ : ∃ t, machine.next s .lua = some t := by
    have hsome : ((machine.run machine.init earlyThinkRun).bind
        fun s => machine.next s .lua).isSome = true := rfl
    rw [hs] at hsome
    exact Option.isSome_iff_exists.1 hsome
  have hafter : ((machine.run machine.init earlyThinkRun).bind
      fun s => machine.next s .lua).map
        (fun t => (t.invoked, t.database.shuttingDown, t.database.intact, t.database.status)) =
      some ([.database .onConnected], false, true, .connecting) := rfl
  obtain ⟨hinvoked, hdown, hintact, hstatus⟩ : t.invoked = [.database .onConnected] ∧
      t.database.shuttingDown = false ∧ t.database.intact = true ∧
        t.database.status = .connecting := by
    simpa [hs, ht] using hafter
  have hconnected :=
    ((h s t (reachable_of_run hs) ht).1 (by rw [hinvoked, hbefore]; rfl) hdown hintact).1
  exact absurd (hstatus.symm.trans hconnected) (by simp)

end GmsvPg.Lua
