/-
# `m_status`

`m_status` is stored to by `connectRun`, by `attemptReconnect` on either thread, by `ping`, by
`connect` and by `shutdown`.  As long as the connection that was made first is intact and
nothing has been shut down, it says `DATABASE_CONNECTED` once `connectRun` has stored it; and
after a failed attempt it says `DATABASE_CONNECTION_FAILED`.
-/
import GmsvPg.Database.Publication
import GmsvPg.Database.BulkAbort

namespace GmsvPg.Database

open Library

/-! ### Where connections are made -/

/-- The points of the worker thread before a connection is made. -/
def WorkerPC.unconnected : WorkerPC → Bool
  | .notStarted => true
  | .connecting .storeSuccess | .connecting .storeDone | .connecting .storeConnected
  | .connecting .unlockConnect => false
  | .connecting _ => true
  | _ => false

/-- `connectRun` has made the connection and not yet stored `m_status`. -/
def WorkerPC.publishing : WorkerPC → Bool
  | .connecting .storeSuccess | .connecting .storeDone | .connecting .storeConnected => true
  | _ => false

/-- `connectRun` has stored the status of a failed attempt. -/
def WorkerPC.failed : WorkerPC → Bool
  | .connecting .failDisconnected | .connecting .failCanWait | .connecting .failClose
  | .connecting (.drain _ _ _ _) | .connecting .failReturn => true
  | _ => false

/-- The worker thread has given up the connection. -/
def RunStage.reconnecting : RunStage → Bool
  | .testAutoReconnect | .reconnectFirst _ | .reconnectAgain _ _ => true
  | _ => false

/-- The worker thread has given up the connection. -/
def WorkerPC.reconnecting : WorkerPC → Bool
  | .running _ r => r.reconnecting
  | _ => false

/-- `ping` has failed. -/
def MainPC.pingFailed : MainPC → Bool
  | .ping .testStatus | .ping .storeNotConnected | .ping .testAutoReconnect
  | .ping (.reconnect _) => true
  | _ => false

/-- `ping` has failed and found that `m_status` was `DATABASE_CONNECTED`. -/
def MainPC.pingStores : MainPC → Bool
  | .ping .storeNotConnected | .ping .testAutoReconnect | .ping (.reconnect _) => true
  | _ => false

/-- The first connection is still the connection of the session, and has not been lost. -/
def Shared.intact (s : Shared) : Bool :=
  decide (s.session.connectionHandle = some 0) && s.session.connectionOk

namespace Shared

variable {s : Shared} {a : Access}

lemma apply_dbStatus (h : ∀ v, a ≠ .setDatabaseStatus v) : (s.apply a).status = s.status := by
  cases a with
  | connectSession error => cases error <;> rfl
  | setDatabaseStatus v => exact absurd rfl (h v)
  | _ => rfl

lemma apply_session (h : a.ofSession = false) : (s.apply a).session = s.session := by
  cases a with
  | resetSession | connectSession => exact absurd h (by simp [Access.ofSession])
  | _ => rfl

lemma le_connections_apply : s.connections ≤ (s.apply a).connections := by
  cases a with
  | connectSession error =>
      cases error with
      | none => exact Nat.le_succ _
      | some error => exact Nat.le_refl _
  | _ => exact Nat.le_refl _

lemma apply_connections_of_ne (h : a ≠ .connectSession none) :
    (s.apply a).connections = s.connections := by
  cases a with
  | connectSession error =>
      cases error with
      | none => exact absurd rfl h
      | some error => rfl
  | _ => rfl

/-- A connection that is made later is not the first. -/
lemma intact_of_apply (h : (s.apply a).intact = true) (hcount : 1 ≤ s.connections) :
    s.intact = true := by
  cases a with
  | resetSession => exact absurd h (by simp [intact, apply])
  | connectSession error =>
      cases error with
      | none =>
          have hzero : s.connections = 0 := by simpa [intact, apply] using h
          omega
      | some error => exact absurd h (by simp [intact, apply])
  | _ => exact h

end Shared

lemma handle_of_intact {s : Shared} (h : s.intact = true) :
    s.session.connectionHandle = some 0 := by
  have h : s.session.connectionHandle = some 0 ∧ s.session.connectionOk = true := by
    simpa [Shared.intact] using h
  exact h.1

lemma intact_isOpen {s : Shared} (h : s.intact = true) : s.session.isOpen = true := by
  obtain ⟨hhandle, hok⟩ : s.session.connectionHandle = some 0 ∧ s.session.connectionOk = true := by
    simpa [Shared.intact] using h
  simp [ConnectionSession.isOpen, hhandle, hok]

/-! ### What the threads store -/

/-- Outside a reconnection, the code for an execution stores no status of the database and
leaves the session alone; a reconnection begins when the connection is found closed, or after
an error that can be retried. -/
lemma RunStage.next_notReconnecting {s : Shared} {c : Choice} {e : Execution} {r : RunStage}
    {a : Access} {pc : WorkerPC} (h : r.next s c e = some (a, pc)) (hr : r.reconnecting = false) :
    a.ofSession = false ∧ (∀ v, a ≠ .setDatabaseStatus v) ∧
      (pc.reconnecting = true → s.session.isOpen = false ∨
        ∃ error, r = .testRetry error ∧
          (s.shouldAutoReconnect && isRetriableError error) = true) := by
  cases r <;> simp only [RunStage.next] at h
  all_goals repeat' split at h
  all_goals cases h
  all_goals simp_all [RunStage.reconnecting, WorkerPC.reconnecting, Access.ofSession]

/-- The main thread stores to `m_status` in three operations. -/
lemma MainPC.next_dbStatus {s : Shared} {c : Choice} {pc pc' : MainPC} {v : DatabaseStatus}
    (h : pc.next s c = some (.setDatabaseStatus v, pc')) :
    pc.pingStores = true ∨ pc = .connect .storeConnecting ∧ v = .connecting ∨
      pc.shutting = true ∧ v = .notConnected := by
  cases pc with
  | enqueue e stage =>
      cases stage <;> simp only [MainPC.next, EnqueueStage.next] at h
      all_goals grind
  | abort e stage =>
      cases stage <;> simp only [MainPC.next, AbortStage.next] at h
      all_goals grind
  | cancel d stage caller =>
      cases stage <;> simp only [MainPC.next, CancelStage.next] at h
      all_goals repeat' split at h
      all_goals grind
  | abortAll stage g =>
      cases stage <;> simp only [MainPC.next, AbortAllStage.next] at h
      all_goals grind
  | shutdown stage join g =>
      cases stage <;> simp only [MainPC.next, ShutdownStage.next] at h
      all_goals grind [MainPC.shutting]
  | waiting e stage =>
      cases stage with
      | complete stage =>
          cases stage <;> simp only [MainPC.next, WaitStage.next, CompleteStage.next] at h
          all_goals grind
      | _ =>
          simp only [MainPC.next, WaitStage.next] at h
          grind
  | ping stage =>
      cases stage <;> simp only [MainPC.next, PingStage.next] at h
      all_goals grind [MainPC.pingStores]
  | connect stage =>
      cases stage <;> simp only [MainPC.next, ConnectCallStage.next] at h
      all_goals grind
  | idle | joining => exact absurd h (by simp [MainPC.next])

/-- `ping` stores to `m_status` only if it found `DATABASE_CONNECTED`. -/
lemma MainPC.next_pingStores {s : Shared} {c : Choice} {pc pc' : MainPC} {a : Access}
    (h : pc.next s c = some (a, pc')) (hpc : pc'.pingStores = true) :
    pc.pingStores = true ∨ s.status = .connected := by
  cases pc' with
  | ping stage' =>
      obtain ⟨stage, rfl⟩ := MainPC.next_source h
      cases stage <;> simp only [MainPC.next, PingStage.next] at h
      all_goals grind [MainPC.pingStores]
  | _ => exact absurd hpc (by simp [pingStores])

/-- `ping` fails when the session is not open, or when `SELECT 1` fails. -/
lemma MainPC.next_pingFailed {s : Shared} {c : Choice} {pc pc' : MainPC} {a : Access}
    (h : pc.next s c = some (a, pc')) (hpc : pc'.pingFailed = true) :
    pc.pingFailed = true ∨ pc = .ping .ping ∧ (s.session.isOpen = false ∨ c = .pinged false) := by
  cases pc' with
  | ping stage' =>
      obtain ⟨stage, rfl⟩ := MainPC.next_source h
      cases stage <;> simp only [MainPC.next, PingStage.next] at h
      all_goals grind [MainPC.pingFailed]
  | _ => exact absurd hpc (by simp [pingFailed])

/-- The main thread connects and resets after a failed `ping` only. -/
lemma MainPC.pingStores_of_ofSession {s : Shared} {c : Choice} {pc pc' : MainPC} {a : Access}
    (h : pc.next s c = some (a, pc')) (ha : a.ofSession = true) : pc.pingStores = true := by
  have hlocked := MainPC.next_ofSession h ha
  cases pc with
  | ping stage =>
      cases stage <;> simp only [MainPC.next, PingStage.next] at h
      all_goals grind [MainPC.pingStores, Access.ofSession]
  | _ => exact absurd hlocked (by simp [locked])

/-- `shutdown` closes the queue. -/
lemma MainPC.next_closeAndClear {s : Shared} {c : Choice} {pc pc' : MainPC}
    (h : pc.next s c = some (.closeAndClear, pc')) : pc.shutting = true := by
  have hmoves := MainPC.next_sweeping h
  cases pc with
  | shutdown stage join g =>
      cases stage <;> simp only [MainPC.next, ShutdownStage.next] at h
      all_goals grind [MainPC.shutting]
  | enqueue e stage =>
      cases stage <;> simp only [MainPC.next, EnqueueStage.next] at h
      all_goals grind
  | abort e stage =>
      cases stage <;> simp only [MainPC.next, AbortStage.next] at h
      all_goals grind
  | cancel d stage caller =>
      cases stage <;> simp only [MainPC.next, CancelStage.next] at h
      all_goals repeat' split at h
      all_goals grind
  | abortAll stage g =>
      cases stage <;> simp only [MainPC.next, AbortAllStage.next] at h
      all_goals grind
  | waiting e stage =>
      cases stage with
      | complete stage =>
          cases stage <;> simp only [MainPC.next, WaitStage.next, CompleteStage.next] at h
          all_goals grind
      | _ =>
          simp only [MainPC.next, WaitStage.next] at h
          grind
  | ping stage =>
      cases stage <;> simp only [MainPC.next, PingStage.next] at h
      all_goals grind [ReconnectStage.next_access]
  | connect stage =>
      cases stage <;> simp only [MainPC.next, ConnectCallStage.next] at h
      all_goals grind
  | idle | joining => exact absurd h (by simp [MainPC.next])

/-- The worker thread makes the first connection in `connectRun`, and others in `run`; only
after the first does it store `DATABASE_CONNECTED`. -/
lemma WorkerPC.next_connects {s : Shared} {c : Choice} {pc pc' : WorkerPC} {a : Access}
    (h : pc.next s c = some (a, pc')) :
    (a = .connectSession none ∧ pc'.unconnected = false ∧
        (pc = .connecting .attemptConnection ∨ pc.unconnected = false)) ∨
      (a ≠ .connectSession none ∧ (pc'.unconnected = true → pc.unconnected = true) ∧
        (pc.unconnected = true → (pc'.unconnected = true ∨ pc = .connecting .failReturn) ∧
          a ≠ .setDatabaseStatus .connected)) := by
  cases pc with
  | running e r =>
      have hpc : pc'.unconnected = false := by
        rcases RunStage.next_pc h with rfl | ⟨r', rfl⟩ <;> rfl
      by_cases ha : a = .connectSession none
      · exact .inl ⟨ha, hpc, .inr rfl⟩
      · exact .inr ⟨ha, fun htrue => absurd (hpc.symm.trans htrue) (by simp), by simp [unconnected]⟩
  | connecting stage =>
      cases stage with
      | drain e' stage rest reason =>
          cases stage <;> simp only [WorkerPC.next, ConnectStage.next, CompleteStage.next] at h
          all_goals cases rest <;> grind [WorkerPC.unconnected, ConnectStage.drainNext]
      | failClose =>
          simp only [WorkerPC.next, ConnectStage.next] at h
          cases hq : s.queue <;> grind [WorkerPC.unconnected, ConnectStage.drainNext]
      | _ =>
          simp only [WorkerPC.next, ConnectStage.next] at h
          repeat' split at h
          all_goals grind [WorkerPC.unconnected]
  | taking =>
      simp only [WorkerPC.next] at h
      grind [WorkerPC.unconnected]
  | leaving stage =>
      cases stage <;> simp only [WorkerPC.next, LeaveStage.next] at h
      all_goals grind [WorkerPC.unconnected]
  | notStarted | ended => exact absurd h (by simp [WorkerPC.next])

/-! ### The number of connections -/

lemma WorkerPC.Publishes.success {pc : WorkerPC} {done success disconnected : Bool}
    (h : pc.Publishes done success disconnected) (hpc : pc.unconnected = false)
    (hended : pc ≠ .ended) : success = true := by
  cases pc with
  | notStarted => exact absurd hpc (by simp [unconnected])
  | connecting stage =>
      cases stage with
      | storeSuccess | storeDone | storeConnected | unlockConnect => exact h.2.1
      | _ => exact absurd hpc (by simp [unconnected])
  | leaving stage => cases stage <;> exact h.2.1
  | taking | running => exact h.2.1
  | ended => exact absurd rfl hended

/-- The thread that ends after a connection leaves `m_success` set. -/
lemma WorkerPC.success_of_ended {s : Shared} {c : Choice} {pc : WorkerPC} {a : Access}
    (h : pc.next s c = some (a, .ended))
    (hpc : pc.Publishes s.connectionDone s.success s.disconnected)
    (hconnected : pc.unconnected = false) : (s.apply a).success = true := by
  have hended : pc ≠ .ended := by
    rintro rfl
    exact absurd h (by simp [WorkerPC.next])
  have hsuccess := hpc.success hconnected hended
  cases pc with
  | leaving stage =>
      cases stage <;> simp only [WorkerPC.next, LeaveStage.next] at h
      all_goals repeat' split at h
      all_goals cases h <;> exact hsuccess
  | running e r =>
      rcases RunStage.next_pc h with hpc' | ⟨r', hpc'⟩ <;> exact absurd hpc' (by simp)
  | taking =>
      simp only [WorkerPC.next] at h
      repeat' split at h
      all_goals exact absurd h (by simp)
  | connecting stage =>
      cases stage with
      | storeSuccess | storeDone | storeConnected | unlockConnect =>
          exact absurd h (by simp [WorkerPC.next, ConnectStage.next])
      | _ => exact absurd hconnected (by simp [unconnected])
  | notStarted | ended => exact absurd h (by simp [WorkerPC.next])

namespace State

variable {C : State → Action → Prop} {s : State}

/-- Whether a connection has ever been made. -/
structure Connections (s : State) : Prop where
  unconnected : s.workerPC.unconnected = true → s.connections = 0
  unsuccessful : s.success = false → s.connections = 0
  established : s.workerPC.unconnected = false → s.success = true → 1 ≤ s.connections
  used : s.session.connectionHandle ≠ none ∨ s.status = .connected ∨
    s.mainPC.pingStores = true → 1 ≤ s.connections

lemma Shared.handle_of_apply {s : Shared} {a : Access} (h : a ≠ .connectSession none)
    (hhandle : (s.apply a).session.connectionHandle ≠ none) :
    s.session.connectionHandle ≠ none := by
  cases a with
  | resetSession => exact absurd rfl hhandle
  | connectSession error =>
      cases error with
      | none => exact absurd rfl h
      | some error => exact absurd rfl hhandle
  | _ => exact hhandle

lemma Shared.status_of_apply {s : Shared} {a : Access} {v : DatabaseStatus}
    (h : (s.apply a).status = v) : s.status = v ∨ a = .setDatabaseStatus v := by
  cases a with
  | connectSession error => cases error <;> exact .inl h
  | setDatabaseStatus v' =>
      obtain rfl : v' = v := h
      exact .inr rfl
  | _ => exact .inl h

theorem connections_of_reach (h : system.Reach C s) : s.Connections := by
  refine system_invariant (I := Connections) ⟨by simp, by simp, by simp [WorkerPC.unconnected],
    by simp [MainPC.pingStores]⟩ (fun s t a hr hI _ hstep => ?_) h
  have hpublishes : s.workerPC.Publishes s.connectionDone s.success s.disconnected :=
    publishes_of_reach hr
  cases hstep with
  | @worker c a pc hnext =>
      have hended : s.workerPC ≠ .ended := by
        intro hpc
        rw [hpc] at hnext
        exact absurd hnext (by simp [WorkerPC.next])
      have hafter : pc.Publishes (s.stepWorker a pc).connectionDone (s.stepWorker a pc).success
          (s.stepWorker a pc).disconnected := WorkerPC.next_publishes hnext hpublishes
      have hmono : s.connections ≤ (s.stepWorker a pc).connections := Shared.le_connections_apply
      rcases WorkerPC.next_connects hnext with ⟨rfl, hpc, hbefore⟩ | ⟨hne, hback, hearly⟩
      · -- a connection has been made
        have hsuccess : s.success = true := by
          rcases hbefore with hbefore | hbefore
          · exact (hbefore ▸ hpublishes : WorkerPC.Publishes _ _ _ (.connecting .attemptConnection)).2.1
          · exact hpublishes.success hbefore hended
        have hpos : 1 ≤ (s.stepWorker (.connectSession none) pc).connections :=
          Nat.succ_le_succ (Nat.zero_le _)
        exact ⟨fun htrue => absurd (hpc.symm.trans htrue) (by simp),
          fun hfalse => absurd (hsuccess.symm.trans hfalse) (by simp), fun _ _ => hpos, fun _ => hpos⟩
      · have hcount : (s.stepWorker a pc).connections = s.connections :=
          Shared.apply_connections_of_ne hne
        cases hpc : s.workerPC.unconnected with
        | false =>
            have hpos := hI.established hpc (hpublishes.success hpc hended)
            have hsuccess : pc.unconnected = false := by
              refine Bool.eq_false_iff.2 fun htrue => ?_
              exact absurd ((hback htrue).symm.trans hpc) (by simp)
            refine ⟨fun htrue => absurd (hsuccess.symm.trans htrue) (by simp), fun hfalse => ?_,
              fun _ _ => hpos.trans hmono, fun _ => hpos.trans hmono⟩
            -- `m_success` is still set
            have hkept : (s.stepWorker a pc).success = true := by
              by_cases hend : pc = .ended
              · have hleave := hnext
                rw [hend] at hleave
                exact (WorkerPC.success_of_ended hleave hpublishes hpc)
              · exact hafter.success hsuccess hend
            exact absurd (hkept.symm.trans hfalse) (by simp)
        | true =>
            have hzero := hI.unconnected hpc
            obtain ⟨hlater, hstatus⟩ := hearly hpc
            have hunused : ¬ 1 ≤ s.connections := by omega
            refine ⟨fun _ => hcount.trans hzero, fun _ => hcount.trans hzero, fun hpc' hsuccess => ?_,
              fun hused => ?_⟩
            · rcases hlater with hlater | hfail
              · exact absurd (hpc'.symm.trans hlater) (by simp)
              · -- the attempt has failed
                rw [hfail] at hnext hpublishes
                obtain ⟨rfl, rfl⟩ := by simpa [WorkerPC.next, ConnectStage.next] using hnext
                exact absurd (hpublishes.2.1.symm.trans hsuccess) (by simp)
            · refine absurd (hI.used ?_) hunused
              rcases hused with hhandle | hconnected | hping
              · exact .inl (Shared.handle_of_apply hne hhandle)
              · exact .inr (.inl ((Shared.status_of_apply hconnected).resolve_right hstatus))
              · exact .inr (.inr hping)
  | @main c a pc hspawn hnext =>
      have hsuccess : (s.stepMain a pc).success = s.success :=
        (Shared.apply_flags (MainPC.next_ofConnectRun hnext)).2.1
      have hmono : s.connections ≤ (s.stepMain a pc).connections := Shared.le_connections_apply
      by_cases hpos : 1 ≤ s.connections
      · refine ⟨fun htrue => ?_, fun hfalse => ?_, fun _ _ => hpos.trans hmono,
          fun _ => hpos.trans hmono⟩
        · have hzero := hI.unconnected htrue
          omega
        · have hzero := hI.unsuccessful (hsuccess ▸ hfalse)
          omega
      · -- the main thread connects only if there has been a connection
        have hping : s.mainPC.pingStores = false :=
          Bool.eq_false_iff.2 fun htrue => hpos (hI.used (.inr (.inr htrue)))
        have hne : a ≠ .connectSession none := by
          rintro rfl
          exact absurd (hping.symm.trans (MainPC.pingStores_of_ofSession hnext rfl)) (by simp)
        have hcount : (s.stepMain a pc).connections = s.connections :=
          Shared.apply_connections_of_ne hne
        refine ⟨fun htrue => hcount.trans (hI.unconnected htrue),
          fun hfalse => hcount.trans (hI.unsuccessful (hsuccess ▸ hfalse)),
          fun hpc htrue => hcount ▸ hI.established hpc (hsuccess ▸ htrue), fun hused => ?_⟩
        refine absurd (hI.used ?_) hpos
        rcases hused with hhandle | hconnected | hping'
        · exact .inl (Shared.handle_of_apply hne hhandle)
        · rcases Shared.status_of_apply hconnected with hconnected | rfl
          · exact .inr (.inl hconnected)
          · rcases MainPC.next_dbStatus hnext with hping' | ⟨-, hv⟩ | ⟨-, hv⟩
            · exact .inr (.inr hping')
            · exact absurd hv (by simp)
            · exact absurd hv (by simp)
        · rcases MainPC.next_pingStores hnext hping' with hping' | hconnected
          · exact .inr (.inr hping')
          · exact .inr (.inl hconnected)
  | spawn hpc =>
      have hworker := ((startedOnce hr).connecting _ hpc (by simp) (by simp)).1
      have hunconnected : s.workerPC.unconnected = true := by rw [hworker]; rfl
      refine ⟨fun _ => hI.unconnected hunconnected, hI.unsuccessful,
        by simp [WorkerPC.unconnected], fun hused => hI.used (hused.imp_right fun h => h.imp_right ?_)⟩
      exact fun htrue => absurd htrue (by simp [MainPC.pingStores])
  | join hpc hworker =>
      refine ⟨hI.unconnected, hI.unsuccessful, hI.established, fun hused => hI.used ?_⟩
      exact hused.imp_right fun h => h.imp_right fun htrue =>
        absurd htrue (by simp [MainPC.pingStores])
  | call hidle hcall =>
      cases hcall with
      | start =>
          refine ⟨hI.unconnected, hI.unsuccessful, hI.established, fun hused => hI.used ?_⟩
          exact hused.imp_right fun h => h.imp_right fun htrue =>
            absurd htrue (by simp [MainPC.pingStores])
      | enter hentry =>
          refine ⟨hI.unconnected, hI.unsuccessful, hI.established, fun hused => hI.used ?_⟩
          refine hused.imp_right fun h => h.imp_right fun htrue => ?_
          cases hentry <;> exact absurd htrue (by simp [MainPC.pingStores])
      | _ => exact ⟨hI.unconnected, hI.unsuccessful, hI.established, hI.used⟩
  | connectionLost => exact ⟨hI.unconnected, hI.unsuccessful, hI.established, hI.used⟩

end State

/-! ### The closed queue -/

/-- `connectRun` has closed the queue after a failed attempt, or has ended. -/
def WorkerPC.gaveUp : WorkerPC → Bool
  | .connecting (.drain _ _ _ _) | .connecting .failReturn | .ended => true
  | _ => false

lemma Shared.closed_of_apply {s : Shared} {a : Access} (h : (s.apply a).closed = true) :
    s.closed = true ∨ a = .closeAndClear := by
  cases a with
  | connectSession error => cases error <;> exact .inl h
  | closeAndClear => exact .inr rfl
  | put e =>
      refine .inl ?_
      simp only [apply, record, setQueue, closed, BlockingQueue.put] at h ⊢
      split at h
      · assumption
      · exact h
  | _ => exact .inl h

/-- The worker thread closes the queue after a failed attempt, and leaves it when it is
closed. -/
lemma WorkerPC.next_gaveUp {s : Shared} {c : Choice} {pc pc' : WorkerPC} {a : Access}
    (h : pc.next s c = some (a, pc')) :
    (a = .closeAndClear ∨ pc.gaveUp = true → pc'.gaveUp = true) ∧
      ∀ l, pc' = .leaving l → (∃ l', pc = .leaving l') ∨ pc = .taking ∧ s.closed = true := by
  cases pc with
  | running e r =>
      have hne : a ≠ .closeAndClear := by
        cases r <;> simp only [WorkerPC.next, RunStage.next] at h
        all_goals repeat' split at h
        all_goals grind [ReconnectStage.next_access]
      refine ⟨fun hor => absurd hor (by simp [hne, gaveUp]), fun l hl => ?_⟩
      rcases RunStage.next_pc h with hpc | ⟨r', hpc⟩ <;> exact absurd (hl.symm.trans hpc) (by simp)
  | connecting stage =>
      cases stage with
      | drain e' stage rest reason =>
          cases stage <;> simp only [WorkerPC.next, ConnectStage.next, CompleteStage.next] at h
          all_goals cases rest <;> grind [WorkerPC.gaveUp, ConnectStage.drainNext]
      | failClose =>
          simp only [WorkerPC.next, ConnectStage.next] at h
          cases hq : s.queue <;> grind [WorkerPC.gaveUp, ConnectStage.drainNext]
      | _ =>
          simp only [WorkerPC.next, ConnectStage.next] at h
          repeat' split at h
          all_goals grind [WorkerPC.gaveUp]
  | taking =>
      simp only [WorkerPC.next] at h
      grind [WorkerPC.gaveUp]
  | leaving stage =>
      cases stage <;> simp only [WorkerPC.next, LeaveStage.next] at h
      all_goals grind [WorkerPC.gaveUp]
  | notStarted | ended => exact absurd h (by simp [WorkerPC.next])

namespace State

variable {C : State → Action → Prop} {s : State}

/-- Who has closed the queue; the worker thread leaves `run` after `shutdown` only. -/
structure ClosedBy (s : State) : Prop where
  closed : s.closed = true → s.shuttingDown = true ∨ s.workerPC.gaveUp = true
  leaving : ∀ l, s.workerPC = .leaving l → s.shuttingDown = true

theorem closedBy_of_reach (h : system.Reach C s) : s.ClosedBy := by
  refine system_invariant (I := ClosedBy) ⟨fun h => absurd h (by simp [Shared.closed]), by simp⟩
    (fun s t a hr hI _ hstep => ?_) h
  cases hstep with
  | @worker c a pc hnext =>
      obtain ⟨hgave, hleaving⟩ := WorkerPC.next_gaveUp hnext
      refine ⟨fun hclosed => ?_, fun l hl => Shared.apply_shuttingDown ?_⟩
      · rcases Shared.closed_of_apply hclosed with hclosed | rfl
        · rcases hI.closed hclosed with hdown | hgaveUp
          · exact .inl (Shared.apply_shuttingDown hdown)
          · exact .inr (hgave (.inr hgaveUp))
        · exact .inr (hgave (.inl rfl))
      · rcases hleaving l hl with ⟨l', hl'⟩ | ⟨htaking, hclosed⟩
        · exact hI.leaving l' hl'
        · refine (hI.closed hclosed).resolve_right ?_
          simp [htaking, WorkerPC.gaveUp]
  | @main c a pc hspawn hnext =>
      refine ⟨fun hclosed => ?_, fun l hl => Shared.apply_shuttingDown (hI.leaving l hl)⟩
      rcases Shared.closed_of_apply hclosed with hclosed | rfl
      · exact (hI.closed hclosed).imp_left Shared.apply_shuttingDown
      · have hdown := (sweeping_of_reach hr).shuttingDown (MainPC.next_closeAndClear hnext)
        exact .inl (Shared.apply_shuttingDown hdown)
  | spawn hpc =>
      refine ⟨fun hclosed => (hI.closed hclosed).imp_right fun hgave => ?_, by simp⟩
      have hworker := ((startedOnce hr).connecting _ hpc (by simp) (by simp)).1
      exact absurd (hworker ▸ hgave) (by simp [WorkerPC.gaveUp])
  | join hpc hworker => exact ⟨hI.closed, hI.leaving⟩
  | call hidle hcall =>
      cases hcall with
      | swapToFront =>
          refine ⟨fun hclosed => hI.closed ?_, hI.leaving⟩
          exact (BlockingQueue.swapToFrontIf_closed _ _).symm.trans hclosed
      | _ => exact ⟨hI.closed, hI.leaving⟩
  | connectionLost => exact ⟨hI.closed, hI.leaving⟩

end State

/-- How `connectRun` fails and how the worker thread ends. -/
lemma WorkerPC.next_failed {s : Shared} {c : Choice} {pc pc' : WorkerPC} {a : Access}
    (h : pc.next s c = some (a, pc')) :
    (pc'.failed = true →
        pc = .connecting .failStatus ∧ a = .setDatabaseStatus .connectionFailed ∨
          pc.failed = true ∧ ∀ v, a ≠ .setDatabaseStatus v) ∧
      (pc' = .ended → pc = .connecting .failReturn ∧ a = .unlockConnect ∨ ∃ l, pc = .leaving l) := by
  cases pc with
  | running e r =>
      rcases RunStage.next_pc h with rfl | ⟨r', rfl⟩ <;> simp [failed]
  | connecting stage =>
      cases stage with
      | drain e' stage rest reason =>
          cases stage <;> simp only [WorkerPC.next, ConnectStage.next, CompleteStage.next] at h
          all_goals cases rest <;> grind [WorkerPC.failed, ConnectStage.drainNext]
      | failClose =>
          simp only [WorkerPC.next, ConnectStage.next] at h
          cases hq : s.queue <;> grind [WorkerPC.failed, ConnectStage.drainNext]
      | _ =>
          simp only [WorkerPC.next, ConnectStage.next] at h
          repeat' split at h
          all_goals grind [WorkerPC.failed]
  | taking =>
      simp only [WorkerPC.next] at h
      grind [WorkerPC.failed]
  | leaving stage =>
      cases stage <;> simp only [WorkerPC.next, LeaveStage.next] at h
      all_goals grind [WorkerPC.failed]
  | notStarted | ended => exact absurd h (by simp [WorkerPC.next])

lemma MainPC.locked_of_pingFailed {pc : MainPC} (h : pc.pingFailed = true) :
    pc.locked = true := by
  cases pc with
  | ping stage => cases stage <;> first | rfl | exact absurd h (by simp [pingFailed])
  | _ => exact absurd h (by simp [pingFailed])

lemma MainPC.pingFailed_of_pingStores {pc : MainPC} (h : pc.pingStores = true) :
    pc.pingFailed = true := by
  cases pc with
  | ping stage => cases stage <;> first | rfl | exact absurd h (by simp [pingStores])
  | _ => exact absurd h (by simp [pingStores])

/-! ### The status of an intact connection -/

/-- A connection is given up though it is open: `SELECT 1` fails on it, or the worker thread
retries after an error that says nothing about it. -/
def State.abandons (s : State) : Action → Bool
  | .worker _ =>
      match s.workerPC with
      | .running _ (.testRetry error) =>
          s.shouldAutoReconnect && isRetriableError error && s.session.isOpen
      | _ => false
  | .main (.pinged false) => decide (s.mainPC = .ping .ping) && s.session.isOpen
  | _ => false

/-- The condition on a step under which open connections are kept. -/
def KeepsOpen (s : State) (a : Action) : Prop := s.abandons a = false

instance (s : State) (a : Action) : Decidable (KeepsOpen s a) :=
  inferInstanceAs (Decidable (_ = false))

namespace State

variable {s : State}

/-- What `m_status` says. -/
structure StatusKept (s : State) : Prop where
  intact : s.shuttingDown = false → s.intact = true →
    s.workerPC.reconnecting = false ∧ s.mainPC.pingFailed = false ∧
      (s.workerPC.publishing = true ∨ s.status = .connected)
  failed : s.shuttingDown = false →
    s.workerPC.failed = true ∨ s.workerPC = .ended ∧ s.success = false →
      s.status = .connectionFailed

lemma unused_of_connections {C : State → Action → Prop} (hr : system.Reach C s)
    (h : ¬ 1 ≤ s.connections) :
    s.session.connectionHandle = none ∧ s.status ≠ .connected ∧ s.mainPC.pingStores = false := by
  have hused := mt (connections_of_reach hr).used h
  push Not at hused
  exact ⟨hused.1, hused.2.1, Bool.eq_false_iff.2 hused.2.2⟩

/-- The worker thread keeps `m_status` at an intact connection. -/
lemma StatusKept.worker {c : Choice} {a : Access} {pc : WorkerPC} (hr : system.Reach KeepsOpen s)
    (hI : s.StatusKept) (hC : KeepsOpen s (.worker c))
    (hnext : s.workerPC.next s.toShared c = some (a, pc)) : (s.stepWorker a pc).StatusKept := by
  have hpublishes : s.workerPC.Publishes s.connectionDone s.success s.disconnected :=
    publishes_of_reach hr
  have hconnections := connections_of_reach hr
  have hdown : (s.stepWorker a pc).shuttingDown = false → s.shuttingDown = false := fun hfalse =>
    Bool.eq_false_iff.2 fun htrue =>
      absurd ((Shared.apply_shuttingDown htrue).symm.trans hfalse) (by simp)
  refine ⟨fun hfalse hintact => ?_, fun hfalse hfailed => ?_⟩
  · by_cases hpos : 1 ≤ s.connections
    · have hintact' : s.intact = true := Shared.intact_of_apply hintact hpos
      obtain ⟨hrec, hping, hor⟩ := hI.intact (hdown hfalse) hintact'
      cases hw : s.workerPC with
      | running e r =>
          rw [hw] at hnext hrec hor
          obtain ⟨-, hstatus, hbegins⟩ := RunStage.next_notReconnecting hnext hrec
          have hkept : (s.stepWorker a pc).status = s.status := Shared.apply_dbStatus hstatus
          refine ⟨Bool.eq_false_iff.2 fun hbegin => ?_, hping, .inr (hkept.trans ?_)⟩
          · rcases hbegins hbegin with hclosed | ⟨error, rfl, hretry⟩
            · exact absurd ((intact_isOpen hintact').symm.trans hclosed) (by simp)
            · exact absurd hC (by simp [KeepsOpen, abandons, hw, hretry, intact_isOpen hintact'])
          · exact hor.resolve_left (by simp [WorkerPC.publishing])
      | connecting stage =>
          have hconnected : s.workerPC.unconnected = false := Bool.eq_false_iff.2 fun htrue => by
            have hzero := hconnections.unconnected htrue
            omega
          rw [hw] at hnext hor hconnected
          cases stage with
          | storeSuccess | storeDone =>
              obtain ⟨rfl, rfl⟩ := by simpa [WorkerPC.next, ConnectStage.next] using hnext
              exact ⟨rfl, hping, .inl rfl⟩
          | storeConnected =>
              obtain ⟨rfl, rfl⟩ := by simpa [WorkerPC.next, ConnectStage.next] using hnext
              exact ⟨rfl, hping, .inr rfl⟩
          | unlockConnect =>
              obtain ⟨rfl, rfl⟩ := by simpa [WorkerPC.next, ConnectStage.next] using hnext
              exact ⟨rfl, hping, .inr (hor.resolve_left (by simp [WorkerPC.publishing]))⟩
          | _ => exact absurd hconnected (by simp [WorkerPC.unconnected])
      | taking =>
          rw [hw] at hnext hor
          have hconnected := hor.resolve_left (by simp [WorkerPC.publishing])
          simp only [WorkerPC.next] at hnext
          repeat' split at hnext
          all_goals cases hnext
          all_goals exact ⟨rfl, hping, .inr hconnected⟩
      | leaving l =>
          have htrue := (closedBy_of_reach hr).leaving l hw
          exact absurd (htrue.symm.trans (hdown hfalse)) (by simp)
      | notStarted | ended =>
          rw [hw] at hnext
          exact absurd hnext (by simp [WorkerPC.next])
    · -- the first connection is being made
      obtain ⟨hhandle, -, -⟩ := unused_of_connections hr hpos
      obtain rfl : a = .connectSession none := by
        by_contra hne
        refine Shared.handle_of_apply (s := s.toShared) hne ?_ hhandle
        change (s.stepWorker a pc).session.connectionHandle ≠ none
        have hsome : (s.stepWorker a pc).session.connectionHandle = some 0 :=
          handle_of_intact hintact
        rw [hsome]
        simp
      have hended : s.workerPC ≠ .ended := by
        intro hw
        rw [hw] at hnext
        exact absurd hnext (by simp [WorkerPC.next])
      rcases WorkerPC.next_connects hnext with ⟨-, -, hw | hconnected⟩ | ⟨hne, -⟩
      · have hfree : s.queryMutex = none ∧ pc = .connecting .storeSuccess := by
          rw [hw] at hnext
          simp only [WorkerPC.next, ConnectStage.next] at hnext
          split at hnext
          · rename_i hmutex
            obtain rfl := by simpa using hnext
            exact ⟨hmutex, rfl⟩
          · exact absurd hnext (by simp)
          · exact absurd hnext (by simp)
        obtain ⟨hmutex, rfl⟩ := hfree
        refine ⟨rfl, Bool.eq_false_iff.2 fun hping => ?_, .inl rfl⟩
        have hlocked := (locked_of_reach hr).main (MainPC.locked_of_pingFailed hping)
        exact absurd (hlocked.symm.trans hmutex) (by simp)
      · exact absurd (hconnections.established hconnected (hpublishes.success hconnected hended)) hpos
      · exact absurd rfl hne
  · obtain ⟨hfail, hend⟩ := WorkerPC.next_failed hnext
    rcases hfailed with hpc | ⟨hpc, hsuccess⟩
    · rcases hfail hpc with ⟨-, rfl⟩ | ⟨hbefore, hstatus⟩
      · rfl
      · have hkept : (s.stepWorker a pc).status = s.status := Shared.apply_dbStatus hstatus
        exact hkept.trans (hI.failed (hdown hfalse) (.inl hbefore))
    · rcases hend hpc with ⟨hw, rfl⟩ | ⟨l, hw⟩
      · exact hI.failed (hdown hfalse) (.inl (by rw [hw]; rfl))
      · have htrue := (closedBy_of_reach hr).leaving l hw
        exact absurd (htrue.symm.trans (hdown hfalse)) (by simp)

/-- So does the main thread. -/
lemma StatusKept.main {c : Choice} {a : Access} {pc : MainPC} (hr : system.Reach KeepsOpen s)
    (hI : s.StatusKept) (hC : KeepsOpen s (.main c))
    (hnext : s.mainPC.next s.toShared c = some (a, pc)) : (s.stepMain a pc).StatusKept := by
  have hconnections := connections_of_reach hr
  have hdown : (s.stepMain a pc).shuttingDown = false → s.shuttingDown = false := fun hfalse =>
    Bool.eq_false_iff.2 fun htrue =>
      absurd ((Shared.apply_shuttingDown htrue).symm.trans hfalse) (by simp)
  -- a store that is not one of `ping` comes before the worker thread or after `shutdown`
  have hstatus : s.shuttingDown = false → s.mainPC.pingStores = false →
      s.workerPC ≠ .notStarted → (s.stepMain a pc).status = s.status := by
    intro hfalse hping hstarted
    refine Shared.apply_dbStatus fun v => ?_
    rintro rfl
    rcases MainPC.next_dbStatus hnext with hstores | ⟨hpc, -⟩ | ⟨hshutting, -⟩
    · exact absurd (hstores.symm.trans hping) (by simp)
    · exact hstarted ((startedOnce hr).connecting _ hpc (by simp) (by simp)).1
    · have htrue := (sweeping_of_reach hr).shuttingDown hshutting
      exact absurd (htrue.symm.trans hfalse) (by simp)
  refine ⟨fun hfalse hintact => ?_, fun hfalse hfailed => ?_⟩
  · by_cases hpos : 1 ≤ s.connections
    · have hintact' : s.intact = true := Shared.intact_of_apply hintact hpos
      obtain ⟨hrec, hping, hor⟩ := hI.intact (hdown hfalse) hintact'
      have hstores : s.mainPC.pingStores = false := Bool.eq_false_iff.2 fun htrue =>
        absurd ((MainPC.pingFailed_of_pingStores htrue).symm.trans hping) (by simp)
      have hstarted : s.workerPC ≠ .notStarted := by
        intro hw
        have hzero := hconnections.unconnected (by rw [hw]; rfl)
        omega
      refine ⟨hrec, Bool.eq_false_iff.2 fun hfailed => ?_, ?_⟩
      · rcases MainPC.next_pingFailed hnext hfailed with hbefore | ⟨hpc, hclosed | rfl⟩
        · exact absurd (hbefore.symm.trans hping) (by simp)
        · exact absurd ((intact_isOpen hintact').symm.trans hclosed) (by simp)
        · exact absurd hC (by simp [KeepsOpen, abandons, hpc, intact_isOpen hintact'])
      · rw [hstatus (hdown hfalse) hstores hstarted]
        exact hor
    · obtain ⟨hhandle, -, hping⟩ := unused_of_connections hr hpos
      have hsome : (s.toShared.apply a).session.connectionHandle = some 0 :=
        handle_of_intact (s := (s.stepMain a pc).toShared) hintact
      refine absurd hhandle (Shared.handle_of_apply ?_ (by rw [hsome]; simp))
      rintro rfl
      exact absurd ((MainPC.pingStores_of_ofSession hnext rfl).symm.trans hping) (by simp)
  · have hsuccess : (s.stepMain a pc).success = s.success :=
      (Shared.apply_flags (MainPC.next_ofConnectRun hnext)).2.1
    have hfailed : s.workerPC.failed = true ∨ s.workerPC = .ended ∧ s.success = false :=
      hfailed.imp_right fun h => ⟨h.1, hsuccess ▸ h.2⟩
    have hzero : s.connections = 0 := by
      rcases hfailed with hw | ⟨-, hw⟩
      · refine hconnections.unconnected ?_
        cases hpc : s.workerPC with
        | connecting stage =>
            cases stage <;> first | rfl | exact absurd (hpc ▸ hw) (by simp [WorkerPC.failed])
        | _ => exact absurd (hpc ▸ hw) (by simp [WorkerPC.failed])
      · exact hconnections.unsuccessful hw
    obtain ⟨-, -, hping⟩ := unused_of_connections hr (by omega)
    have hstarted : s.workerPC ≠ .notStarted := by
      rintro hw
      rcases hfailed with hf | ⟨hf, -⟩
      · exact absurd (hw ▸ hf) (by simp [WorkerPC.failed])
      · exact absurd (hw.symm.trans hf) (by simp)
    rw [hstatus (hdown hfalse) hping hstarted]
    exact hI.failed (hdown hfalse) hfailed

theorem statusKept_of_reach (h : system.Reach KeepsOpen s) : s.StatusKept := by
  refine system_invariant (I := StatusKept) ⟨by simp [Shared.intact], by simp [WorkerPC.failed]⟩
    (fun s t a hr hI hC hstep => ?_) h
  cases hstep with
  | worker hnext => exact hI.worker hr hC hnext
  | main hspawn hnext => exact hI.main hr hC hnext
  | spawn hpc =>
      have hworker := ((startedOnce hr).connecting _ hpc (by simp) (by simp)).1
      have hzero := (connections_of_reach hr).unconnected (by rw [hworker]; rfl)
      obtain ⟨hhandle, -, -⟩ := unused_of_connections hr (by omega)
      exact ⟨fun _ hintact => absurd hintact (by simp [Shared.intact, hhandle]),
        by simp [WorkerPC.failed]⟩
  | join hpc hworker =>
      exact ⟨fun hfalse hintact => ⟨(hI.intact hfalse hintact).1, rfl, (hI.intact hfalse hintact).2.2⟩,
        hI.failed⟩
  | call hidle hcall =>
      cases hcall with
      | start =>
          exact ⟨fun hfalse hintact =>
            ⟨(hI.intact hfalse hintact).1, rfl, (hI.intact hfalse hintact).2.2⟩, hI.failed⟩
      | enter hentry =>
          refine ⟨fun hfalse hintact =>
            ⟨(hI.intact hfalse hintact).1, ?_, (hI.intact hfalse hintact).2.2⟩, hI.failed⟩
          cases hentry <;> rfl
      | _ => exact ⟨hI.intact, hI.failed⟩
  | connectionLost => exact ⟨fun _ hintact => absurd hintact (by simp [Shared.intact]), hI.failed⟩

end State

end GmsvPg.Database
