/-
# After the worker thread

What the worker thread leaves behind when it ends: a reset session, a status other than
`DATABASE_CONNECTED`, and a queue that is closed and empty.  The main thread goes on calling
the operations of the database.  The only one that could open a session again is `ping`,
which reconnects when it finds `DATABASE_CONNECTED`; but it tests `m_shuttingDown` first, and
without a shutdown the worker thread ends only if no connection was ever made.
-/
import GmsvPg.Database.ConnectStatus
import GmsvPg.Database.Settled

namespace GmsvPg.Database

open Library

/-! ### The end of the worker thread -/

/-- The points of the worker thread at which `queryQueue` is closed for certain. -/
def WorkerPC.pastClose : WorkerPC → Bool
  | .connecting (.drain _ _ _ _) | .connecting .failReturn | .leaving _ | .ended => true
  | _ => false

/-- The points of the worker thread at which it will not touch the session any more. -/
def WorkerPC.pastReset : WorkerPC → Bool
  | .leaving .resetSession => false
  | .leaving _ | .ended => true
  | _ => false

/-- The points of `ping` in `attemptReconnect`, behind its test of `m_shuttingDown`. -/
def MainPC.reopening : MainPC → Bool
  | .ping (.reconnect .testShuttingDown) => false
  | .ping (.reconnect _) => true
  | _ => false

lemma WorkerPC.next_pastClose {s : Shared} {c : Choice} {pc pc' : WorkerPC} {a : Access}
    (h : pc.next s c = some (a, pc')) (hpc : pc'.pastClose = true) :
    pc.pastClose = true ∨ a = .closeAndClear ∨ pc = .taking ∧ s.closed = true := by
  cases pc with
  | running e r =>
      rcases RunStage.next_pc h with rfl | ⟨r', rfl⟩
      · exact absurd hpc (by simp [pastClose])
      · exact absurd hpc (by simp [pastClose])
  | connecting stage =>
      cases stage with
      | drain | failReturn => exact .inl rfl
      | failClose =>
          obtain ⟨rfl, -⟩ := by simpa [WorkerPC.next, ConnectStage.next] using h
          exact .inr (.inl rfl)
      | _ =>
          simp only [WorkerPC.next, ConnectStage.next] at h
          repeat' split at h
          all_goals grind [WorkerPC.pastClose]
  | taking =>
      simp only [WorkerPC.next] at h
      grind [WorkerPC.pastClose]
  | leaving stage => exact .inl rfl
  | notStarted | ended => exact absurd h (by simp [WorkerPC.next])

/-- The worker thread is past the session after the reset at its end, or after a failed
attempt of `connectRun`; then it stores no `DATABASE_CONNECTED` and leaves none. -/
lemma WorkerPC.next_pastReset {s : Shared} {c : Choice} {pc pc' : WorkerPC} {a : Access}
    (h : pc.next s c = some (a, pc')) (hpc : pc'.pastReset = true) :
    pc = .leaving .resetSession ∧ a = .resetSession ∧ pc' ≠ .ended ∨
      pc = .connecting .failReturn ∧ a = .unlockConnect ∨
      pc.pastReset = true ∧ a.ofSession = false ∧
        (pc' = .ended → (s.apply a).status ≠ .connected) := by
  cases pc with
  | running e r =>
      rcases RunStage.next_pc h with rfl | ⟨r', rfl⟩
      · exact absurd hpc (by simp [pastReset])
      · exact absurd hpc (by simp [pastReset])
  | connecting stage =>
      cases stage with
      | failReturn =>
          obtain ⟨rfl, -⟩ := by simpa [WorkerPC.next, ConnectStage.next] using h
          exact .inr (.inl ⟨rfl, rfl⟩)
      | drain e' stage rest reason =>
          cases stage <;> simp only [WorkerPC.next, ConnectStage.next, CompleteStage.next] at h
          all_goals cases rest <;> grind [WorkerPC.pastReset, ConnectStage.drainNext]
      | failClose =>
          simp only [WorkerPC.next, ConnectStage.next] at h
          cases hq : s.queue <;> grind [WorkerPC.pastReset, ConnectStage.drainNext]
      | _ =>
          simp only [WorkerPC.next, ConnectStage.next] at h
          repeat' split at h
          all_goals grind [WorkerPC.pastReset]
  | taking =>
      simp only [WorkerPC.next] at h
      grind [WorkerPC.pastReset]
  | leaving stage =>
      cases stage with
      | resetSession =>
          simp only [WorkerPC.next, LeaveStage.next] at h
          split at h
          · obtain ⟨rfl, rfl⟩ := by simpa using h
            exact .inl ⟨rfl, rfl, by simp⟩
          · exact absurd h (by simp)
      | storeCanWait | storeDisconnected =>
          obtain ⟨rfl, rfl⟩ := by simpa [WorkerPC.next, LeaveStage.next] using h
          exact .inr (.inr ⟨rfl, rfl, by simp⟩)
      | testStatus =>
          simp only [WorkerPC.next, LeaveStage.next] at h
          split at h
          · obtain ⟨rfl, rfl⟩ := by simpa using h
            exact .inr (.inr ⟨rfl, rfl, by simp⟩)
          · rename_i hstatus
            obtain ⟨rfl, rfl⟩ := by simpa using h
            exact .inr (.inr ⟨rfl, rfl, fun _ => hstatus⟩)
      | storeNotConnected =>
          obtain ⟨rfl, rfl⟩ := by simpa [WorkerPC.next, LeaveStage.next] using h
          exact .inr (.inr ⟨rfl, rfl, fun _ => by simp [Shared.apply]⟩)
  | notStarted | ended => exact absurd h (by simp [WorkerPC.next])

/-! ### What the main thread opens -/

/-- `ping` passes the test of `m_shuttingDown` before it reconnects. -/
lemma MainPC.next_reopening {s : Shared} {c : Choice} {pc pc' : MainPC} {a : Access}
    (h : pc.next s c = some (a, pc')) (hpc : pc'.reopening = true) :
    a ≠ .setShuttingDown ∧ (pc.reopening = true ∨ s.shuttingDown = false) := by
  cases pc' with
  | ping stage' =>
      obtain ⟨stage, rfl⟩ := MainPC.next_source h
      cases stage with
      | reconnect r =>
          cases r <;> simp only [MainPC.next, PingStage.next, ReconnectStage.next] at h
          all_goals repeat' split at h
          all_goals grind [MainPC.reopening]
      | _ =>
          -- the other points lead to none of these
          refine absurd hpc (Bool.eq_false_iff.1 ?_)
          simp only [MainPC.next, PingStage.next] at h
          repeat' split at h
          all_goals first | (obtain ⟨-, hstage⟩ := by simpa using h) | exact absurd h (by simp)
          all_goals subst hstage
          all_goals rfl
  | _ => exact absurd hpc (by simp [reopening])

/-- The main thread opens a session, and stores `DATABASE_CONNECTED`, in `ping` only. -/
lemma MainPC.reopening_of_next {s : Shared} {c : Choice} {pc pc' : MainPC} {a : Access}
    (h : pc.next s c = some (a, pc'))
    (ha : a = .connectSession none ∨ a = .setDatabaseStatus .connected) :
    pc.reopening = true ∧ pc.pingStores = true := by
  have hping : pc.pingStores = true := by
    rcases ha with rfl | rfl
    · exact MainPC.pingStores_of_ofSession h rfl
    · rcases MainPC.next_dbStatus h with hping | ⟨-, hv⟩ | ⟨-, hv⟩
      · exact hping
      · exact absurd hv (by simp)
      · exact absurd hv (by simp)
  refine ⟨?_, hping⟩
  cases pc with
  | ping stage =>
      cases stage with
      | reconnect r =>
          cases r with
          | testShuttingDown =>
              simp only [MainPC.next, PingStage.next, ReconnectStage.next] at h
              grind
          | _ => rfl
      | _ =>
          simp only [MainPC.next, PingStage.next] at h
          grind
  | _ => exact absurd hping (by simp [pingStores])

namespace Shared

variable {s : Shared} {a : Access}

/-- A closed queue stays empty. -/
lemma queue_of_apply (hqueue : s.closed = true → s.queue = []) (h : (s.apply a).closed = true) :
    (s.apply a).queue = [] := by
  rcases closed_of_apply h with hclosed | rfl
  · have hempty := hqueue hclosed
    cases a with
    | connectSession error => cases error <;> exact hempty
    | put e =>
        have hput : s.worker.queryQueue.put e = (s.worker.queryQueue, false) := if_pos hclosed
        simp only [apply, record, setQueue, queue, hput]
        exact hempty
    | take e =>
        simp only [apply, record, setQueue, queue] at hempty ⊢
        rw [hempty, List.tail_nil]
    | removeQueued e =>
        simp only [apply, setQueue, queue, BlockingQueue.removeIf] at hempty ⊢
        rw [hempty, List.filter_nil]
    | clearQueue | closeAndClear => rfl
    | _ => exact hempty
  · rfl

lemma closed_apply (h : s.closed = true) : (s.apply a).closed = true := by
  cases a with
  | connectSession error => cases error <;> exact h
  | put e =>
      have hput : s.worker.queryQueue.put e = (s.worker.queryQueue, false) := if_pos h
      simp only [apply, record, setQueue, closed, hput]
      exact h
  | closeAndClear => rfl
  | _ => exact h

lemma shuttingDown_of_apply (h : a ≠ .setShuttingDown) :
    (s.apply a).shuttingDown = s.shuttingDown := by
  cases a with
  | connectSession error => cases error <;> rfl
  | setShuttingDown => exact absurd rfl h
  | _ => rfl

end Shared

/-! ### The finished database -/

namespace State

variable {C : State → Action → Prop} {s t : State}

/-- The database on the way to its end. -/
structure Finishing (s : State) : Prop where
  emptied : s.closed = true → s.queue = []
  closed : s.workerPC.pastClose = true → s.closed = true
  reset : s.workerPC.pastReset = true →
    s.session.connectionHandle = none ∧ (s.shuttingDown = true ∨ s.connections = 0)
  status : s.workerPC = .ended → s.status ≠ .connected
  reopening : s.mainPC.reopening = true → s.shuttingDown = false

/-- After a shutdown, or without a first connection, the main thread opens nothing. -/
lemma Finishing.opens_nothing {c : Choice} {a : Access} {pc : MainPC} (hI : s.Finishing)
    (hr : system.Reach C s) (hdown : s.shuttingDown = true ∨ s.connections = 0)
    (hnext : s.mainPC.next s.toShared c = some (a, pc)) :
    a ≠ .connectSession none ∧ a ≠ .setDatabaseStatus .connected := by
  rw [← not_or]
  intro ha
  obtain ⟨hreopening, hping⟩ := MainPC.reopening_of_next hnext ha
  rcases hdown with hdown | hzero
  · exact absurd (hdown.symm.trans (hI.reopening hreopening)) (by simp)
  · have hpos := (connections_of_reach hr).used (.inr (.inr hping))
    omega

lemma Finishing.worker {c : Choice} {a : Access} {pc : WorkerPC} (hI : s.Finishing)
    (hr : system.Reach C s) (hnext : s.workerPC.next s.toShared c = some (a, pc)) :
    (s.stepWorker a pc).Finishing := by
  have hdown : (s.stepWorker a pc).shuttingDown = s.shuttingDown := by
    refine Shared.shuttingDown_of_apply ?_
    rintro rfl
    exact absurd (WorkerPC.next_ofMain hnext) (by simp [Access.ofMain])
  refine ⟨Shared.queue_of_apply hI.emptied, fun hpc => ?_, fun hpc => ?_, fun hpc => ?_,
    fun hpc => hdown.trans (hI.reopening hpc)⟩
  · rcases WorkerPC.next_pastClose hnext hpc with hbefore | rfl | ⟨-, hclosed⟩
    · exact Shared.closed_apply (hI.closed hbefore)
    · rfl
    · exact Shared.closed_apply hclosed
  · rw [hdown]
    rcases WorkerPC.next_pastReset hnext hpc with ⟨hw, rfl, -⟩ | ⟨hw, rfl⟩ | ⟨hbefore, ha, -⟩
    · exact ⟨rfl, .inl ((closedBy_of_reach hr).leaving _ hw)⟩
    · -- no connection was made
      have hzero := (connections_of_reach hr).unconnected (by rw [hw]; rfl)
      obtain ⟨hhandle, -, -⟩ := unused_of_connections hr (by omega)
      exact ⟨hhandle, .inr hzero⟩
    · obtain ⟨hhandle, hor⟩ := hI.reset hbefore
      have hne : a ≠ .connectSession none := by
        rintro rfl
        exact absurd ha (by simp [Access.ofSession])
      refine ⟨?_, hor.imp_right (Shared.apply_connections_of_ne hne).trans⟩
      exact (congrArg ConnectionSession.connectionHandle (Shared.apply_session ha)).trans hhandle
  · obtain rfl : pc = .ended := hpc
    have hpast : WorkerPC.pastReset .ended = true := rfl
    rcases WorkerPC.next_pastReset hnext hpast with ⟨-, -, hne⟩ | ⟨hw, rfl⟩ | ⟨-, -, hstatus⟩
    · exact absurd rfl hne
    · have hzero := (connections_of_reach hr).unconnected (by rw [hw]; rfl)
      exact (unused_of_connections hr (by omega)).2.1
    · exact hstatus rfl

lemma Finishing.main {c : Choice} {a : Access} {pc : MainPC} (hI : s.Finishing)
    (hr : system.Reach C s) (hnext : s.mainPC.next s.toShared c = some (a, pc)) :
    (s.stepMain a pc).Finishing := by
  refine ⟨Shared.queue_of_apply hI.emptied, fun hpc => Shared.closed_apply (hI.closed hpc),
    fun hpc => ?_, fun hpc => ?_, fun hpc => ?_⟩
  · obtain ⟨hhandle, hor⟩ := hI.reset hpc
    obtain ⟨hne, -⟩ := hI.opens_nothing hr hor hnext
    refine ⟨by_contra fun hopen => Shared.handle_of_apply hne hopen hhandle, ?_⟩
    exact hor.imp Shared.apply_shuttingDown (Shared.apply_connections_of_ne hne).trans
  · have hpast : s.workerPC.pastReset = true := by
      rw [show s.workerPC = .ended from hpc]
      rfl
    obtain ⟨-, hne⟩ := hI.opens_nothing hr (hI.reset hpast).2 hnext
    intro hconnected
    rcases Shared.status_of_apply hconnected with hbefore | ha
    · exact hI.status hpc hbefore
    · exact hne ha
  · obtain ⟨hne, hor⟩ := MainPC.next_reopening hnext hpc
    exact (Shared.shuttingDown_of_apply hne).trans (hor.elim hI.reopening id)

theorem finishing_of_reach (h : system.Reach C s) : s.Finishing := by
  refine system_invariant (I := Finishing) ⟨fun _ => rfl, by simp [WorkerPC.pastClose],
    by simp [WorkerPC.pastReset], by simp, by simp [MainPC.reopening]⟩
    (fun s t a hr hI _ hstep => ?_) h
  cases hstep with
  | worker hnext => exact hI.worker hr hnext
  | main hspawn hnext => exact hI.main hr hnext
  | spawn hpc =>
      exact ⟨hI.emptied, by simp [WorkerPC.pastClose], by simp [WorkerPC.pastReset], by simp,
        by simp [MainPC.reopening]⟩
  | join hpc hworker =>
      exact ⟨hI.emptied, hI.closed, hI.reset, hI.status, by simp [MainPC.reopening]⟩
  | call hidle hcall =>
      cases hcall with
      | start => exact ⟨hI.emptied, hI.closed, hI.reset, hI.status, by simp [MainPC.reopening]⟩
      | enter hentry =>
          refine ⟨hI.emptied, hI.closed, hI.reset, hI.status, fun hpc => ?_⟩
          cases hentry <;> exact absurd hpc (by simp [MainPC.reopening])
      | swapToFront =>
          refine ⟨fun hclosed => ?_, fun hpc => ?_, hI.reset, hI.status, hI.reopening⟩
          · have hempty := hI.emptied ((BlockingQueue.swapToFrontIf_closed _ _).symm.trans hclosed)
            exact List.perm_nil.1 (hempty ▸ BlockingQueue.swapToFrontIf_perm _ _)
          · exact (BlockingQueue.swapToFrontIf_closed _ _).trans (hI.closed hpc)
      | _ => exact ⟨hI.emptied, hI.closed, hI.reset, hI.status, hI.reopening⟩
  | connectionLost => exact ⟨hI.emptied, hI.closed, hI.reset, hI.status, hI.reopening⟩

/-- The database when the worker thread has executed its last step. -/
structure Finished (s : State) : Prop where
  ended : s.workerPC = .ended
  handle : s.session.connectionHandle = none
  status : s.status ≠ .connected
  closed : s.closed = true
  queue : s.queue = []

lemma finished_of_ended (hr : system.Reach C s) (hended : s.workerPC = .ended) : s.Finished := by
  have hI := finishing_of_reach hr
  have hclosed : s.closed = true := hI.closed (by rw [hended]; rfl)
  exact ⟨hended, (hI.reset (by rw [hended]; rfl)).1, hI.status hended, hclosed,
    hI.emptied hclosed⟩

/-- After the last step of the worker thread, a step neither starts it again nor opens a
session. -/
lemma ended_of_step {a : Action} (hr : system.Reach C s) (hended : s.workerPC = .ended)
    (h : Step s a t) : t.workerPC = .ended ∧ t.connections = s.connections := by
  cases h with
  | worker hnext =>
      rw [hended] at hnext
      exact absurd hnext (by simp [WorkerPC.next])
  | @main c a pc hspawn hnext =>
      have hI := finishing_of_reach hr
      obtain ⟨hne, -⟩ := hI.opens_nothing hr (hI.reset (by rw [hended]; rfl)).2 hnext
      exact ⟨hended, Shared.apply_connections_of_ne hne⟩
  | spawn hpc =>
      have hworker := ((startedOnce hr).connecting _ hpc (by simp) (by simp)).1
      exact absurd (hended.symm.trans hworker) (by simp)
  | join hpc hworker => exact ⟨hended, rfl⟩
  | call hidle hcall => cases hcall <;> exact ⟨hended, rfl⟩
  | connectionLost => exact ⟨hended, rfl⟩

lemma ended_of_run {as : List Action} (hr : system.Reachable s) (hended : s.workerPC = .ended)
    (h : system.run s as = some t) : t.workerPC = .ended ∧ t.connections = s.connections := by
  induction as generalizing s with
  | nil =>
      obtain rfl : s = t := by simpa [Machine.run] using h
      exact ⟨hended, rfl⟩
  | cons a as ih =>
      obtain ⟨u, hu, ht⟩ := Option.bind_eq_some_iff.1 h
      obtain ⟨hended', hcount⟩ := ended_of_step hr hended (step_of_next hu)
      obtain ⟨hend, hlater⟩ := ih (.step hr trivial hu) hended' ht
      exact ⟨hend, hlater.trans hcount⟩

/-- **A finished database stays finished.**  Once the worker thread has executed its last
step, the session is reset, `status()` is not `DATABASE_CONNECTED` and the queue is closed and
empty, and whatever the main thread calls afterwards, it stays so: no session is opened. -/
theorem finished_stays {as : List Action} (hr : system.Reachable s)
    (hended : s.workerPC = .ended) (hrun : system.run s as = some t) :
    s.Finished ∧ t.Finished ∧ t.connections = s.connections := by
  obtain ⟨hend, hcount⟩ := ended_of_run hr hended hrun
  exact ⟨finished_of_ended hr hended, finished_of_ended (Machine.Reach.of_run hr hrun) hend, hcount⟩

/-- The connection is lost, and while the worker thread reconnects, `disconnect` runs to its
end; the worker thread stores `DATABASE_CONNECTED` after that. -/
def racingReconnectRun : List Action :=
  connectSteps ++ connectedSteps ++ [.connectionLost] ++ startSteps 0 0 ++ workerSteps 13 ++
    .call (.disconnect true) :: mainSteps 8 ++ .worker (.connected none) :: workerSteps 4 ++
    .worker (.left none) :: workerSteps 15

/-- `join` returns, and `ping`, `connect` and `start` are called. -/
def afterwardsRun : List Action :=
  mainSteps 1 ++ .call .ping :: mainSteps 4 ++ .call .connect :: mainSteps 2 ++
    .call (.start 1 0) :: mainSteps 3

set_option maxRecDepth 4000 in
theorem finished_stays_racingReconnectRun :
    ∃ s t, system.run system.init racingReconnectRun = some s ∧
      system.run s afterwardsRun = some t ∧ s.workerPC = .ended ∧ s.connections = 2 ∧
      s.Finished ∧ t.Finished ∧ t.connections = s.connections := by
  obtain ⟨s, hs⟩ : ∃ s, system.run system.init racingReconnectRun = some s := ⟨_, rfl⟩
  have hstate : (system.run system.init racingReconnectRun).map (fun s =>
      (s.workerPC, s.connections)) = some (.ended, 2) := rfl
  have hafter : (system.run system.init racingReconnectRun).bind (fun s =>
      (system.run s afterwardsRun).map fun t => t.started) = some 2 := rfl
  rw [hs] at hstate hafter
  obtain ⟨hended, hcount⟩ : s.workerPC = .ended ∧ s.connections = 2 := by simpa using hstate
  obtain ⟨t, ht, -⟩ := Option.map_eq_some_iff.1 hafter
  exact ⟨s, t, hs, ht, hended, hcount, finished_stays (Machine.reachable_of_run hs) hended ht⟩

end State

end GmsvPg.Database
