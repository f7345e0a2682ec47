/-
# The target of a cancellation

`ActiveQueryState::cancel` looks its target up in a mutex section and calls `PQcancel` after
it.  What is published as active at that time is decided by the worker thread, which runs
under `m_queryMutex`.  This file shows that what is published is the execution the worker
thread is in, that a cancellation reaches its target if the worker thread has not left it
since the look-up, and that it can reach a later execution otherwise.
-/
import GmsvPg.Database.Lifecycle

namespace GmsvPg.Database

open Library Machine

/-! ### `m_queryMutex` -/

/-- The points of `run` and `runQuery` at which `m_queryMutex` is held. -/
def RunStage.locked : RunStage → Bool
  | .setInFlight | .testStatus | .lockQuery | .finish | .setFinished | .clearInFlight => false
  | .finishAborted locked | .setFinishedAborted locked | .clearInFlightAborted locked => locked
  | .testShuttingDown | .testStatusLocked | .storeAborted | .unlockAborted | .storeRunning
  | .testOpen | .testAutoReconnect | .reconnectFirst _ | .enterGuard | .execute
  | .executing _ _ | .clearCancellation | .storeSuccess | .leaveGuard _ | .testCancellation _
  | .storeCancelled | .storeResultNone | .clearCancellationThrown _ | .testRetry _
  | .reconnectAgain _ _ | .storeError _ | .testErrorText _ | .setErrorText _ | .testAborted
  | .storeComplete | .unlock => true

/-- Whether the worker thread holds `m_queryMutex`. -/
def WorkerPC.locked : WorkerPC → Bool
  | .running _ r => r.locked
  | _ => false

/-- Whether the main thread holds `m_queryMutex`. -/
def MainPC.locked : MainPC → Bool
  | .ping .lockQuery => false
  | .ping _ => true
  | _ => false

/-- The accesses to `m_queryMutex`. -/
def Access.ofMutex : Access → Bool
  | .lockQuery _ | .unlockQuery => true
  | _ => false

lemma RunStage.next_locked {s : Shared} {c : Choice} {e : Execution} {r : RunStage}
    {a : Access} {pc : WorkerPC} (h : r.next s c e = some (a, pc)) :
    (a = .lockQuery .worker ∧ s.queryMutex = none ∧ r.locked = false) ∨
      (a = .unlockQuery ∧ r.locked = true ∧ pc.locked = false) ∨
      (a.ofMutex = false ∧ pc.locked = r.locked) := by
  cases r <;> simp only [RunStage.next] at h
  all_goals repeat' split at h
  all_goals grind [RunStage.locked, WorkerPC.locked, Access.ofMutex, ReconnectStage.next_access]

lemma WorkerPC.next_locked {s : Shared} {c : Choice} {pc pc' : WorkerPC} {a : Access}
    (h : pc.next s c = some (a, pc')) :
    (a = .lockQuery .worker ∧ s.queryMutex = none) ∨
      (a = .unlockQuery ∧ pc.locked = true ∧ pc'.locked = false) ∨
      (a.ofMutex = false ∧ pc'.locked = pc.locked) := by
  cases pc with
  | running e r =>
      rcases RunStage.next_locked h with ⟨ha, hfree, -⟩ | hunlock | hkeep
      · exact .inl ⟨ha, hfree⟩
      · exact .inr (.inl hunlock)
      · exact .inr (.inr hkeep)
  | connecting stage =>
      cases stage with
      | drain e' stage rest reason =>
          cases stage <;> simp only [WorkerPC.next, ConnectStage.next, CompleteStage.next] at h
          all_goals grind [WorkerPC.locked, Access.ofMutex]
      | _ =>
          simp only [WorkerPC.next, ConnectStage.next] at h
          repeat' split at h
          all_goals grind [WorkerPC.locked, Access.ofMutex]
  | taking =>
      simp only [WorkerPC.next] at h
      grind [WorkerPC.locked, Access.ofMutex, RunStage.locked]
  | leaving stage =>
      cases stage <;> simp only [WorkerPC.next, LeaveStage.next] at h
      all_goals grind [WorkerPC.locked, Access.ofMutex]
  | notStarted | ended => exact absurd h (by simp [WorkerPC.next])

lemma CancelCaller.resume_locked (d : DataId) (requested : Bool) (caller : CancelCaller) :
    (caller.resume d requested).locked = false := by
  cases caller <;> cases requested <;> rfl

/-- Of the operations of the main thread only `ping` takes `m_queryMutex`, and only under it
does it touch what is published as active. -/
lemma MainPC.next_locked {s : Shared} {c : Choice} {pc pc' : MainPC} {a : Access}
    (h : pc.next s c = some (a, pc')) :
    ((a = .lockQuery .main ∧ s.queryMutex = none) ∨
      (a = .unlockQuery ∧ pc.locked = true ∧ pc'.locked = false) ∨
      (a.ofMutex = false ∧ (pc'.locked = true → pc.locked = true))) ∧
    (a = .clearActive → pc.locked = true) := by
  cases pc with
  | enqueue e stage =>
      cases stage <;> simp only [MainPC.next, EnqueueStage.next] at h
      all_goals repeat' split at h
      all_goals cases h
      all_goals simp [MainPC.locked, Access.ofMutex]
  | abort e stage =>
      cases stage <;> simp only [MainPC.next, AbortStage.next] at h
      all_goals repeat' split at h
      all_goals cases h
      all_goals simp [MainPC.locked, Access.ofMutex]
  | cancel d stage caller =>
      cases stage <;> simp only [MainPC.next, CancelStage.next] at h
      all_goals repeat' split at h
      all_goals cases h
      all_goals grind [MainPC.locked, Access.ofMutex, CancelCaller.resume_locked]
  | abortAll stage g =>
      cases stage <;> simp only [MainPC.next, AbortAllStage.next] at h
      all_goals repeat' split at h
      all_goals cases h
      all_goals simp [MainPC.locked, Access.ofMutex]
  | shutdown stage join g =>
      cases stage <;> simp only [MainPC.next, ShutdownStage.next] at h
      all_goals repeat' split at h
      all_goals cases h
      all_goals simp [MainPC.locked, Access.ofMutex]
  | waiting e stage =>
      cases stage with
      | complete stage =>
          cases stage <;> simp only [MainPC.next, WaitStage.next, CompleteStage.next] at h
          all_goals cases h
          all_goals simp [MainPC.locked, Access.ofMutex]
      | _ =>
          simp only [MainPC.next, WaitStage.next] at h
          repeat' split at h
          all_goals cases h
          all_goals simp [MainPC.locked, Access.ofMutex]
  | ping stage =>
      cases stage <;> simp only [MainPC.next, PingStage.next] at h
      all_goals repeat' split at h
      all_goals grind [MainPC.locked, Access.ofMutex, ReconnectStage.next_access]
  | connect stage =>
      cases stage <;> simp only [MainPC.next, ConnectCallStage.next] at h
      all_goals repeat' split at h
      all_goals cases h
      all_goals simp [MainPC.locked, Access.ofMutex]
  | idle | joining => exact absurd h (by simp [MainPC.next])

lemma Shared.apply_queryMutex {s : Shared} {a : Access} (h : a.ofMutex = false) :
    (s.apply a).queryMutex = s.queryMutex := by
  cases a with
  | connectSession error => cases error <;> rfl
  | lockQuery | unlockQuery => exact absurd h (by simp [Access.ofMutex])
  | _ => rfl

namespace State

variable {C : State → Action → Prop} {s t : State}

/-- `m_queryMutex` is held by the thread that stands between its acquisition and release. -/
structure Locked (s : State) : Prop where
  worker : s.workerPC.locked = true → s.queryMutex = some .worker
  main : s.mainPC.locked = true → s.queryMutex = some .main

theorem locked_of_reach (h : system.Reach C s) : s.Locked := by
  refine system_invariant (I := Locked) ⟨by simp [WorkerPC.locked], by simp [MainPC.locked]⟩
    (fun s t a hr hI _ hstep => ?_) h
  cases hstep with
  | @worker c a pc hnext =>
      rcases WorkerPC.next_locked hnext with ⟨rfl, hfree⟩ | ⟨rfl, hlocked, hunlocked⟩ |
        ⟨ha, hkeep⟩
      · exact ⟨fun _ => rfl, fun hmain => absurd ((hI.main hmain).symm.trans hfree) (by simp)⟩
      · refine ⟨fun hpc => absurd (hunlocked.symm.trans hpc) (by simp), fun hmain => ?_⟩
        exact absurd ((hI.main hmain).symm.trans (hI.worker hlocked)) (by simp)
      · have hmutex : (s.stepWorker a pc).queryMutex = s.queryMutex := Shared.apply_queryMutex ha
        exact ⟨fun hpc => hmutex.trans (hI.worker (hkeep ▸ hpc)),
          fun hmain => hmutex.trans (hI.main hmain)⟩
  | @main c a pc hspawn hnext =>
      rcases (MainPC.next_locked hnext).1 with ⟨rfl, hfree⟩ | ⟨rfl, hlocked, hunlocked⟩ |
        ⟨ha, hkeep⟩
      · exact ⟨fun hworker => absurd ((hI.worker hworker).symm.trans hfree) (by simp), fun _ => rfl⟩
      · refine ⟨fun hworker => ?_, fun hpc => absurd (hunlocked.symm.trans hpc) (by simp)⟩
        exact absurd ((hI.main hlocked).symm.trans (hI.worker hworker)) (by simp)
      · have hmutex : (s.stepMain a pc).queryMutex = s.queryMutex := Shared.apply_queryMutex ha
        exact ⟨fun hworker => hmutex.trans (hI.worker hworker),
          fun hpc => hmutex.trans (hI.main (hkeep hpc))⟩
  | spawn hpc => exact ⟨by simp [WorkerPC.locked], by simp [MainPC.locked]⟩
  | join hpc hworker => exact ⟨hI.worker, by simp [MainPC.locked]⟩
  | call hidle hcall =>
      cases hcall with
      | start => exact ⟨hI.worker, by simp [MainPC.locked]⟩
      | enter hentry =>
          refine ⟨hI.worker, fun hpc => ?_⟩
          cases hentry <;> exact absurd hpc (by simp [MainPC.locked])
      | _ => exact ⟨hI.worker, hI.main⟩
  | connectionLost => exact ⟨hI.worker, hI.main⟩

/-- The two threads are not both inside `m_queryMutex`. -/
lemma not_both_locked (h : system.Reach C s) (hmain : s.mainPC.locked = true) :
    s.workerPC.locked = false := by
  have hI := locked_of_reach h
  refine Bool.eq_false_iff.2 fun hworker => ?_
  exact absurd ((hI.worker hworker).symm.trans (hI.main hmain)) (by simp)

end State

/-! ### What is published as active -/

/-- The points between the constructor of `ActiveQueryState::Guard` and its destructor. -/
def RunStage.guarded : RunStage → Bool
  | .execute | .executing _ _ | .clearCancellation | .storeSuccess | .leaveGuard _ => true
  | _ => false

/-- The execution the worker thread has published as active. -/
def WorkerPC.active : WorkerPC → Option Execution
  | .running e r => if r.guarded then some e else none
  | _ => none

/-- The accesses to `m_activeQuery` that change it. -/
def Access.ofActive : Access → Bool
  | .enterGuard _ | .clearActive | .addAlias _ | .removeAlias _ => true
  | _ => false

lemma RunStage.guarded_locked {r : RunStage} (h : r.guarded = true) : r.locked = true := by
  cases r <;> simp_all [RunStage.guarded, RunStage.locked]

lemma RunStage.next_active {s : Shared} {c : Choice} {e : Execution} {r : RunStage}
    {a : Access} {pc : WorkerPC} (h : r.next s c e = some (a, pc)) :
    (a = .enterGuard e ∧ r.guarded = false ∧ pc.active = some e) ∨
      (a = .clearActive ∧ pc.active = none) ∨
      (∃ i, (a = .addAlias (.child e i) ∨ a = .removeAlias (.child e i)) ∧ r.guarded = true ∧
        pc.active = some e) ∨
      (a.ofActive = false ∧ pc.active = (WorkerPC.running e r).active) := by
  cases r <;> simp only [RunStage.next] at h
  all_goals repeat' split at h
  all_goals grind [RunStage.guarded, WorkerPC.active, Access.ofActive, ReconnectStage.next_access]

lemma WorkerPC.next_active {s : Shared} {c : Choice} {pc pc' : WorkerPC} {a : Access}
    (h : pc.next s c = some (a, pc')) :
    (∃ e, a = .enterGuard e ∧ pc.active = none ∧ pc'.active = some e) ∨
      (a = .clearActive ∧ pc'.active = none) ∨
      (∃ e i, (a = .addAlias (.child e i) ∨ a = .removeAlias (.child e i)) ∧
        pc.active = some e ∧ pc'.active = some e) ∨
      (a.ofActive = false ∧ pc'.active = pc.active) := by
  cases pc with
  | running e r =>
      rcases RunStage.next_active h with ⟨rfl, hr, hpc⟩ | ⟨rfl, hpc⟩ | ⟨i, ha, hr, hpc⟩ | hkeep
      · exact .inl ⟨e, rfl, by simp [active, hr], hpc⟩
      · exact .inr (.inl ⟨rfl, hpc⟩)
      · exact .inr (.inr (.inl ⟨e, i, ha, by simp [active, hr], hpc⟩))
      · exact .inr (.inr (.inr hkeep))
  | connecting stage =>
      cases stage with
      | drain e' stage rest reason =>
          cases stage <;> simp only [WorkerPC.next, ConnectStage.next, CompleteStage.next] at h
          all_goals grind [WorkerPC.active, Access.ofActive]
      | _ =>
          simp only [WorkerPC.next, ConnectStage.next] at h
          repeat' split at h
          all_goals grind [WorkerPC.active, Access.ofActive]
  | taking =>
      simp only [WorkerPC.next] at h
      grind [WorkerPC.active, Access.ofActive, RunStage.guarded]
  | leaving stage =>
      cases stage <;> simp only [WorkerPC.next, LeaveStage.next] at h
      all_goals grind [WorkerPC.active, Access.ofActive]
  | notStarted | ended => exact absurd h (by simp [WorkerPC.next])

lemma Shared.apply_activeQuery {s : Shared} {a : Access} (h : a.ofActive = false) :
    (s.apply a).activeQuery = s.activeQuery := by
  cases a with
  | connectSession error => cases error <;> rfl
  | enterGuard | clearActive | addAlias | removeAlias =>
      exact absurd h (by simp [Access.ofActive])
  | _ => rfl

lemma MainPC.next_ofActive {s : Shared} {c : Choice} {pc pc' : MainPC} {a : Access}
    (h : pc.next s c = some (a, pc')) :
    a.ofActive = false ∨ a = .clearActive ∧ pc.locked = true := by
  have hrun := MainPC.next_ofRun h
  cases a with
  | clearActive => exact .inr ⟨rfl, (MainPC.next_locked h).2 rfl⟩
  | enterGuard | addAlias | removeAlias => exact absurd hrun (by simp [Access.ofRun])
  | _ => exact .inl rfl

namespace State

variable {C : State → Action → Prop} {s t : State}

/-- What `ActiveQueryState` holds is what the worker thread has published. -/
structure Published (s : State) : Prop where
  none : s.workerPC.active = none → s.activeQuery = {}
  some : ∀ e, s.workerPC.active = some e →
    s.activeQuery.activeData = some (.own e) ∧
      ∀ d ∈ s.activeQuery.activeAliases, d.execution = e

theorem published_of_reach (h : system.Reach C s) : s.Published := by
  refine system_invariant (I := Published) ⟨fun _ => rfl, fun e he => ?_⟩
    (fun s t a hr hI _ hstep => ?_) h
  · exact absurd he (by simp [WorkerPC.active])
  cases hstep with
  | @worker c a pc hnext =>
      rcases WorkerPC.next_active hnext with ⟨e, rfl, hbefore, hafter⟩ | ⟨rfl, hafter⟩ |
        ⟨e, i, ha, hbefore, hafter⟩ | ⟨ha, hkeep⟩
      · refine ⟨fun hnone => absurd (hafter.symm.trans hnone) (by simp), fun e' he' => ?_⟩
        obtain rfl : e = e' := by simpa [hafter, stepWorker] using he'
        refine ⟨rfl, fun d hd => ?_⟩
        have hempty : s.activeQuery.activeAliases = [] := by rw [hI.none hbefore]
        exact absurd (hempty ▸ hd) List.not_mem_nil
      · exact ⟨fun _ => rfl, fun e he => absurd (hafter.symm.trans he) (by simp)⟩
      · refine ⟨fun hnone => absurd (hafter.symm.trans hnone) (by simp), fun e' he' => ?_⟩
        obtain rfl : e = e' := by simpa [hafter, stepWorker] using he'
        obtain ⟨hdata, haliases⟩ := hI.some e hbefore
        rcases ha with rfl | rfl
        · refine ⟨hdata, fun d hd => ?_⟩
          have hd : d ∈ s.activeQuery.activeAliases ++ [.child e i] := by
            by_cases hconn : s.activeQuery.activeConnection.isSome = true
            · simpa [stepWorker, Shared.apply, hconn] using hd
            · exact List.mem_append_left _ (by simpa [stepWorker, Shared.apply, hconn] using hd)
          rcases List.mem_append.1 hd with hd | hd
          · exact haliases d hd
          · rw [List.mem_singleton.1 hd]
            rfl
        · exact ⟨hdata, fun d hd => haliases d (List.mem_of_mem_filter hd)⟩
      · have hactive : (s.stepWorker a pc).activeQuery = s.activeQuery := Shared.apply_activeQuery ha
        refine ⟨fun hnone => ?_, fun e he => ?_⟩
        · exact hactive.trans (hI.none (hkeep.symm.trans hnone))
        · rw [hactive]
          exact hI.some e (hkeep.symm.trans he)
  | @main c a pc hspawn hnext =>
      rcases MainPC.next_ofActive hnext with ha | ⟨rfl, hlocked⟩
      · have hactive : (s.stepMain a pc).activeQuery = s.activeQuery := Shared.apply_activeQuery ha
        refine ⟨fun hnone => hactive.trans (hI.none hnone), fun e he => ?_⟩
        rw [hactive]
        exact hI.some e he
      · refine ⟨fun _ => rfl, fun e he => ?_⟩
        -- the worker thread is not inside a guard while `ping` reconnects
        have hworker := not_both_locked hr hlocked
        cases hpc : s.workerPC with
        | running e' r =>
            have he : (WorkerPC.running e' r).active = .some e := hpc ▸ he
            rw [hpc] at hworker
            by_cases hg : r.guarded = true
            · exact absurd (hworker.symm.trans (RunStage.guarded_locked hg)) (by simp)
            · exact absurd he (by simp [WorkerPC.active, hg])
        | _ => exact absurd (hpc ▸ he : WorkerPC.active _ = .some e) (by simp [WorkerPC.active])
  | spawn hpc =>
      have hworker := ((startedOnce hr).connecting _ hpc (by simp) (by simp)).1
      exact ⟨fun _ => hI.none (by rw [hworker]; rfl),
        fun e he => absurd he (by simp [WorkerPC.active])⟩
  | join hpc hworker => exact ⟨hI.none, hI.some⟩
  | call hidle hcall => cases hcall <;> exact ⟨hI.none, hI.some⟩
  | connectionLost => exact ⟨hI.none, hI.some⟩

/-- What matches is the active execution, or an alias of it. -/
lemma active_of_matches (h : system.Reach C s) {d : DataId}
    (hd : s.activeQuery.matchesActive d = true) :
    s.workerPC.active = some d.execution ∧
      s.activeQuery.activeData = some (.own d.execution) := by
  have hI := published_of_reach h
  have hd : s.activeQuery.activeData = .some d ∨ d ∈ s.activeQuery.activeAliases := by
    simpa [ActiveQueryState.matchesActive] using hd
  cases hactive : s.workerPC.active with
  | none =>
      rw [hI.none hactive] at hd
      exact absurd hd (by simp)
  | some e =>
      obtain ⟨hdata, haliases⟩ := hI.some e hactive
      obtain rfl : d.execution = e := by
        rcases hd with hd | hd
        · obtain rfl : DataId.own e = d := by simpa [hdata] using hd
          rfl
        · exact haliases d hd
      exact ⟨rfl, hdata⟩

end State

/-! ### Cancellations and their targets -/

/-- The main thread stands before a `PQcancel` call only after a successful look-up. -/
lemma MainPC.next_send {s : Shared} {c : Choice} {pc : MainPC} {a : Access} {d : DataId}
    {connection : ℕ} {caller : CancelCaller}
    (h : pc.next s c = some (a, .cancel d (.send connection) caller)) :
    s.activeQuery.matchesActive d = true ∧ s.activeQuery.activeConnection = some connection ∧
      a = .setCancellationRequested d true := by
  rcases MainPC.next_source h with ⟨stage, rfl⟩ | ⟨hstage, -⟩
  · cases stage <;> simp only [MainPC.next, CancelStage.next] at h
    all_goals repeat' split at h
    all_goals cases caller <;> grind [CancelCaller.resume]
  · exact absurd hstage (by simp)

lemma MainPC.next_sendCancel {s : Shared} {c : Choice} {pc pc' : MainPC} {d : DataId}
    {connection : ℕ} (h : pc.next s c = some (.sendCancel d connection, pc')) :
    ∃ caller, pc = .cancel d (.send connection) caller := by
  cases pc with
  | enqueue e stage =>
      cases stage <;> simp only [MainPC.next, EnqueueStage.next] at h
      all_goals grind
  | abort e stage =>
      cases stage <;> simp only [MainPC.next, AbortStage.next] at h
      all_goals grind
  | cancel d' stage caller =>
      cases stage with
      | send connection' =>
          obtain ⟨rfl, rfl⟩ : d' = d ∧ connection' = connection := by
            simp only [MainPC.next, CancelStage.next] at h
            split at h <;> simp_all
          exact ⟨caller, rfl⟩
      | _ =>
          simp only [MainPC.next, CancelStage.next] at h
          repeat' split at h
          all_goals grind
  | abortAll stage g =>
      cases stage <;> simp only [MainPC.next, AbortAllStage.next] at h
      all_goals grind
  | shutdown stage join g =>
      cases stage <;> simp only [MainPC.next, ShutdownStage.next] at h
      all_goals grind
  | waiting e stage =>
      cases stage with
      | complete stage =>
          cases stage <;> simp only [MainPC.next, WaitStage.next, CompleteStage.next] at h
          all_goals grind
      | _ =>
          simp only [MainPC.next, WaitStage.next] at h
          grind
  | ping stage =>
      cases stage <;> simp only [MainPC.next, PingStage.next] at h
      all_goals grind [ReconnectStage.next_access]
  | connect stage =>
      cases stage <;> simp only [MainPC.next, ConnectCallStage.next] at h
      all_goals grind
  | idle | joining => exact absurd h (by simp [MainPC.next])

lemma Shared.mem_cancels_apply {s : Shared} {a : Access} {call : CancelCall}
    (h : call ∈ (s.apply a).history.cancels) :
    call ∈ s.history.cancels ∨
      a = .sendCancel call.target call.connection ∧ call.published = s.activeQuery := by
  cases a with
  | connectSession error => cases error <;> exact .inl h
  | sendCancel d connection =>
      refine (List.mem_append.1 h).imp_right fun h => ?_
      rw [List.mem_singleton.1 h]
      exact ⟨rfl, rfl⟩
  | _ => exact .inl h

/-- The worker thread leaves the target of a cancellation between the look-up and the
`PQcancel` call: it destroys the guard, or removes the target as an alias. -/
def State.leavesTarget (s : State) : Action → Bool
  | .worker c =>
      match s.mainPC, s.workerPC.next s.toShared c with
      | .cancel _ (.send _) _, some (.clearActive, _) => true
      | .cancel d (.send _) _, some (.removeAlias d', _) => decide (d' = d)
      | _, _ => false
  | _ => false

/-- The condition on a step under which cancellations reach their targets. -/
def StaysOnTarget (s : State) (a : Action) : Prop := s.leavesTarget a = false

instance (s : State) (a : Action) : Decidable (StaysOnTarget s a) :=
  inferInstanceAs (Decidable (_ = false))

namespace State

variable {C : State → Action → Prop} {s t : State}

/-- The target of a cancellation that is looked up and not yet sent is active, on the
connection that was looked up. -/
def Aimed (s : State) : Prop :=
  ∀ d connection caller, s.mainPC = .cancel d (.send connection) caller →
    s.activeQuery.matchesActive d = true ∧ s.activeQuery.activeConnection = some connection

theorem aimed_of_reach (h : system.Reach StaysOnTarget s) : s.Aimed := by
  refine system_invariant (I := Aimed) (by simp [Aimed]) (fun s t a hr hI hC hstep => ?_) h
  intro d connection caller hpc
  cases hstep with
  | @worker c a pc hnext =>
      have hmain : s.mainPC = .cancel d (.send connection) caller := hpc
      obtain ⟨hmatch, hconn⟩ := hI d connection caller hmain
      have hactive := (active_of_matches hr hmatch).1
      rcases WorkerPC.next_active hnext with ⟨e, rfl, hbefore, -⟩ | ⟨rfl, -⟩ |
        ⟨e, i, ha, -, -⟩ | ⟨ha, -⟩
      · exact absurd (hbefore.symm.trans hactive) (by simp)
      · exact absurd hC (by simp [StaysOnTarget, leavesTarget, hmain, hnext])
      · rcases ha with rfl | rfl
        · refine ⟨ActiveQueryState.matchesActive_iff.2 ?_, hconn⟩
          refine (ActiveQueryState.matchesActive_iff.1 hmatch).imp_right fun hd => ?_
          have haliases : (s.stepWorker (.addAlias (.child e i)) pc).activeQuery.activeAliases =
              s.activeQuery.activeAliases ++ [.child e i] := by
            simp [stepWorker, Shared.apply, hconn]
          rw [haliases]
          exact List.mem_append_left _ hd
        · have hne : DataId.child e i ≠ d := by
            simpa [StaysOnTarget, leavesTarget, hmain, hnext] using hC
          refine ⟨ActiveQueryState.matchesActive_iff.2 ?_, hconn⟩
          refine (ActiveQueryState.matchesActive_iff.1 hmatch).imp_right fun hd => ?_
          exact List.mem_filter.2 ⟨hd, by simpa using hne.symm⟩
      · rw [show (s.stepWorker a pc).activeQuery = _ from Shared.apply_activeQuery ha]
        exact ⟨hmatch, hconn⟩
  | @main c a pc hspawn hnext =>
      obtain rfl : pc = .cancel d (.send connection) caller := hpc
      obtain ⟨hmatch, hconn, rfl⟩ := MainPC.next_send hnext
      exact ⟨hmatch, hconn⟩
  | spawn _ => exact absurd hpc (by simp)
  | join _ _ => exact absurd hpc (by simp)
  | call hidle hcall =>
      cases hcall with
      | start => exact absurd hpc (by simp)
      | enter hentry => cases hentry <;> exact absurd hpc (by simp)
      | _ => exact hI d connection caller hpc
  | connectionLost => exact hI d connection caller hpc

end State

/-- **A cancellation reaches its target** in every run in which the worker thread does not
leave the target between the look-up and the call: each `PQcancel` call was made while its
target was active, or a registered alias of the active transaction, on the connection it was
looked up on. -/
theorem cancel_on_target {s : State} (h : system.Reach StaysOnTarget s) :
    ∀ call ∈ s.history.cancels,
      call.published.matchesActive call.target = true ∧
        call.published.activeData = some (.own call.target.execution) ∧
        call.published.activeConnection = some call.connection := by
  refine system_invariant (I := fun s => ∀ call ∈ s.history.cancels,
    call.published.matchesActive call.target = true ∧
      call.published.activeData = some (.own call.target.execution) ∧
      call.published.activeConnection = some call.connection) (by simp)
    (fun s t a hr hI _ hstep call hcall => ?_) h
  cases hstep with
  | worker hnext =>
      refine hI call ((Shared.mem_cancels_apply hcall).resolve_right ?_)
      rintro ⟨rfl, -⟩
      exact absurd (WorkerPC.next_ofMain hnext) (by simp [Access.ofMain])
  | main hspawn hnext =>
      rcases Shared.mem_cancels_apply hcall with hcall | ⟨rfl, hpublished⟩
      · exact hI call hcall
      · obtain ⟨caller, hpc⟩ := MainPC.next_sendCancel hnext
        obtain ⟨hmatch, hconn⟩ := State.aimed_of_reach hr _ _ _ hpc
        rw [hpublished]
        exact ⟨hmatch, (State.active_of_matches hr hmatch).2, hconn⟩
  | spawn _ => exact hI call hcall
  | join _ _ => exact hI call hcall
  | call hidle hcalled => cases hcalled <;> exact hI call hcall
  | connectionLost => exact hI call hcall

/-- Two executions are queued, the worker thread is inside the first, and the main thread has
looked it up for a cancellation. -/
def lookedUpRun : List Action :=
  connectSteps ++ connectedSteps ++ startSteps 0 0 ++ startSteps 1 0 ++ workerSteps 10 ++
    [.call (.abort ⟨0, 0, 0⟩), .main .go, .main .go, .main .go, .main (.gotCancel true)]

/-- `PQcancel` is called while the target is executed. -/
def promptCancelRun : List Action := lookedUpRun ++ [.main (.cancelSent true)]

theorem cancel_on_target_promptCancelRun :
    ∃ s, system.runIf StaysOnTarget system.init promptCancelRun = some s ∧
      s.history.cancels ≠ [] ∧ ∀ call ∈ s.history.cancels,
        call.published.matchesActive call.target = true ∧
          call.published.activeData = some (.own call.target.execution) ∧
          call.published.activeConnection = some call.connection := by
  obtain ⟨s, hs⟩ : ∃ s, system.runIf StaysOnTarget system.init promptCancelRun = some s :=
    ⟨_, rfl⟩
  have hcancels : (system.runIf StaysOnTarget system.init promptCancelRun).map
      (·.history.cancels) = some [⟨.own ⟨0, 0, 0⟩, 0, ⟨some (.own ⟨0, 0, 0⟩), [], some 0⟩⟩] := rfl
  have hcancels : s.history.cancels =
      [⟨.own ⟨0, 0, 0⟩, 0, ⟨some (.own ⟨0, 0, 0⟩), [], some 0⟩⟩] := by simpa [hs] using hcancels
  exact ⟨s, hs, by simp [hcancels], cancel_on_target (reach_of_runIf hs)⟩

/-- The worker thread finishes the target and begins the second execution on the same
connection before `PQcancel` is called. -/
def lateCancelRun : List Action :=
  lookedUpRun ++ .worker (.left none) :: workerSteps 18 ++ [.main (.cancelSent true)]

/-- Without the condition a cancellation can reach a later execution. -/
theorem cancel_off_target :
    ¬ ∀ s, system.Reachable s → ∀ call ∈ s.history.cancels,
      call.published.matchesActive call.target = true := by
  intro h
  obtain ⟨s, hs⟩ : ∃ s, system.run system.init lateCancelRun = some s := ⟨_, rfl⟩
  have hcancels : (system.run system.init lateCancelRun).map (·.history.cancels) =
      some [⟨.own ⟨0, 0, 0⟩, 0, ⟨some (.own ⟨1, 1, 0⟩), [], some 0⟩⟩] := rfl
  have hcancels : s.history.cancels =
      [⟨.own ⟨0, 0, 0⟩, 0, ⟨some (.own ⟨1, 1, 0⟩), [], some 0⟩⟩] := by simpa [hs] using hcancels
  have hmatch := h s (reachable_of_run hs) _ (hcancels ▸ List.mem_singleton_self _)
  exact absurd hmatch (by decide)

end GmsvPg.Database
