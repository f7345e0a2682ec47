/-
# The database at rest

No step of a thread is enabled while the threads wait for each other.  This file shows that
this happens in one way only: the main thread has returned to user code, and the worker thread
waits for the queue, has ended, or was never started.  Neither `m_queryMutex` nor
`m_connectMutex` can be waited for in vain, `waitForQuery` does not block on an execution that
nobody finishes, and a worker thread that is joined ends.  Since the work that is left bounds
the steps of the threads, every operation returns.
-/
import GmsvPg.Database.Work

namespace GmsvPg.Database

open Library

/-! ### The points that matter -/

/-- Whether the worker thread holds `m_connectMutex`. -/
def WorkerPC.holdsConnect : WorkerPC → Bool
  | .connecting stage => decide (stage ≠ .lockConnect)
  | _ => false

/-- The points of `connect` after the exchange of `startedConnecting`. -/
def MainPC.starting : MainPC → Bool
  | .connect stage => decide (stage ≠ .testStatus ∧ stage ≠ .exchange)
  | _ => false

/-- The points of the first `shutdown` before it closes the queue. -/
def MainPC.closing : MainPC → Bool
  | .shutdown stage _ _ =>
      match stage with
      | .storeStatus | .readActive | .readInFlight | .testInFlight _ | .storeInFlight _
      | .closeAndClear => true
      | .exchange | .storeRemoved _ _ _ | .setFinished _ _ _ | .finish _ | .returnResult => false
  | .cancel _ _ (.shutdown _ _) => true
  | _ => false

/-! ### The mutexes -/

/-- What the worker thread does to the mutexes and to the flags. -/
structure WorkerPC.Course (a : Access) (pc pc' : WorkerPC) : Prop where
  lock : ∀ t, a = .lockQuery t → t = .worker ∧ pc'.locked = true
  connect : a = .lockConnect ∨ pc.holdsConnect = true →
    a = .unlockConnect ∨ pc'.holdsConnect = true
  canWait : a ≠ .setCanWait true
  started : pc' ≠ .notStarted
  slot : ∀ e, a = .setInFlight e → ∃ r, pc' = .running e r ∧ r.inFlight = true

lemma RunStage.next_course {s : Shared} {c : Choice} {e : Execution} {r : RunStage}
    {a : Access} {pc : WorkerPC} (h : r.next s c e = some (a, pc)) :
    (∀ t, a = .lockQuery t → t = .worker ∧ pc.locked = true) ∧ a ≠ .lockConnect ∧
      a ≠ .setCanWait true ∧
      ∀ x, a = .setInFlight x → ∃ r', pc = .running x r' ∧ r'.inFlight = true := by
  cases r <;> simp only [RunStage.next] at h
  all_goals repeat' split at h
  all_goals grind [WorkerPC.locked, RunStage.locked, RunStage.inFlight,
    ReconnectStage.next_access]

lemma ConnectStage.next_course {s : Shared} {c : Choice} {stage : ConnectStage}
    {a : Access} {pc : WorkerPC} (h : stage.next s c = some (a, pc)) :
    (∀ t, a ≠ .lockQuery t) ∧ (a = .unlockConnect ∨ pc.holdsConnect = true) ∧
      a ≠ .setCanWait true ∧ pc ≠ .notStarted ∧ ∀ e, a ≠ .setInFlight e := by
  cases stage with
  | drain e' stage rest reason =>
      cases stage <;> simp only [ConnectStage.next, CompleteStage.next] at h
      all_goals cases rest <;> grind [WorkerPC.holdsConnect, ConnectStage.drainNext]
  | failClose =>
      simp only [ConnectStage.next] at h
      cases hq : s.queue <;> grind [WorkerPC.holdsConnect, ConnectStage.drainNext]
  | _ =>
      simp only [ConnectStage.next] at h
      repeat' split at h
      all_goals grind [WorkerPC.holdsConnect]

lemma WorkerPC.next_course {s : Shared} {c : Choice} {pc pc' : WorkerPC} {a : Access}
    (h : pc.next s c = some (a, pc')) : WorkerPC.Course a pc pc' := by
  cases pc with
  | running e r =>
      obtain ⟨hlock, hne, hwait, hslot⟩ := RunStage.next_course h
      have hpc' : pc' ≠ .notStarted := by
        rcases RunStage.next_pc h with rfl | ⟨r', rfl⟩ <;> simp
      exact ⟨hlock, fun hor => absurd hor (by simp [hne, holdsConnect]), hwait, hpc', hslot⟩
  | connecting stage =>
      obtain ⟨hlock, hholds, hwait, hpc', hslot⟩ := ConnectStage.next_course h
      exact ⟨fun t ht => absurd ht (hlock t), fun _ => hholds, hwait, hpc',
        fun e he => absurd he (hslot e)⟩
  | taking =>
      simp only [WorkerPC.next] at h
      constructor <;> grind [holdsConnect]
  | leaving stage =>
      cases stage <;> simp only [WorkerPC.next, LeaveStage.next] at h
      all_goals constructor
      all_goals grind [holdsConnect]
  | notStarted | ended => exact absurd h (by simp [WorkerPC.next])

/-- What the main thread does to the mutexes, on its way through `connect` and on its way
through `shutdown`. -/
structure MainPC.Course (s : Shared) (a : Access) (pc pc' : MainPC) : Prop where
  lock : ∀ t, a = .lockQuery t → t = .main ∧ pc'.locked = true
  locked : pc.locked = true → a = .unlockQuery ∨ pc'.locked = true
  connect : a ≠ .lockConnect
  canWait : a = .setCanWait true → pc.starting = true
  started : a = .setStartedConnecting → pc'.starting = true
  starting : pc.starting = true → pc = .connect .spawn ∨ pc'.starting = true
  shuttingDown : a = .setShuttingDown → pc'.closing = true
  closing : pc.closing = true → a = .closeAndClear ∨ pc'.closing = true
  joining : pc' = .joining → pc.shutting = true
  block : ∀ e, pc' = .waiting e .block → s.canWait = true

lemma MainPC.next_course {s : Shared} {c : Choice} {pc pc' : MainPC} {a : Access}
    (h : pc.next s c = some (a, pc')) : MainPC.Course s a pc pc' := by
  cases pc with
  | enqueue e stage =>
      cases stage <;> simp only [MainPC.next, EnqueueStage.next] at h
      all_goals repeat' split at h
      all_goals cases h
      all_goals constructor <;> simp [locked, starting, closing]
  | abort e stage =>
      cases stage <;> simp only [MainPC.next, AbortStage.next] at h
      all_goals repeat' split at h
      all_goals cases h
      all_goals constructor <;> simp [locked, starting, closing]
  | cancel d stage caller =>
      cases stage <;> cases caller <;>
        simp only [MainPC.next, CancelStage.next, CancelCaller.resume] at h
      all_goals repeat' split at h
      all_goals cases h
      all_goals constructor <;> simp [locked, starting, closing]
  | abortAll stage g =>
      cases stage <;> simp only [MainPC.next, AbortAllStage.next] at h
      all_goals repeat' split at h
      all_goals cases h
      all_goals constructor <;> simp [locked, starting, closing]
  | shutdown stage join g =>
      cases stage <;> simp only [MainPC.next, ShutdownStage.next] at h
      all_goals repeat' split at h
      all_goals cases h
      all_goals constructor <;> simp [locked, starting, closing, shutting]
  | waiting e stage =>
      cases stage with
      | complete stage =>
          cases stage <;> simp only [MainPC.next, WaitStage.next, CompleteStage.next] at h
          all_goals cases h
          all_goals constructor <;> simp [locked, starting, closing]
      | _ =>
          simp only [MainPC.next, WaitStage.next] at h
          repeat' split at h
          all_goals cases h
          all_goals constructor <;> simp_all [locked, starting, closing]
  | ping stage =>
      cases stage <;> simp only [MainPC.next, PingStage.next] at h
      all_goals repeat' split at h
      all_goals constructor
      all_goals grind [locked, starting, closing, ReconnectStage.next_access]
  | connect stage =>
      cases stage <;> simp only [MainPC.next, ConnectCallStage.next] at h
      all_goals repeat' split at h
      all_goals cases h
      all_goals constructor <;> simp [locked, starting, closing]
  | idle | joining => exact absurd h (by simp [MainPC.next])

/-- The in-flight slot is emptied before the worker thread goes back to the queue. -/
lemma RunStage.next_slot {s : Shared} {c : Choice} {e : Execution} {r : RunStage} {a : Access}
    {pc : WorkerPC} (h : r.next s c e = some (a, pc)) (hr : r.inFlight = true) :
    a = .clearInFlight e ∨ ∃ r', pc = .running e r' ∧ r'.inFlight = true := by
  cases r <;> simp only [RunStage.next] at h
  all_goals repeat' split at h
  all_goals grind [RunStage.inFlight]

namespace Shared

variable {s : Shared} {a : Access}

lemma queryMutex_of_apply {t : Thread} (h : (s.apply a).queryMutex = some t) :
    a = .lockQuery t ∨ s.queryMutex = some t ∧ a ≠ .unlockQuery := by
  cases a with
  | connectSession error => cases error <;> exact .inr ⟨h, by simp⟩
  | lockQuery t' => exact .inl (congrArg _ (Option.some.inj h))
  | unlockQuery => exact absurd h (by simp [apply])
  | _ => exact .inr ⟨h, by simp⟩

lemma connectMutex_of_apply (h : (s.apply a).connectMutex = true) :
    a = .lockConnect ∨ s.connectMutex = true ∧ a ≠ .unlockConnect := by
  cases a with
  | connectSession error => cases error <;> exact .inr ⟨h, by simp⟩
  | lockConnect => exact .inl rfl
  | unlockConnect => exact absurd h (by simp [apply])
  | _ => exact .inr ⟨h, by simp⟩

lemma inFlight_of_apply {e : Execution} (h : (s.apply a).inFlight = some e) :
    a = .setInFlight e ∨ s.inFlight = some e ∧ a ≠ .clearInFlight e := by
  cases a with
  | connectSession error => cases error <;> exact .inr ⟨h, by simp⟩
  | setInFlight e' => exact .inl (congrArg _ (Option.some.inj h))
  | clearInFlight e' =>
      simp only [apply] at h
      split at h
      · exact absurd h (by simp)
      · rename_i hne
        refine .inr ⟨h, ?_⟩
        rintro ⟨⟩
        exact hne h
  | _ => exact .inr ⟨h, by simp⟩

lemma startedConnecting_apply (h : s.startedConnecting = true) :
    (s.apply a).startedConnecting = true := by
  cases hstarted : (s.apply a).startedConnecting with
  | true => rfl
  | false => exact absurd (h.symm.trans (startedConnecting_of_apply hstarted)) (by simp)

lemma startedConnecting_of_apply_eq (ha : a ≠ .setStartedConnecting) :
    (s.apply a).startedConnecting = s.startedConnecting := by
  cases a with
  | connectSession error => cases error <;> rfl
  | setStartedConnecting => exact absurd rfl ha
  | _ => rfl

lemma shuttingDown_of_apply_eq (h : (s.apply a).shuttingDown = true) :
    a = .setShuttingDown ∨ s.shuttingDown = true := by
  by_cases ha : a = .setShuttingDown
  · exact .inl ha
  · exact .inr ((shuttingDown_of_apply ha).symm.trans h)

end Shared

namespace State

variable {C : State → Action → Prop} {s t : State}

/-! ### Who holds a mutex -/

/-- A mutex that is held is held at a point between its acquisition and its release, and the
in-flight slot is occupied in the turn of an execution only. -/
structure HeldAt (s : State) : Prop where
  worker : s.queryMutex = some .worker → s.workerPC.locked = true
  main : s.queryMutex = some .main → s.mainPC.locked = true
  connect : s.connectMutex = true → s.workerPC.holdsConnect = true
  inFlight : ∀ e, s.inFlight = some e → ∃ r, s.workerPC = .running e r ∧ r.inFlight = true

lemma HeldAt.stepWorker {c : Choice} {a : Access} {pc : WorkerPC} (hI : s.HeldAt)
    (hnext : s.workerPC.next s.toShared c = some (a, pc)) : (s.stepWorker a pc).HeldAt := by
  have hcourse := WorkerPC.next_course hnext
  refine ⟨fun hmutex => ?_, fun hmutex => ?_, fun hmutex => ?_, fun e he => ?_⟩
  · rcases Shared.queryMutex_of_apply hmutex with ha | ⟨hheld, hne⟩
    · exact (hcourse.lock _ ha).2
    · have hlocked := hI.worker hheld
      rcases WorkerPC.next_locked hnext with ⟨-, hfree⟩ | ⟨ha, -⟩ | ⟨-, hkeep⟩
      · exact absurd (hheld.symm.trans hfree) (by simp)
      · exact absurd ha hne
      · exact hkeep.trans hlocked
  · rcases Shared.queryMutex_of_apply hmutex with ha | ⟨hheld, -⟩
    · exact absurd (hcourse.lock _ ha).1 (by simp)
    · exact hI.main hheld
  · rcases Shared.connectMutex_of_apply hmutex with ha | ⟨hheld, hne⟩
    · exact (hcourse.connect (.inl ha)).resolve_left (by simp [ha])
    · exact (hcourse.connect (.inr (hI.connect hheld))).resolve_left hne
  · rcases Shared.inFlight_of_apply he with ha | ⟨hheld, hne⟩
    · exact hcourse.slot e ha
    · obtain ⟨r, hpc, hr⟩ := hI.inFlight e hheld
      rw [hpc] at hnext
      exact (RunStage.next_slot hnext hr).resolve_left hne

lemma HeldAt.stepMain {c : Choice} {a : Access} {pc : MainPC} (hI : s.HeldAt)
    (hnext : s.mainPC.next s.toShared c = some (a, pc)) : (s.stepMain a pc).HeldAt := by
  have hcourse := MainPC.next_course hnext
  refine ⟨fun hmutex => ?_, fun hmutex => ?_, fun hmutex => ?_, fun e he => ?_⟩
  · rcases Shared.queryMutex_of_apply hmutex with ha | ⟨hheld, -⟩
    · exact absurd (hcourse.lock _ ha).1 (by simp)
    · exact hI.worker hheld
  · rcases Shared.queryMutex_of_apply hmutex with ha | ⟨hheld, hne⟩
    · exact (hcourse.lock _ ha).2
    · exact (hcourse.locked (hI.main hheld)).resolve_left hne
  · rcases Shared.connectMutex_of_apply hmutex with ha | ⟨hheld, -⟩
    · exact absurd ha hcourse.connect
    · exact hI.connect hheld
  · rcases Shared.inFlight_of_apply he with rfl | ⟨hheld, -⟩
    · exact absurd (MainPC.next_ofRun hnext) (by simp [Access.ofRun])
    · exact hI.inFlight e hheld

theorem heldAt_of_reach (h : system.Reach C s) : s.HeldAt := by
  refine system_invariant (I := HeldAt) ⟨by simp, by simp, by simp, by simp⟩
    (fun s t a hr hI _ hstep => ?_) h
  -- between two operations the main thread holds nothing
  have hidle : s.mainPC.locked = false → s.queryMutex ≠ some .main := fun hpc hmutex =>
    absurd ((hI.main hmutex).symm.trans hpc) (by simp)
  cases hstep with
  | worker hnext => exact hI.stepWorker hnext
  | main hspawn hnext => exact hI.stepMain hnext
  | spawn hpc =>
      have hworker := ((startedOnce hr).connecting _ hpc (by simp) (by simp)).1
      refine ⟨fun hmutex => ?_, fun hmutex => ?_, fun hmutex => ?_, fun e he => ?_⟩
      · exact absurd (hI.worker hmutex) (by simp [hworker, WorkerPC.locked])
      · exact absurd hmutex (hidle (by rw [hpc]; rfl))
      · exact absurd (hI.connect hmutex) (by simp [hworker, WorkerPC.holdsConnect])
      · obtain ⟨r, hrunning, -⟩ := hI.inFlight e he
        exact absurd (hworker.symm.trans hrunning) (by simp)
  | join hpc hworker =>
      exact ⟨hI.worker, fun hmutex => absurd hmutex (hidle (by rw [hpc]; rfl)), hI.connect,
        hI.inFlight⟩
  | call hpc hcall =>
      have hnone : s.queryMutex ≠ some .main := hidle (by rw [hpc]; rfl)
      cases hcall <;>
        exact ⟨hI.worker, fun hmutex => absurd hmutex hnone, hI.connect, hI.inFlight⟩
  | connectionLost => exact ⟨hI.worker, hI.main, hI.connect, hI.inFlight⟩

/-! ### What a blocked thread waits for -/

/-- The flags that decide whether a thread may wait: once `startedConnecting` is set the worker
thread is started, or is about to be, and once `m_shuttingDown` is set the queue is closed, or
is about to be. -/
structure Underway (s : State) : Prop where
  canWait : s.canWait = true → s.startedConnecting = true
  started : s.startedConnecting = true → s.workerPC ≠ .notStarted ∨ s.mainPC.starting = true
  block : ∀ e, s.mainPC = .waiting e .block → s.startedConnecting = true
  shuttingDown : s.shuttingDown = true → s.closed = true ∨ s.mainPC.closing = true
  joining : s.mainPC = .joining → s.shuttingDown = true

lemma starting_started (h : system.Reach C s) (hpc : s.mainPC.starting = true) :
    s.startedConnecting = true := by
  unfold MainPC.starting at hpc
  split at hpc
  · rename_i stage hstage
    obtain ⟨h1, h2⟩ := of_decide_eq_true hpc
    exact ((startedOnce h).connecting stage hstage h1 h2).2
  · exact absurd hpc (by simp)

lemma Underway.stepWorker {c : Choice} {a : Access} {pc : WorkerPC} (hI : s.Underway)
    (hnext : s.workerPC.next s.toShared c = some (a, pc)) : (s.stepWorker a pc).Underway := by
  have hmain := WorkerPC.next_ofMain hnext
  have hcourse := WorkerPC.next_course hnext
  refine ⟨fun hwait => ?_, fun _ => .inl hcourse.started, fun e he => ?_, fun hdown => ?_, fun hjoin => ?_⟩
  · rcases Shared.apply_canWait.1 hwait with ha | ⟨hwait, -⟩
    · exact absurd ha hcourse.canWait
    · exact Shared.startedConnecting_apply (hI.canWait hwait)
  · exact Shared.startedConnecting_apply (hI.block e he)
  · rcases Shared.shuttingDown_of_apply_eq hdown with rfl | hdown
    · exact absurd hmain (by simp [Access.ofMain])
    · exact (hI.shuttingDown hdown).imp_left Shared.closed_apply
  · exact Shared.apply_shuttingDown (hI.joining hjoin)

lemma Underway.stepMain {c : Choice} {a : Access} {pc : MainPC} (hI : s.Underway)
    (hr : system.Reach C s) (hspawn : s.mainPC ≠ .connect .spawn)
    (hnext : s.mainPC.next s.toShared c = some (a, pc)) : (s.stepMain a pc).Underway := by
  have hcourse := MainPC.next_course hnext
  refine ⟨fun hwait => ?_, fun hstarted => ?_, fun e he => ?_, fun hdown => ?_, fun hjoin => ?_⟩
  · rcases Shared.apply_canWait.1 hwait with ha | ⟨hwait, -⟩
    · exact Shared.startedConnecting_apply (starting_started hr (hcourse.canWait ha))
    · exact Shared.startedConnecting_apply (hI.canWait hwait)
  · by_cases ha : a = .setStartedConnecting
    · exact .inr (hcourse.started ha)
    · have hbefore := (Shared.startedConnecting_of_apply_eq ha).symm.trans hstarted
      rcases hI.started hbefore with hworker | hstarting
      · exact .inl hworker
      · exact .inr ((hcourse.starting hstarting).resolve_left hspawn)
  · exact Shared.startedConnecting_apply (hI.canWait (hcourse.block e he))
  · rcases Shared.shuttingDown_of_apply_eq hdown with ha | hdown
    · exact .inr (hcourse.shuttingDown ha)
    · rcases hI.shuttingDown hdown with hclosed | hclosing
      · exact .inl (Shared.closed_apply hclosed)
      · rcases hcourse.closing hclosing with rfl | hclosing
        · exact .inl rfl
        · exact .inr hclosing
  · exact Shared.apply_shuttingDown ((sweeping_of_reach hr).shuttingDown (hcourse.joining hjoin))

theorem underway_of_reach (h : system.Reach C s) : s.Underway := by
  refine system_invariant (I := Underway) ⟨by simp, by simp, by simp, by simp, by simp⟩
    (fun s t a hr hI _ hstep => ?_) h
  cases hstep with
  | worker hnext => exact hI.stepWorker hnext
  | main hspawn hnext => exact hI.stepMain hr hspawn hnext
  | spawn hpc =>
      refine ⟨hI.canWait, fun _ => .inl (by simp), by simp, fun hdown => ?_, by simp⟩
      exact .inl ((hI.shuttingDown hdown).resolve_right (by simp [hpc, MainPC.closing]))
  | join hpc hworker =>
      refine ⟨hI.canWait, fun hstarted => ?_, by simp, fun hdown => ?_, by simp⟩
      · exact .inl ((hI.started hstarted).resolve_right (by simp [hpc, MainPC.starting]))
      · exact .inl ((hI.shuttingDown hdown).resolve_right (by simp [hpc, MainPC.closing]))
  | call hpc hcall =>
      have hstarted := fun h => (hI.started h).resolve_right (by simp [hpc, MainPC.starting])
      have hclosed := fun h => (hI.shuttingDown h).resolve_right (by simp [hpc, MainPC.closing])
      have hblock : ∀ e, s.mainPC ≠ .waiting e .block := by simp [hpc]
      have hjoin : s.mainPC ≠ .joining := by simp [hpc]
      cases hcall with
      | start => exact ⟨hI.canWait, fun h => .inl (hstarted h), by simp, fun h => .inl (hclosed h), by simp⟩
      | enter hentry =>
          refine ⟨hI.canWait, fun h => .inl (hstarted h), fun e he => ?_,
            fun h => .inl (hclosed h), fun hjoining => ?_⟩
          · cases hentry <;> exact absurd he (by simp)
          · cases hentry <;> exact absurd hjoining (by simp)
      | swapToFront =>
          refine ⟨hI.canWait, hI.started, hI.block, fun h => .inl ?_, hI.joining⟩
          exact (BlockingQueue.swapToFrontIf_closed _ _).trans (hclosed h)
      | _ => exact ⟨hI.canWait, hI.started, hI.block, hI.shuttingDown, hI.joining⟩
  | connectionLost =>
      exact ⟨hI.canWait, hI.started, hI.block, hI.shuttingDown, hI.joining⟩

end State

/-! ### What user code calls with -/

/-- The execution that a step builds. -/
def State.builds (s : State) : Action → Option Execution
  | .call (.start query children) => some (s.newExecution query children)
  | _ => none

lemma MainPC.next_enqueue {s : Shared} {c : Choice} {e : Execution} {stage : EnqueueStage}
    {a : Access} {pc : MainPC} (h : (MainPC.enqueue e stage).next s c = some (a, pc)) :
    (∃ stage', pc = .enqueue e stage') ∨ a = .put e ∨ a = .setFinished e := by
  cases stage <;> simp only [MainPC.next, EnqueueStage.next] at h
  all_goals grind

namespace State

variable {C : State → Action → Prop} {s t : State}

/-- What is finished stays finished. -/
lemma finished_of_step {a : Action} {e : Execution} (h : Step s a t)
    (he : (s.own e).finished = true) : (t.own e).finished = true := by
  cases h with
  | worker hnext => exact Shared.apply_finished_mono he
  | main hspawn hnext => exact Shared.apply_finished_mono he
  | call hidle hcall => cases hcall <;> exact he
  | spawn | join | connectionLost => exact he

/-- An execution that `start` has built is accepted, or finished, or `enqueueQuery` has not
returned. -/
def Known (s : State) (e : Execution) : Prop :=
  e ∈ s.history.accepted ∨ (s.own e).finished = true ∨ ∃ stage, s.mainPC = .enqueue e stage

lemma Known.step {a : Action} {e : Execution} (h : s.Known e) (hstep : Step s a t) :
    t.Known e := by
  rcases h with haccepted | hfinished | ⟨stage, hpc⟩
  · exact .inl (mem_accepted_of_step hstep haccepted)
  · exact .inr (.inl (finished_of_step hstep hfinished))
  cases hstep with
  | worker => exact .inr (.inr ⟨stage, hpc⟩)
  | @main c a pc hspawn hnext =>
      rcases MainPC.next_moves hnext with hmoves | ⟨x, hput, rfl, -, -⟩
      · rw [hpc] at hnext
        rcases MainPC.next_enqueue hnext with ⟨stage', rfl⟩ | ha | rfl
        · exact .inr (.inr ⟨stage', rfl⟩)
        · exact absurd ha (hmoves.ne_put e)
        · exact .inr (.inl (by simp [stepMain, Shared.apply]))
      · obtain ⟨rfl, -⟩ : e = x ∧ _ := by simpa [hpc] using hput
        exact .inl (List.mem_append_right _ List.mem_cons_self)
  | spawn hspawn => exact absurd (hpc.symm.trans hspawn) (by simp)
  | join hjoin => exact absurd (hpc.symm.trans hjoin) (by simp)
  | call hidle => exact absurd (hpc.symm.trans hidle) (by simp)
  | connectionLost => exact .inr (.inr ⟨stage, hpc⟩)

end State

/-! ### What is enabled -/

lemma ReconnectStage.enabled (s : Shared) (r : ReconnectStage) :
    ∃ z, r.next s (.connected none) = some z := by
  cases r <;> simp only [ReconnectStage.next, Option.some.injEq, exists_eq']
  split <;> exact ⟨_, rfl⟩

/-- In the turn of an execution, only the acquisition of `m_queryMutex` can block. -/
lemma RunStage.enabled {s : Shared} {e : Execution} {r : RunStage}
    (h : s.queryMutex = none ∨ r ≠ .lockQuery) : ∃ c z, r.next s c e = some z := by
  cases r with
  | lockQuery => exact ⟨.go, by simp [RunStage.next, h.resolve_right (by simp)]⟩
  | reconnectFirst r | reconnectAgain error r =>
      obtain ⟨⟨a, z⟩, hz⟩ := r.enabled s
      refine ⟨.connected none, ?_⟩
      rcases z with r' | _ | _ <;> simp [RunStage.next, hz]
  | executing todo current =>
      cases current with
      | some i => exact ⟨.nextChild, by simp [RunStage.next]⟩
      | none =>
          cases todo with
          | nil => exact ⟨.left none, by simp [RunStage.next]⟩
          | cons i rest => exact ⟨.nextChild, by simp [RunStage.next]⟩
  | leaveGuard thrown => cases thrown <;> exact ⟨.go, _, rfl⟩
  | _ =>
      refine ⟨.go, ?_⟩
      simp only [RunStage.next]
      first
        | exact ⟨_, rfl⟩
        | (split <;> exact ⟨_, rfl⟩)

lemma ConnectStage.enabled {s : Shared} (stage : ConnectStage) (hquery : s.queryMutex = none)
    (hconnect : s.connectMutex = true → stage ≠ .lockConnect) :
    ∃ c z, stage.next s c = some z := by
  cases stage with
  | lockConnect =>
      have hfree : s.connectMutex = false := Bool.eq_false_iff.2 fun hheld => hconnect hheld rfl
      exact ⟨.go, by simp [ConnectStage.next, hfree]⟩
  | attemptConnection => exact ⟨.connected none, by simp [ConnectStage.next, hquery]⟩
  | drain e stage rest reason => cases stage <;> exact ⟨.go, _, rfl⟩
  | _ => exact ⟨.go, _, rfl⟩

lemma LeaveStage.enabled {s : Shared} (stage : LeaveStage) (h : s.queryMutex = none) :
    ∃ z, stage.next s = some z := by
  cases stage <;> simp only [LeaveStage.next, h, if_true, Option.some.injEq, exists_eq']
  split <;> exact ⟨_, rfl⟩

/-- The main thread is blocked by `m_queryMutex` and in `waitForQuery` only. -/
lemma MainPC.enabled {s : Shared} (pc : MainPC) (hidle : pc ≠ .idle) (hjoining : pc ≠ .joining)
    (hping : pc = .ping .lockQuery → s.queryMutex = none)
    (hblock : ∀ e, pc = .waiting e .block → (s.own e).finished = true) :
    ∃ c z, pc.next s c = some z := by
  cases pc with
  | idle => exact absurd rfl hidle
  | joining => exact absurd rfl hjoining
  | enqueue | abort | abortAll | shutdown | connect => exact ⟨.go, _, rfl⟩
  | cancel d stage caller =>
      cases stage with
      | lookup =>
          refine ⟨.gotCancel true, ?_⟩
          simp only [MainPC.next, CancelStage.next]
          cases s.activeQuery.activeConnection <;> split <;> exact ⟨_, rfl⟩
      | send connection => exact ⟨.cancelSent true, _, rfl⟩
      | clearRequest => exact ⟨.go, _, rfl⟩
  | waiting e stage =>
      refine ⟨.go, ?_⟩
      cases stage with
      | block => simp [MainPC.next, WaitStage.next, hblock e rfl]
      | complete stage => cases stage <;> exact ⟨_, rfl⟩
      | removeQueued =>
          simp only [MainPC.next, WaitStage.next]
          split <;> exact ⟨_, rfl⟩
      | _ => exact ⟨_, rfl⟩
  | ping stage =>
      cases stage with
      | lockQuery => exact ⟨.go, by simp [MainPC.next, PingStage.next, hping rfl]⟩
      | ping =>
          refine ⟨.pinged true, ?_⟩
          simp only [MainPC.next, PingStage.next]
          split <;> exact ⟨_, rfl⟩
      | reconnect r =>
          obtain ⟨⟨a, z⟩, hz⟩ := r.enabled s
          refine ⟨.connected none, ?_⟩
          rcases z with r' | b <;> simp [MainPC.next, PingStage.next, hz]
      | _ => exact ⟨.go, _, rfl⟩

/-! ### At rest -/

namespace State

variable {C : State → Action → Prop} {s t : State}

/-- The main thread has returned to user code, and the worker thread has nothing to do. -/
structure Resting (s : State) : Prop where
  main : s.mainPC = .idle
  worker : s.workerPC = .notStarted ∨ s.workerPC = .ended ∨
    s.workerPC = .taking ∧ s.queue = [] ∧ s.closed = false

/-- A thread whose next access is enabled takes a step. -/
lemma worker_blocked (h : system.Rests Action.ofThread s) (c : Choice) :
    s.workerPC.next s.toShared c = none :=
  Option.map_eq_none_iff.1 (h (.worker c) rfl)

lemma main_blocked (h : system.Rests Action.ofThread s) (c : Choice)
    (hspawn : s.mainPC ≠ .connect .spawn) (hjoin : s.mainPC ≠ .joining) :
    s.mainPC.next s.toShared c = none := by
  have hnone : s.continueMain c = none := h (.main c) rfl
  unfold State.continueMain at hnone
  split at hnone
  · rename_i hpc
    exact absurd hpc hspawn
  · rename_i hpc
    exact absurd hpc hjoin
  · exact Option.map_eq_none_iff.1 hnone

/-- While no thread can take a step, no mutex is held. -/
lemma unlocked_of_rests (hr : system.Reach C s) (h : system.Rests Action.ofThread s) :
    s.queryMutex = none ∧ s.connectMutex = false := by
  have hheld := heldAt_of_reach hr
  have hquery : s.queryMutex = none := by
    rcases hmutex : s.queryMutex with _ | _ | _
    · rfl
    · -- the main thread is inside `ping`
      have hlocked := hheld.main hmutex
      obtain ⟨c, z, hz⟩ := s.mainPC.enabled (s := s.toShared)
        (fun hpc => absurd hlocked (by simp [hpc, MainPC.locked]))
        (fun hpc => absurd hlocked (by simp [hpc, MainPC.locked]))
        (fun hpc => absurd hlocked (by simp [hpc, MainPC.locked]))
        (fun e hpc => absurd hlocked (by simp [hpc, MainPC.locked]))
      have hnone := main_blocked h c (fun hpc => absurd hlocked (by simp [hpc, MainPC.locked]))
        (fun hpc => absurd hlocked (by simp [hpc, MainPC.locked]))
      exact absurd (hz.symm.trans hnone) (by simp)
    · -- the worker thread is in the turn of an execution
      have hlocked := hheld.worker hmutex
      cases hpc : s.workerPC with
      | running e r =>
          obtain ⟨c, z, hz⟩ := RunStage.enabled (s := s.toShared) (e := e) (r := r)
            (.inr fun hr => absurd hlocked (by simp [hpc, hr, WorkerPC.locked, RunStage.locked]))
          have hnone := worker_blocked h c
          rw [hpc] at hnone
          exact absurd (hz.symm.trans hnone) (by simp)
      | _ => exact absurd hlocked (by simp [hpc, WorkerPC.locked])
  refine ⟨hquery, Bool.eq_false_iff.2 fun hconnect => ?_⟩
  have hholds := hheld.connect hconnect
  cases hpc : s.workerPC with
  | connecting stage =>
      have hne : stage ≠ .lockConnect := by
        rintro rfl
        exact absurd hholds (by simp [hpc, WorkerPC.holdsConnect])
      obtain ⟨c, z, hz⟩ := stage.enabled hquery fun _ => hne
      have hnone := worker_blocked h c
      rw [hpc] at hnone
      exact absurd (hz.symm.trans hnone) (by simp)
  | _ => exact absurd hholds (by simp [hpc, WorkerPC.holdsConnect])

/-- A worker thread that can take no step has nothing to do. -/
lemma worker_of_rests (hr : system.Reach C s) (h : system.Rests Action.ofThread s) :
    s.workerPC = .notStarted ∨ s.workerPC = .ended ∨
      s.workerPC = .taking ∧ s.queue = [] ∧ s.closed = false := by
  obtain ⟨hquery, hconnect⟩ := unlocked_of_rests hr h
  have hblocked := worker_blocked h
  cases hpc : s.workerPC with
  | notStarted => exact .inl rfl
  | ended => exact .inr (.inl rfl)
  | connecting stage =>
      obtain ⟨c, z, hz⟩ := stage.enabled hquery
        fun hheld => absurd (hheld.symm.trans hconnect) (by simp)
      exact absurd (hz.symm.trans (hpc ▸ hblocked c)) (by simp)
  | running e r =>
      obtain ⟨c, z, hz⟩ := RunStage.enabled (e := e) (r := r) (.inl hquery)
      exact absurd (hz.symm.trans (hpc ▸ hblocked c)) (by simp)
  | leaving stage =>
      obtain ⟨z, hz⟩ := stage.enabled hquery
      exact absurd (hz.symm.trans (hpc ▸ hblocked .go)) (by simp)
  | taking =>
      have hnone := hblocked .go
      rw [hpc] at hnone
      simp only [WorkerPC.next] at hnone
      cases hqueue : s.queue with
      | nil =>
          refine .inr (.inr ⟨rfl, rfl, Bool.eq_false_iff.2 fun hclosed => ?_⟩)
          exact absurd hnone (by simp [hqueue, hclosed])
      | cons e rest => exact absurd hnone (by simp [hqueue])

/-- **No deadlock.**  If neither thread can take a step, and the execution that is waited for
is one that user code knows, user code is running and the worker thread has nothing to do. -/
theorem resting_of_known (hs : system.Reachable s) (h : system.Rests Action.ofThread s)
    (hknown : ∀ e, s.mainPC = .waiting e .block → s.Known e) : s.Resting := by
  obtain ⟨hquery, -⟩ := unlocked_of_rests hs h
  have hworker := worker_of_rests hs h
  have hunder := underway_of_reach hs
  refine ⟨by_contra fun hidle => ?_, hworker⟩
  have hspawn : s.mainPC ≠ .connect .spawn := fun hpc => by
    have hnone : s.continueMain .go = none := h (.main .go) rfl
    simp [State.continueMain, hpc] at hnone
  have hjoining : s.mainPC ≠ .joining := fun hpc => by
    -- the queue is closed, so the worker thread has left it
    have hclosed : s.closed = true :=
      (hunder.shuttingDown (hunder.joining hpc)).resolve_right (by simp [hpc, MainPC.closing])
    have hnone : s.continueMain .go = none := h (.main .go) rfl
    rcases hworker with hw | hw | ⟨-, -, hopen⟩
    · simp [State.continueMain, hpc, hw] at hnone
    · simp [State.continueMain, hpc, hw] at hnone
    · exact absurd (hclosed.symm.trans hopen) (by simp)
  have hblock : ∀ e, s.mainPC = .waiting e .block → (s.own e).finished = true := by
    intro e hpc
    -- the execution that is waited for is neither queued nor in the hands of a thread
    have hstarted : s.workerPC ≠ .notStarted :=
      (hunder.started (hunder.block e hpc)).resolve_right (by simp [hpc, MainPC.starting])
    have hqueue : s.queue = [] := by
      rcases hworker with hw | hw | ⟨-, hqueue, -⟩
      · exact absurd hw hstarted
      · exact (finished_of_ended hs hw).queue
      · exact hqueue
    have hpending : s.workerPC.pending = [] := by
      rcases hworker with hw | hw | ⟨hw, -⟩ <;> rw [hw] <;> rfl
    rcases hknown e hpc with haccepted | hfinished | ⟨stage, henqueue⟩
    · rcases unsettled hs haccepted with hmem | hmem | hmem | hfinished
      · exact absurd hmem (by simp [hqueue])
      · exact absurd hmem (by simp [hpending])
      · exact absurd hmem (by simp [hpc, MainPC.pending])
      · exact hfinished
    · exact hfinished
    · exact absurd (hpc.symm.trans henqueue) (by simp)
  obtain ⟨c, z, hz⟩ := s.mainPC.enabled hidle hjoining (fun _ => hquery) hblock
  exact absurd (hz.symm.trans (main_blocked h c hspawn hjoining)) (by simp)

lemma Resting.rests (h : s.Resting) : system.Rests Action.ofThread s := by
  intro a hown
  cases a with
  | worker c =>
      have hnone : s.workerPC.next s.toShared c = none := by
        rcases h.worker with hw | hw | ⟨hw, hqueue, hopen⟩ <;> rw [hw]
        · rfl
        · rfl
        · simp [WorkerPC.next, hqueue, hopen]
      exact Option.map_eq_none_iff.2 hnone
  | main c =>
      show s.continueMain c = none
      simp [State.continueMain, h.main, MainPC.next]
  | call | connectionLost => exact absurd hown (by simp [Action.ofThread])

/-- The database at rest: nothing is queued, published, in flight or locked, and `wait` returns
at once. -/
structure Clear (s : State) : Prop where
  connectionDone : s.connectionDone = true
  queue : s.queue = []
  active : s.activeQuery = {}
  inFlight : s.inFlight = none
  queryMutex : s.queryMutex = none
  connectMutex : s.connectMutex = false

/-- **Nothing is left over.**  When the threads have come to rest after `connect`, every
accepted execution is finished and has been handed over, once, through `finishedQueries` or to
the caller of an abort; nothing is queued, published, in flight or locked, and the initial
attempt is over, so that `wait` returns. -/
theorem settled_at_rest (hr : system.Reachable s) (hrest : s.Resting)
    (hstarted : s.startedConnecting = true) :
    s.Clear ∧ ∀ e ∈ s.history.accepted, (s.own e).finished = true ∧
      s.history.finished.count e + s.history.returned.count e = 1 := by
  have hworker : s.workerPC ≠ .notStarted :=
    ((underway_of_reach hr).started hstarted).resolve_right
      (by simp [hrest.main, MainPC.starting])
  have hqueue : s.queue = [] := by
    rcases hrest.worker with hw | hw | ⟨-, hqueue, -⟩
    · exact absurd hw hworker
    · exact (finished_of_ended hr hw).queue
    · exact hqueue
  have hholds : s.workerPC.holds = [] ∧ s.workerPC.pending = [] ∧ s.workerPC.active = none ∧
      s.inFlight = none := by
    have hslot : (∀ e r, s.workerPC ≠ .running e r) → s.inFlight = none := fun hne =>
      Option.eq_none_iff_forall_ne_some.2 fun e he => by
        obtain ⟨r, hpc, -⟩ := (heldAt_of_reach hr).inFlight e he
        exact hne e r hpc
    rcases hrest.worker with hw | hw | ⟨hw, -⟩ <;> rw [hw] <;>
      exact ⟨rfl, rfl, rfl, hslot (by simp [hw])⟩
  have hdone : s.connectionDone = true := by
    have hpublishes : s.workerPC.Publishes s.connectionDone s.success s.disconnected :=
      publishes_of_reach hr
    rcases hrest.worker with hw | hw | ⟨hw, -⟩
    · exact absurd hw hworker
    · rw [hw] at hpublishes
      exact hpublishes.1
    · rw [hw] at hpublishes
      exact hpublishes.1
  obtain ⟨hquery, hconnect⟩ := unlocked_of_rests hr hrest.rests
  refine ⟨⟨hdone, hqueue, (published_of_reach hr).none hholds.2.2.1, hholds.2.2.2, hquery, hconnect⟩,
    fun e he => ⟨?_, ?_⟩⟩
  · rcases unsettled hr he with hmem | hmem | hmem | hfinished
    · exact absurd hmem (by simp [hqueue])
    · exact absurd hmem (by simp [hholds.2.1])
    · exact absurd hmem (by simp [hrest.main, MainPC.pending])
    · exact hfinished
  · have hplace := accounting hr e
    rw [hqueue, hholds.1, hrest.main] at hplace
    simpa [MainPC.holds, List.count_eq_one_of_mem (numbered hr).nodup he] using hplace

/-- Of two executions the first is run, and the second aborted while it is queued. -/
def abortedMeanwhileRun : List Action :=
  connectSteps ++ connectedSteps ++ startSteps 0 0 ++ startSteps 1 0 ++ workerSteps 10 ++
    .call (.abort ⟨1, 1, 0⟩) :: mainSteps 4 ++ .worker (.left none) :: workerSteps 9

set_option maxRecDepth 4000 in
theorem settled_at_rest_abortedMeanwhileRun :
    ∃ s, system.run system.init abortedMeanwhileRun = some s ∧
      s.history.accepted = [⟨0, 0, 0⟩, ⟨1, 1, 0⟩] ∧ s.history.returned = [⟨1, 1, 0⟩] ∧
      s.Clear ∧ ∀ e ∈ s.history.accepted, (s.own e).finished = true ∧
        s.history.finished.count e + s.history.returned.count e = 1 := by
  obtain ⟨s, hs⟩ : ∃ s, system.run system.init abortedMeanwhileRun = some s := ⟨_, rfl⟩
  have hstate : (system.run system.init abortedMeanwhileRun).map (fun s =>
      (s.mainPC, s.workerPC, s.queue, s.closed, s.startedConnecting, s.history.accepted,
        s.history.returned)) =
      some (.idle, .taking, [], false, true, [⟨0, 0, 0⟩, ⟨1, 1, 0⟩], [⟨1, 1, 0⟩]) := rfl
  rw [hs] at hstate
  simp only [Option.map_some, Option.some.injEq, Prod.mk.injEq] at hstate
  obtain ⟨hmain, hworker, hqueue, hopen, hstarted, haccepted, hreturned⟩ := hstate
  exact ⟨s, hs, haccepted, hreturned, settled_at_rest (Machine.reachable_of_run hs)
    ⟨hmain, .inr (.inr ⟨hworker, hqueue, hopen⟩)⟩ hstarted⟩

end State

end GmsvPg.Database
