/-
# What each thread touches, and when

Facts about single steps of the two threads: which of them store the status and the finished
flag of an execution, when `m_canWait` changes, what is put into the in-flight slot and read
from it.  The invariants of the next file are built from them.
-/
import GmsvPg.Database.Accounting

namespace GmsvPg.Database

/-! ### What an access stores in the data of an execution -/

/-- The status an access stores in the data of `e`. -/
def Access.statusStore (e : Execution) : Access → Option QueryStatus
  | .setStatus e' v => if e' = e then some v else none
  | .markAborted e' | .setCancelled e' => if e' = e then some .aborted else none
  | _ => none

namespace Shared

variable {s : Shared} {a : Access} {e : Execution}

lemma apply_status : ((s.apply a).own e).status = (a.statusStore e).getD (s.own e).status := by
  cases a with
  | connectSession error => cases error <;> rfl
  | setStatus | markAborted | setCancelled =>
      grind [apply, Access.statusStore, Option.getD]
  | setResultStatus | setError | setFinished | setCancellationRequested =>
      simp only [apply, own_modifyData, Access.statusStore]
      split <;> rfl
  | _ => rfl

lemma apply_finished :
    ((s.apply a).own e).finished = true ↔ (s.own e).finished = true ∨ a = .setFinished e := by
  cases a with
  | connectSession error => cases error <;> simp [apply, own]
  | setStatus | setResultStatus | setError | setFinished | setCancellationRequested
  | markAborted | setCancelled => grind [apply]
  | _ => simp [apply, own] <;> rfl

lemma apply_unfinished (h : (s.own e).finished = false) (ha : a ≠ .setFinished e) :
    ((s.apply a).own e).finished = false := by
  cases hf : ((s.apply a).own e).finished with
  | false => rfl
  | true =>
      rcases apply_finished.1 hf with hf | hf
      · exact absurd (hf.symm.trans h) (by simp)
      · exact absurd hf ha

lemma apply_status_of_none (h : a.statusStore e = none) :
    ((s.apply a).own e).status = (s.own e).status := by
  rw [apply_status, h]
  rfl

lemma mem_queue_apply (h : e ∈ (s.apply a).queue) : e ∈ s.queue ∨ a = .put e := by
  by_cases hquiet : a.quiet = true
  · rw [queue, (s.apply_quiet hquiet).1] at h
    exact .inl h
  · cases a with
    | put e' =>
        simp only [apply, queue, record, setQueue, BlockingQueue.put] at h ⊢
        grind
    | take e' => exact .inl (List.mem_of_mem_tail h)
    | removeQueued e' => exact .inl (List.mem_of_mem_filter h)
    | clearQueue => exact absurd h (List.not_mem_nil)
    | closeAndClear => exact absurd h (List.not_mem_nil)
    | finish | returnCompleted => exact .inl h
    | _ => exact absurd rfl hquiet

lemma apply_canWait : (s.apply a).canWait = true ↔
    a = .setCanWait true ∨ s.canWait = true ∧ a ≠ .setCanWait false := by
  cases a with
  | connectSession error => cases error <;> simp [apply]
  | setCanWait v => cases v <;> simp [apply]
  | _ => simp [apply, setQueue, record, putFinished, modifyData]

end Shared

/-- The worker thread stores the status and the finished flag only of what it has in its
hands. -/
lemma WorkerPC.next_stores {s : Shared} {c : Choice} {pc pc' : WorkerPC} {a : Access}
    {e : Execution} (h : pc.next s c = some (a, pc'))
    (hstore : a.statusStore e ≠ none ∨ a = .setFinished e) : e ∈ pc.pending := by
  cases pc with
  | connecting stage =>
      cases stage with
      | drain e' stage rest reason =>
          cases stage <;> simp only [WorkerPC.next, ConnectStage.next, CompleteStage.next] at h
          all_goals grind [Access.statusStore, WorkerPC.pending]
      | _ =>
          simp only [WorkerPC.next, ConnectStage.next] at h
          repeat' split at h
          all_goals grind [Access.statusStore, WorkerPC.pending]
  | taking =>
      simp only [WorkerPC.next] at h
      grind [Access.statusStore]
  | running e' r =>
      cases r <;> simp only [WorkerPC.next, RunStage.next] at h
      all_goals repeat' split at h
      all_goals grind [Access.statusStore, WorkerPC.pending, RunStage.settled,
        ReconnectStage.next_access]
  | leaving stage =>
      cases stage <;> simp only [WorkerPC.next, LeaveStage.next] at h
      all_goals grind [Access.statusStore]
  | notStarted | ended => exact absurd h (by simp [WorkerPC.next])

/-- The points at which the main thread marks an execution that the worker thread has. -/
def MainPC.marking (e : Execution) : MainPC → Bool
  | .abort e' .storeAborted | .abortAll (.storeInFlight e') _
  | .shutdown (.storeInFlight e') _ _ => decide (e' = e)
  | _ => false

/-- The main thread stores the status and the finished flag of what it has in its hands, of
what it is about to enqueue, of a taken execution it aborts, and of the execution it can not
wait for. -/
lemma MainPC.next_stores {s : Shared} {c : Choice} {pc pc' : MainPC} {a : Access}
    {e : Execution} (h : pc.next s c = some (a, pc'))
    (hstore : a.statusStore e ≠ none ∨ a = .setFinished e) :
    e ∈ pc.pending ∨
      (pc = .enqueue e .storeWaiting ∧ a = .setStatus e .waiting) ∨
      (pc = .enqueue e .storeAborted ∧ a = .setStatus e .aborted) ∨
      (pc = .enqueue e .setFinished ∧ a = .setFinished e) ∨
      (pc = .waiting e .forceStatus ∧ a = .setStatus e .complete) ∨
      (pc = .waiting e .forceFinished ∧ a = .setFinished e) ∨
      (pc.marking e = true ∧ a = .markAborted e) := by
  cases pc with
  | enqueue e' stage =>
      cases stage <;> simp only [MainPC.next, EnqueueStage.next] at h
      all_goals grind [Access.statusStore]
  | abort e' stage =>
      cases stage <;> simp only [MainPC.next, AbortStage.next] at h
      all_goals grind [Access.statusStore, MainPC.pending, MainPC.marking]
  | cancel d stage caller =>
      cases stage <;> simp only [MainPC.next, CancelStage.next] at h
      all_goals repeat' split at h
      all_goals grind [Access.statusStore]
  | abortAll stage g =>
      cases stage <;> simp only [MainPC.next, AbortAllStage.next] at h
      all_goals grind [Access.statusStore, MainPC.pending, MainPC.marking]
  | shutdown stage join g =>
      cases stage <;> simp only [MainPC.next, ShutdownStage.next] at h
      all_goals grind [Access.statusStore, MainPC.pending, MainPC.marking]
  | waiting e' stage =>
      cases stage with
      | complete stage =>
          cases stage <;> simp only [MainPC.next, WaitStage.next, CompleteStage.next] at h
          all_goals grind [Access.statusStore, MainPC.pending]
      | _ =>
          simp only [MainPC.next, WaitStage.next] at h
          grind [Access.statusStore, MainPC.pending]
  | ping stage =>
      cases stage <;> simp only [MainPC.next, PingStage.next] at h
      all_goals grind [Access.statusStore, ReconnectStage.next_access]
  | connect stage =>
      cases stage <;> simp only [MainPC.next, ConnectCallStage.next] at h
      all_goals grind [Access.statusStore]
  | idle | joining => exact absurd h (by simp [MainPC.next])

/-! ### `m_canWait` -/

/-- The points of the worker thread between the spawn and the store of `false` to
`m_canWait`. -/
def WorkerPC.waitable : WorkerPC → Bool
  | .notStarted | .ended => false
  | .connecting .failClose | .connecting (.drain ..) | .connecting .failReturn => false
  | .leaving .storeDisconnected | .leaving .testStatus | .leaving .storeNotConnected => false
  | _ => true

/-- The points of `waitForQuery` after `m_canWait` was read as `false`. -/
def WaitStage.fallback : WaitStage → Bool
  | .testFinished | .testCanWait | .block => false
  | _ => true

lemma ConnectStage.drainNext_waitable (reason : Text) (l : List Execution) :
    (WorkerPC.connecting (ConnectStage.drainNext reason l)).waitable = false := by
  cases l <;> rfl

lemma WorkerPC.next_waitable {s : Shared} {c : Choice} {pc pc' : WorkerPC} {a : Access}
    (h : pc.next s c = some (a, pc')) (hpc' : pc'.waitable = true) :
    pc.waitable = true ∧ a ≠ .setCanWait false := by
  cases pc with
  | connecting stage =>
      cases stage with
      | drain e' stage rest reason =>
          cases stage <;> simp only [WorkerPC.next, ConnectStage.next, CompleteStage.next] at h
          all_goals grind [WorkerPC.waitable, ConnectStage.drainNext_waitable]
      | _ =>
          simp only [WorkerPC.next, ConnectStage.next] at h
          repeat' split at h
          all_goals grind [WorkerPC.waitable, ConnectStage.drainNext_waitable]
  | taking =>
      simp only [WorkerPC.next] at h
      grind [WorkerPC.waitable]
  | running e' r =>
      cases r <;> simp only [WorkerPC.next, RunStage.next] at h
      all_goals repeat' split at h
      all_goals grind [WorkerPC.waitable, ReconnectStage.next_access]
  | leaving stage =>
      cases stage <;> simp only [WorkerPC.next, LeaveStage.next] at h
      all_goals grind [WorkerPC.waitable]
  | notStarted | ended => exact absurd h (by simp [WorkerPC.next])

/-- The main thread sets `m_canWait` on its way through `connect`, and never resets it. -/
lemma MainPC.next_canWait {s : Shared} {c : Choice} {pc pc' : MainPC} {a : Access}
    (h : pc.next s c = some (a, pc')) :
    a ≠ .setCanWait false ∧
      (pc' = .connect .storeConnecting → a = .setCanWait true) ∧
      (pc' = .connect .spawn → pc = .connect .storeConnecting) ∧
      (∀ e stage, pc' = .waiting e stage → stage.fallback = true →
        s.canWait = false ∨ ∃ stage', pc = .waiting e stage' ∧ stage'.fallback = true) := by
  cases pc with
  | enqueue e' stage =>
      cases stage <;> simp only [MainPC.next, EnqueueStage.next] at h
      all_goals repeat' split at h
      all_goals cases h
      all_goals simp
  | abort e' stage =>
      cases stage <;> simp only [MainPC.next, AbortStage.next] at h
      all_goals repeat' split at h
      all_goals cases h
      all_goals simp
  | cancel d stage caller =>
      cases stage <;> cases caller <;>
        simp only [MainPC.next, CancelStage.next, CancelCaller.resume] at h
      all_goals repeat' split at h
      all_goals cases h
      all_goals simp
  | abortAll stage g =>
      cases stage <;> simp only [MainPC.next, AbortAllStage.next] at h
      all_goals repeat' split at h
      all_goals cases h
      all_goals simp
  | shutdown stage join g =>
      cases stage <;> simp only [MainPC.next, ShutdownStage.next] at h
      all_goals repeat' split at h
      all_goals cases h
      all_goals simp
  | waiting e' stage =>
      cases stage with
      | complete stage =>
          cases stage <;> simp only [MainPC.next, WaitStage.next, CompleteStage.next] at h
          all_goals grind [WaitStage.fallback]
      | _ =>
          simp only [MainPC.next, WaitStage.next] at h
          repeat' split at h
          all_goals grind [WaitStage.fallback]
  | ping stage =>
      cases stage <;> simp only [MainPC.next, PingStage.next] at h
      all_goals repeat' split at h
      all_goals grind [ReconnectStage.next_access]
  | connect stage =>
      cases stage <;> simp only [MainPC.next, ConnectCallStage.next] at h
      all_goals repeat' split at h
      all_goals cases h
      all_goals simp
  | idle | joining => exact absurd h (by simp [MainPC.next])

/-! ### What was taken from the queue -/

/-- The execution `abortAllQueries` or `shutdown` has read from the in-flight slot and is
about to test or to mark. -/
def MainPC.inspected : MainPC → Option Execution
  | .abortAll (.testInFlight e) _ | .abortAll (.storeInFlight e) _
  | .shutdown (.testInFlight e) _ _ | .shutdown (.storeInFlight e) _ _ => some e
  | _ => none

lemma CancelCaller.resume_inspected (d : DataId) (requested : Bool) (caller : CancelCaller) :
    (caller.resume d requested).inspected = none := by
  cases caller <;> cases requested <;> rfl

lemma MainPC.next_inspected {s : Shared} {c : Choice} {pc pc' : MainPC} {a : Access}
    {e : Execution} (h : pc.next s c = some (a, pc')) (he : pc'.inspected = some e) :
    pc.inspected = some e ∨ s.inFlight = some e := by
  cases pc with
  | enqueue e' stage =>
      cases stage <;> simp only [MainPC.next, EnqueueStage.next] at h
      all_goals grind [MainPC.inspected]
  | abort e' stage =>
      cases stage <;> simp only [MainPC.next, AbortStage.next] at h
      all_goals repeat' split at h
      all_goals grind [MainPC.inspected]
  | cancel d stage caller =>
      cases stage <;> simp only [MainPC.next, CancelStage.next] at h
      all_goals repeat' split at h
      all_goals grind [MainPC.inspected, CancelCaller.resume_inspected]
  | abortAll stage g =>
      cases stage with
      | clearQueue | setFinished =>
          simp only [MainPC.next, AbortAllStage.next, AbortAllStage.nextQueued] at h
          repeat' split at h
          all_goals grind [MainPC.inspected]
      | _ =>
          simp only [MainPC.next, AbortAllStage.next] at h
          repeat' split at h
          all_goals grind [MainPC.inspected]
  | shutdown stage join g =>
      cases stage with
      | closeAndClear | setFinished =>
          simp only [MainPC.next, ShutdownStage.next, ShutdownStage.nextQueued] at h
          repeat' split at h
          all_goals grind [MainPC.inspected]
      | _ =>
          simp only [MainPC.next, ShutdownStage.next] at h
          repeat' split at h
          all_goals grind [MainPC.inspected]
  | waiting e' stage =>
      cases stage <;> simp only [MainPC.next, WaitStage.next] at h
      all_goals repeat' split at h
      all_goals grind [MainPC.inspected]
  | ping stage =>
      cases stage <;> simp only [MainPC.next, PingStage.next] at h
      all_goals repeat' split at h
      all_goals grind [MainPC.inspected]
  | connect stage =>
      cases stage <;> simp only [MainPC.next, ConnectCallStage.next] at h
      all_goals repeat' split at h
      all_goals grind [MainPC.inspected]
  | idle | joining => exact absurd h (by simp [MainPC.next])

/-- The worker thread goes on with the execution it has, or takes the next one. -/
lemma WorkerPC.next_running {s : Shared} {c : Choice} {pc : WorkerPC} {a : Access}
    {e : Execution} {r : RunStage} (h : pc.next s c = some (a, .running e r)) :
    (∃ r', pc = .running e r' ∧ r'.next s c e = some (a, .running e r)) ∨
      pc = .taking ∧ a = .take e ∧ r = .setInFlight ∧ ∃ rest, s.queue = e :: rest := by
  cases pc with
  | running e' r' =>
      obtain rfl : e' = e := by
        rcases RunStage.next_pc h with hpc | ⟨r'', hpc⟩
        · exact absurd hpc (by simp)
        · exact (WorkerPC.running.inj hpc).1.symm
      exact .inl ⟨r', rfl, h⟩
  | connecting stage =>
      cases stage with
      | drain e' stage rest reason =>
          cases stage <;> simp only [WorkerPC.next, ConnectStage.next, CompleteStage.next] at h
          all_goals grind
      | attemptConnection =>
          simp only [WorkerPC.next, ConnectStage.next] at h
          split at h <;> grind
      | _ =>
          simp only [WorkerPC.next, ConnectStage.next] at h
          repeat' split at h
          all_goals grind
  | taking =>
      simp only [WorkerPC.next] at h
      grind
  | leaving stage =>
      cases stage <;> simp only [WorkerPC.next, LeaveStage.next] at h
      all_goals grind
  | notStarted | ended => exact absurd h (by simp [WorkerPC.next])

/-- The accesses that only `run` and `runQuery` make. -/
def Access.ofRun : Access → Bool
  | .setInFlight _ | .clearInFlight _ | .pass _ | .setCancelled _ | .enterGuard _
  | .addAlias _ | .removeAlias _ | .execute _ | .endExecution _ | .take _ => true
  | _ => false

lemma WorkerPC.next_ofRun {s : Shared} {c : Choice} {pc pc' : WorkerPC} {a : Access}
    (h : pc.next s c = some (a, pc')) (ha : a.ofRun = true) :
    (∃ e r, pc = .running e r ∧ r.next s c e = some (a, pc')) ∨
      ∃ e rest, pc = .taking ∧ a = .take e ∧ pc' = .running e .setInFlight ∧
        s.queue = e :: rest := by
  cases pc with
  | running e r => exact .inl ⟨e, r, rfl, h⟩
  | connecting stage =>
      cases stage with
      | drain e' stage rest reason =>
          cases stage <;> simp only [WorkerPC.next, ConnectStage.next, CompleteStage.next] at h
          all_goals grind [Access.ofRun]
      | _ =>
          simp only [WorkerPC.next, ConnectStage.next] at h
          repeat' split at h
          all_goals grind [Access.ofRun]
  | taking =>
      simp only [WorkerPC.next] at h
      grind [Access.ofRun]
  | leaving stage =>
      cases stage <;> simp only [WorkerPC.next, LeaveStage.next] at h
      all_goals grind [Access.ofRun]
  | notStarted | ended => exact absurd h (by simp [WorkerPC.next])

lemma RunStage.next_ne_take {s : Shared} {c : Choice} {e : Execution} {r : RunStage} {a : Access}
    {pc : WorkerPC} (h : r.next s c e = some (a, pc)) (e' : Execution) : a ≠ .take e' := by
  cases r <;> simp only [RunStage.next] at h
  all_goals repeat' split at h
  all_goals grind [ReconnectStage.next_access]

lemma WorkerPC.next_take {s : Shared} {c : Choice} {pc pc' : WorkerPC} {e : Execution}
    (h : pc.next s c = some (.take e, pc')) :
    pc = .taking ∧ pc' = .running e .setInFlight ∧ ∃ rest, s.queue = e :: rest := by
  rcases WorkerPC.next_ofRun h rfl with ⟨e', r, rfl, hrun⟩ | ⟨e', rest, rfl, he, rfl, hrest⟩
  · exact absurd rfl (RunStage.next_ne_take hrun e)
  · obtain rfl : e = e' := by simpa using he
    exact ⟨rfl, rfl, rest, hrest⟩

/-- The accesses that only the operations of the main thread make. -/
def Access.ofMain : Access → Bool
  | .put _ | .removeQueued _ | .clearQueue | .forceFinish _ | .returnCompleted _
  | .markAborted _ | .sendCancel _ _ | .setShuttingDown | .setStartedConnecting => true
  | _ => false

lemma WorkerPC.next_ofMain {s : Shared} {c : Choice} {pc pc' : WorkerPC} {a : Access}
    (h : pc.next s c = some (a, pc')) : a.ofMain = false := by
  cases pc with
  | running e r =>
      cases r <;> simp only [WorkerPC.next, RunStage.next] at h
      all_goals repeat' split at h
      all_goals grind [Access.ofMain, ReconnectStage.next_access]
  | connecting stage =>
      cases stage with
      | drain e' stage rest reason =>
          cases stage <;> simp only [WorkerPC.next, ConnectStage.next, CompleteStage.next] at h
          all_goals grind [Access.ofMain]
      | _ =>
          simp only [WorkerPC.next, ConnectStage.next] at h
          repeat' split at h
          all_goals grind [Access.ofMain]
  | taking =>
      simp only [WorkerPC.next] at h
      grind [Access.ofMain]
  | leaving stage =>
      cases stage <;> simp only [WorkerPC.next, LeaveStage.next] at h
      all_goals grind [Access.ofMain]
  | notStarted | ended => exact absurd h (by simp [WorkerPC.next])

lemma MainPC.next_ofRun {s : Shared} {c : Choice} {pc pc' : MainPC} {a : Access}
    (h : pc.next s c = some (a, pc')) : a.ofRun = false := by
  cases pc with
  | enqueue e stage =>
      cases stage <;> simp only [MainPC.next, EnqueueStage.next] at h
      all_goals grind [Access.ofRun]
  | abort e stage =>
      cases stage <;> simp only [MainPC.next, AbortStage.next] at h
      all_goals grind [Access.ofRun]
  | cancel d stage caller =>
      cases stage <;> simp only [MainPC.next, CancelStage.next] at h
      all_goals repeat' split at h
      all_goals grind [Access.ofRun]
  | abortAll stage g =>
      cases stage <;> simp only [MainPC.next, AbortAllStage.next] at h
      all_goals grind [Access.ofRun]
  | shutdown stage join g =>
      cases stage <;> simp only [MainPC.next, ShutdownStage.next] at h
      all_goals grind [Access.ofRun]
  | waiting e stage =>
      cases stage with
      | complete stage =>
          cases stage <;> simp only [MainPC.next, WaitStage.next, CompleteStage.next] at h
          all_goals grind [Access.ofRun]
      | _ =>
          simp only [MainPC.next, WaitStage.next] at h
          grind [Access.ofRun]
  | ping stage =>
      cases stage <;> simp only [MainPC.next, PingStage.next] at h
      all_goals grind [Access.ofRun, ReconnectStage.next_access]
  | connect stage =>
      cases stage <;> simp only [MainPC.next, ConnectCallStage.next] at h
      all_goals grind [Access.ofRun]
  | idle | joining => exact absurd h (by simp [MainPC.next])

lemma RunStage.next_setInFlight {s : Shared} {c : Choice} {e e' : Execution} {r : RunStage}
    {pc : WorkerPC} (h : r.next s c e = some (.setInFlight e', pc)) :
    e' = e ∧ r = .setInFlight := by
  cases r <;> simp only [RunStage.next] at h
  all_goals repeat' split at h
  all_goals grind [ReconnectStage.next_access]

namespace Shared

variable {s : Shared} {a : Access}

lemma apply_inFlight {e : Execution} (h : (s.apply a).inFlight = some e) :
    s.inFlight = some e ∨ a = .setInFlight e := by
  cases a with
  | connectSession error => cases error <;> exact .inl h
  | setInFlight e' => exact .inr (congrArg _ (Option.some.inj h))
  | clearInFlight e' =>
      simp only [apply] at h
      grind
  | _ => exact .inl h

lemma mem_returned_apply {e : Execution} (h : e ∈ (s.apply a).history.returned) :
    e ∈ s.history.returned ∨ ∃ es, a = .returnCompleted es ∧ e ∈ es := by
  cases a with
  | connectSession error => cases error <;> exact .inl h
  | returnCompleted es => exact (List.mem_append.1 h).imp_right fun h => ⟨es, rfl, h⟩
  | _ => exact .inl h

lemma mem_of_mem_taken_apply {e : Execution} (h : e ∈ (s.apply a).history.taken) :
    e ∈ s.history.taken ∨ a = .take e := by
  cases a with
  | connectSession error => cases error <;> exact .inl h
  | take e' =>
      refine (List.mem_append.1 h).imp_right fun h => ?_
      rw [List.mem_singleton.1 h]
  | _ => exact .inl h

lemma mem_taken_apply {e : Execution} (h : e ∈ s.history.taken) :
    e ∈ (s.apply a).history.taken := by
  cases a with
  | connectSession error => cases error <;> exact h
  | take => exact List.mem_append_left _ h
  | _ => exact h

end Shared

/-! ### The data of an execution -/

/-- The points of `waitForQuery` at which the execution is known not to be queued. -/
def WaitStage.pastQueue : WaitStage → Bool
  | .testFinishedAgain | .forceError | .forceResultStatus | .forceStatus | .forceFinished
  | .forcePut => true
  | _ => false

/-- The points of `abortQuery` at which the execution is known not to be queued. -/
def AbortStage.pastQueue : AbortStage → Bool
  | .testWaiting | .storeAborted | .testRunning => true
  | _ => false

/-- `abortQuery` goes on to test the status only of what it has not found in the queue. -/
lemma MainPC.next_abort_pastQueue {s : Shared} {c : Choice} {pc : MainPC} {a : Access}
    {e : Execution} {stage : AbortStage} (h : pc.next s c = some (a, .abort e stage))
    (hstage : stage.pastQueue = true) :
    ∃ stage', pc = .abort e stage' ∧ (stage'.pastQueue = true ∨ e ∉ s.queue) := by
  obtain ⟨stage', rfl⟩ := MainPC.next_source h
  refine ⟨stage', rfl, ?_⟩
  cases stage' <;> simp only [MainPC.next, AbortStage.next] at h
  all_goals grind [AbortStage.pastQueue]

/-- `waitForQuery` makes its last test only of what it has not found in the queue, or what is
not `QUERY_WAITING`. -/
lemma MainPC.next_waiting_pastQueue {s : Shared} {c : Choice} {pc : MainPC} {a : Access}
    {e : Execution} {stage : WaitStage} (h : pc.next s c = some (a, .waiting e stage))
    (hstage : stage.pastQueue = true) :
    ∃ stage', pc = .waiting e stage' ∧
      (stage'.pastQueue = true ∨ e ∉ s.queue ∨ (s.own e).status ≠ .waiting) := by
  obtain ⟨stage', rfl⟩ := MainPC.next_source h
  refine ⟨stage', rfl, ?_⟩
  cases stage' with
  | complete stage' =>
      cases stage' <;> simp only [MainPC.next, WaitStage.next, CompleteStage.next] at h
      all_goals grind [WaitStage.pastQueue]
  | _ =>
      simp only [MainPC.next, WaitStage.next] at h
      grind [WaitStage.pastQueue]

/-- The main thread is idle after it has put an execution into the queue. -/
lemma MainPC.next_ne_put {s : Shared} {c : Choice} {pc pc' : MainPC} {a : Access}
    (h : pc.next s c = some (a, pc')) (hidle : pc' ≠ .idle) (e : Execution) : a ≠ .put e := by
  rcases MainPC.next_moves h with hmoves | ⟨e', -, -, -, rfl⟩
  · exact hmoves.ne_put e
  · exact absurd rfl hidle

/-- The points of `completeQueryWithError` after its test. -/
def WaitStage.forcing : WaitStage → Bool
  | .forceError | .forceResultStatus | .forceStatus | .forceFinished | .forcePut => true
  | _ => false

/-- `completeQueryWithError` goes on only with what it has found unfinished. -/
lemma MainPC.next_forcing {s : Shared} {c : Choice} {pc : MainPC} {a : Access} {e : Execution}
    {stage : WaitStage} (h : pc.next s c = some (a, .waiting e stage))
    (hstage : stage.forcing = true) :
    ∃ stage', pc = .waiting e stage' ∧
      (stage'.forcing = true ∨ stage' = .testFinishedAgain ∧ (s.own e).finished = false) := by
  obtain ⟨stage', rfl⟩ := MainPC.next_source h
  refine ⟨stage', rfl, ?_⟩
  cases stage' with
  | complete stage' =>
      cases stage' <;> simp only [MainPC.next, WaitStage.next, CompleteStage.next] at h
      all_goals grind [WaitStage.forcing]
  | _ =>
      simp only [MainPC.next, WaitStage.next] at h
      grind [WaitStage.forcing]

/-- Only `completeQueryWithError` puts an execution on `finishedQueries` that its thread has
not in its hands. -/
lemma MainPC.next_forceFinish {s : Shared} {c : Choice} {pc pc' : MainPC} {e : Execution}
    (h : pc.next s c = some (.forceFinish e, pc')) : pc = .waiting e .forcePut := by
  cases pc with
  | enqueue e' stage =>
      cases stage <;> simp only [MainPC.next, EnqueueStage.next] at h
      all_goals grind
  | abort e' stage =>
      cases stage <;> simp only [MainPC.next, AbortStage.next] at h
      all_goals grind
  | cancel d stage caller =>
      cases stage <;> simp only [MainPC.next, CancelStage.next] at h
      all_goals repeat' split at h
      all_goals grind
  | abortAll stage g =>
      cases stage <;> simp only [MainPC.next, AbortAllStage.next] at h
      all_goals grind
  | shutdown stage join g =>
      cases stage <;> simp only [MainPC.next, ShutdownStage.next] at h
      all_goals grind
  | waiting e' stage =>
      cases stage with
      | complete stage =>
          cases stage <;> simp only [MainPC.next, WaitStage.next, CompleteStage.next] at h
          all_goals grind
      | _ =>
          simp only [MainPC.next, WaitStage.next] at h
          grind
  | ping stage =>
      cases stage <;> simp only [MainPC.next, PingStage.next] at h
      all_goals grind [ReconnectStage.next_access]
  | connect stage =>
      cases stage <;> simp only [MainPC.next, ConnectCallStage.next] at h
      all_goals grind
  | idle | joining => exact absurd h (by simp [MainPC.next])

/-- The worker thread marks an execution finished once, at the end of its turn. -/
lemma RunStage.next_settled {s : Shared} {c : Choice} {e : Execution} {r r' : RunStage}
    {a : Access} (h : r.next s c e = some (a, .running e r')) (hr' : r'.settled = false) :
    r.settled = false ∧ a ≠ .setFinished e := by
  cases r <;> simp only [RunStage.next] at h
  all_goals repeat' split at h
  all_goals grind [RunStage.settled, ReconnectStage.next_access]

end GmsvPg.Database
