/-
# The work that is left

Both threads of a `Database` run through loops: the worker thread takes executions from the
queue until it is closed, a bulk abort empties the queue and goes through what it has removed,
and so does a failed connection attempt.  Each point of a thread gets a number that bounds the
steps to the end of what it is in, and each queued execution the number of steps that it may
still cost, whoever takes it.  Every step of a thread lowers the sum.
-/
import GmsvPg.Database.Finished
import GmsvPg.Library.Termination

namespace GmsvPg.Database

open Library

/-! ### The points of the worker thread -/

def ReconnectStage.rank : ReconnectStage → ℕ
  | .testShuttingDown => 7
  | .clearActive => 6
  | .storeNotConnected => 5
  | .resetSession => 4
  | .attemptConnection => 3
  | .storeStatus _ => 2
  | .logEvent _ => 1

def CompleteStage.rank : CompleteStage → ℕ
  | .setError => 5
  | .setResultStatus => 4
  | .setStatus => 3
  | .put => 2
  | .setFinished => 1

/-- What is left of the turn of an execution with `children` children. -/
def RunStage.rank (children : ℕ) : RunStage → ℕ
  | .clearInFlight => 1
  | .setFinished => 2
  | .finish => 3
  | .unlock => 4
  | .storeComplete => 5
  | .testAborted => 6
  | .setErrorText _ => 7
  | .testErrorText _ => 8
  | .storeError _ => 9
  | .reconnectAgain _ r => 9 + r.rank
  | .testRetry _ => 17
  | .clearCancellationThrown _ => 18
  | .storeResultNone => 7
  | .storeCancelled => 8
  | .testCancellation _ => 19
  | .leaveGuard none => 7
  | .leaveGuard (some _) => 20
  | .storeSuccess => 8
  | .clearCancellation => 9
  | .executing todo current => 21 + 2 * todo.length + current.elim 0 fun _ => 1
  | .execute => 22 + 2 * children
  | .enterGuard => 23 + 2 * children
  | .reconnectFirst r => 23 + 2 * children + r.rank
  | .testAutoReconnect => 31 + 2 * children
  | .testOpen => 32 + 2 * children
  | .storeRunning => 33 + 2 * children
  | .testStatusLocked => 34 + 2 * children
  | .testShuttingDown => 35 + 2 * children
  | .lockQuery => 36 + 2 * children
  | .testStatus => 37 + 2 * children
  | .setInFlight => 38 + 2 * children
  | .unlockAborted => 1
  | .clearInFlightAborted _ => 2
  | .setFinishedAborted _ => 3
  | .finishAborted _ => 4
  | .storeAborted => 5

def ConnectStage.rank : ConnectStage → ℕ
  | .lockConnect => 12
  | .attemptConnection => 11
  | .storeSuccess => 10
  | .storeDone => 9
  | .storeConnected => 8
  | .unlockConnect => 7
  | .failSuccess => 8
  | .failDone => 7
  | .failStatus => 6
  | .failDisconnected => 5
  | .failCanWait => 4
  | .failClose => 3
  | .drain _ stage rest _ => 1 + 5 * rest.length + stage.rank
  | .failReturn => 1

def LeaveStage.rank : LeaveStage → ℕ
  | .resetSession => 5
  | .storeCanWait => 4
  | .storeDisconnected => 3
  | .testStatus => 2
  | .storeNotConnected => 1

def WorkerPC.rank : WorkerPC → ℕ
  | .notStarted | .ended => 0
  | .connecting stage => stage.rank
  | .taking => 6
  | .running e stage => 6 + stage.rank e.children
  | .leaving stage => stage.rank

/-! ### The queue -/

/-- The steps that a queued execution may still cost. -/
def Execution.cost (e : Execution) : ℕ := 39 + 2 * e.children

def queueCost : List Execution → ℕ
  | [] => 0
  | e :: rest => e.cost + queueCost rest

@[simp] lemma queueCost_nil : queueCost [] = 0 := rfl

@[simp] lemma queueCost_cons (e : Execution) (rest : List Execution) :
    queueCost (e :: rest) = 39 + 2 * e.children + queueCost rest := rfl

lemma queueCost_append (l l' : List Execution) :
    queueCost (l ++ l') = queueCost l + queueCost l' := by
  induction l with
  | nil => exact (Nat.zero_add _).symm
  | cons e rest ih =>
      rw [List.cons_append, queueCost, queueCost, ih, Nat.add_assoc]

lemma length_le_queueCost (queue : List Execution) : 5 * queue.length ≤ queueCost queue := by
  induction queue with
  | nil => exact le_rfl
  | cons e rest ih =>
      rw [queueCost_cons, List.length_cons]
      omega

lemma queueCost_filter_le (p : Execution → Bool) (queue : List Execution) :
    queueCost (queue.filter p) ≤ queueCost queue := by
  induction queue with
  | nil => exact le_rfl
  | cons e rest ih =>
      rw [List.filter_cons]
      split
      · exact Nat.add_le_add_left ih _
      · exact ih.trans (Nat.le_add_left _ _)

/-! ### The points of the main thread -/

def EnqueueStage.rank (e : Execution) : EnqueueStage → ℕ
  | .testShuttingDown => e.cost + 4
  | .testClosed => e.cost + 3
  | .storeWaiting => e.cost + 2
  | .put => e.cost + 1
  | .storeAborted => 2
  | .setFinished => 1

def AbortStage.rank : AbortStage → ℕ
  | .removeQueued => 6
  | .testWaiting => 5
  | .testRunning => 4
  | .storeRemoved => 3
  | .setFinished => 2
  | .returnRemoved => 1
  | .storeAborted => 1

def CancelStage.rank : CancelStage → ℕ
  | .lookup => 3
  | .send _ => 2
  | .clearRequest => 1

/-- What is left for the caller once `cancelRunningQuery` has returned. -/
def CancelCaller.rank : CancelCaller → ℕ
  | .abortQuery => 0
  | .abortAll _ => 1
  | .shutdown _ _ => 7

def AbortAllStage.rank : AbortAllStage → ℕ
  | .clearQueue => 9
  | .storeRemoved _ rest => 8 + 2 * rest.length + 2
  | .setFinished _ rest => 8 + 2 * rest.length + 1
  | .readInFlight => 8
  | .testInFlight _ => 7
  | .storeInFlight _ => 6
  | .readActive => 5
  | .returnResult => 1

def ShutdownStage.rank : ShutdownStage → ℕ
  | .exchange => 13
  | .storeStatus => 12
  | .readActive => 11
  | .readInFlight => 7
  | .testInFlight _ => 6
  | .storeInFlight _ => 5
  | .closeAndClear => 4
  | .storeRemoved _ rest completed => 3 + completed.length + 3 * rest.length + 3
  | .setFinished _ rest completed => 3 + completed.length + 3 * rest.length + 2
  | .finish todo => 3 + todo.length
  | .returnResult => 2

def WaitStage.rank : WaitStage → ℕ
  | .testFinished => 10
  | .testCanWait => 9
  | .testWaiting => 8
  | .removeQueued => 7
  | .complete stage => stage.rank
  | .testFinishedAgain => 6
  | .forceError => 5
  | .forceResultStatus => 4
  | .forceStatus => 3
  | .forceFinished => 2
  | .forcePut => 1
  | .block => 1

def PingStage.rank : PingStage → ℕ
  | .lockQuery => 13
  | .ping => 12
  | .testStatus => 11
  | .storeNotConnected => 10
  | .testAutoReconnect => 9
  | .reconnect r => 1 + r.rank
  | .unlockQuery => 1

/-- The worker thread that `connect` starts has its own way to go. -/
def ConnectCallStage.rank : ConnectCallStage → ℕ
  | .testStatus => 17
  | .exchange => 16
  | .storeCanWait => 15
  | .storeConnecting => 14
  | .spawn => 13

def MainPC.rank : MainPC → ℕ
  | .idle => 0
  | .enqueue e stage => stage.rank e
  | .abort _ stage => stage.rank
  | .cancel _ stage caller => stage.rank + caller.rank
  | .abortAll stage _ => stage.rank
  | .shutdown stage _ _ => stage.rank
  | .waiting _ stage => stage.rank
  | .ping stage => stage.rank
  | .connect stage => stage.rank
  | .joining => 1

/-! ### Every access lowers the sum -/

/-- The accesses that change the queue. -/
def Access.ofQueue : Access → Bool
  | .put _ | .take _ | .removeQueued _ | .clearQueue | .closeAndClear => true
  | _ => false

lemma Shared.queue_apply {s : Shared} {a : Access} (h : a.ofQueue = false) :
    (s.apply a).queue = s.queue := by
  cases a with
  | connectSession error => cases error <;> rfl
  | put | take | removeQueued | clearQueue | closeAndClear =>
      exact absurd h (by simp [Access.ofQueue])
  | _ => rfl

lemma ReconnectStage.next_rank {s : Shared} {c : Choice} {r : ReconnectStage} {a : Access}
    {z : ReconnectStage ⊕ Bool} (h : r.next s c = some (a, z)) :
    a.ofQueue = false ∧ 0 < r.rank ∧ r.rank ≤ 7 ∧ ∀ r', z = .inl r' → r'.rank < r.rank := by
  cases r <;> simp only [ReconnectStage.next] at h
  all_goals grind [ReconnectStage.rank, Access.ofQueue]

lemma CompleteStage.next_rank (e : Execution) (reason : Text) (stage : CompleteStage) :
    (stage.next e reason).1.ofQueue = false ∧ 0 < stage.rank ∧
      ∀ stage', (stage.next e reason).2 = some stage' → stage'.rank < stage.rank := by
  cases stage <;> simp [CompleteStage.rank, CompleteStage.next, Access.ofQueue]

lemma RunStage.next_rank {s : Shared} {c : Choice} {e : Execution} {r : RunStage} {a : Access}
    {pc : WorkerPC} (h : r.next s c e = some (a, pc)) :
    a.ofQueue = false ∧ pc.rank < (WorkerPC.running e r).rank := by
  cases r <;> simp only [RunStage.next] at h
  all_goals grind [RunStage.rank, WorkerPC.rank, ReconnectStage.rank, Access.ofQueue,
    ReconnectStage.next_rank, List.length_range]

lemma ConnectStage.drainNext_rank (reason : Text) (l : List Execution) :
    (ConnectStage.drainNext reason l).rank = 1 + 5 * l.length := by
  cases l with
  | nil => rfl
  | cons e rest =>
      simp only [drainNext, rank, CompleteStage.rank, List.length_cons]
      omega

/-- An access that leaves the queue lowers the work if it lowers the rank. -/
lemma Shared.work_lt_of_rank {s : Shared} {a : Access} {m n : ℕ} (ha : a.ofQueue = false)
    (h : m < n) : m + queueCost (s.apply a).queue < n + queueCost s.queue := by
  rw [queue_apply ha]
  exact Nat.add_lt_add_right h _

lemma ConnectStage.next_work {s : Shared} {c : Choice} {stage : ConnectStage} {a : Access}
    {pc : WorkerPC} (h : stage.next s c = some (a, pc)) :
    pc.rank + queueCost (s.apply a).queue < stage.rank + queueCost s.queue := by
  cases stage with
  | failClose =>
      obtain ⟨rfl, rfl⟩ : _ ∧ _ := by simpa [ConnectStage.next] using h
      have hcost := length_le_queueCost s.queue
      show (ConnectStage.drainNext _ _).rank + queueCost [] < _
      rw [drainNext_rank, queueCost_nil, rank]
      omega
  | drain e stage rest reason =>
      obtain ⟨ha, hpos, hlt⟩ := stage.next_rank e reason
      rcases hnext : stage.next e reason with ⟨b, _ | stage'⟩
      · simp only [ConnectStage.next, hnext, Option.some.injEq, Prod.mk.injEq] at h
        obtain ⟨rfl, rfl⟩ := h
        refine Shared.work_lt_of_rank (by rwa [hnext] at ha) ?_
        rw [WorkerPC.rank, drainNext_rank, rank]
        omega
      · simp only [ConnectStage.next, hnext, Option.some.injEq, Prod.mk.injEq] at h
        obtain ⟨rfl, rfl⟩ := h
        refine Shared.work_lt_of_rank (by rwa [hnext] at ha) ?_
        have hstage := hlt stage' (by rw [hnext])
        simp only [WorkerPC.rank, rank]
        omega
  | _ =>
      refine Shared.work_lt_of_rank ?_ ?_
      all_goals
        simp only [ConnectStage.next] at h
        grind [ConnectStage.rank, WorkerPC.rank, Access.ofQueue]

lemma WorkerPC.next_work {s : Shared} {c : Choice} {pc pc' : WorkerPC} {a : Access}
    (h : pc.next s c = some (a, pc')) :
    pc'.rank + queueCost (s.apply a).queue < pc.rank + queueCost s.queue := by
  cases pc with
  | connecting stage => exact ConnectStage.next_work h
  | taking =>
      simp only [WorkerPC.next] at h
      split at h
      · split at h
        · obtain ⟨rfl, rfl⟩ : _ ∧ _ := by simpa using h
          exact Nat.add_lt_add_right (by decide) _
        · cases h
      · rename_i e rest hqueue
        obtain ⟨rfl, rfl⟩ : _ ∧ _ := by simpa using h
        show _ + queueCost s.queue.tail < _
        rw [hqueue, List.tail_cons, queueCost_cons]
        simp only [rank, RunStage.rank]
        omega
  | running e stage =>
      obtain ⟨ha, hlt⟩ := RunStage.next_rank h
      exact Shared.work_lt_of_rank ha hlt
  | leaving stage =>
      refine Shared.work_lt_of_rank ?_ ?_
      all_goals
        cases stage <;> simp only [WorkerPC.next, LeaveStage.next] at h
        all_goals grind [WorkerPC.rank, LeaveStage.rank, Access.ofQueue]
  | notStarted | ended => exact absurd h (by simp [WorkerPC.next])

lemma AbortAllStage.nextQueued_rank (l : List Execution) :
    (AbortAllStage.nextQueued l).rank = 8 + 2 * l.length := by
  cases l with
  | nil => rfl
  | cons e rest =>
      simp only [nextQueued, rank, List.length_cons]
      omega

lemma ShutdownStage.nextQueued_rank_le (completed l : List Execution) :
    (ShutdownStage.nextQueued completed l).rank ≤ 3 + completed.length + 3 * l.length := by
  cases l with
  | nil => exact le_rfl
  | cons e rest =>
      simp only [nextQueued, rank, List.length_cons]
      omega

lemma CancelCaller.resume_rank (d : DataId) (requested : Bool) (caller : CancelCaller) :
    (caller.resume d requested).rank = caller.rank := by
  cases caller <;> cases requested <;> rfl

lemma EnqueueStage.next_work {s : Shared} {e : Execution} {stage : EnqueueStage} {a : Access}
    {pc : MainPC} (h : stage.next s e = (a, pc)) :
    pc.rank + queueCost (s.apply a).queue < stage.rank e + queueCost s.queue := by
  cases stage with
  | put =>
      simp only [EnqueueStage.next] at h
      split at h <;> obtain ⟨rfl, rfl⟩ := Prod.mk.inj h
      · refine Nat.add_lt_add_right ?_ _
        simp only [MainPC.rank, rank, Execution.cost]
        omega
      · rename_i hopen
        rw [Shared.queue_put (Bool.eq_false_iff.2 hopen), queueCost_append, queueCost_cons,
          queueCost_nil]
        simp only [MainPC.rank, rank, Execution.cost]
        omega
  | _ =>
      refine Shared.work_lt_of_rank ?_ ?_
      all_goals
        simp only [EnqueueStage.next] at h
        grind [EnqueueStage.rank, MainPC.rank, Access.ofQueue, Execution.cost]

lemma AbortStage.next_work {s : Shared} {e : Execution} {stage : AbortStage} {a : Access}
    {pc : MainPC} (h : stage.next s e = (a, pc)) :
    pc.rank + queueCost (s.apply a).queue < stage.rank + queueCost s.queue := by
  cases stage with
  | removeQueued =>
      simp only [AbortStage.next] at h
      split at h <;> obtain ⟨rfl, rfl⟩ := Prod.mk.inj h
      · exact Nat.add_lt_add_of_lt_of_le (by simp [MainPC.rank, rank]) (queueCost_filter_le _ _)
      · exact Nat.add_lt_add_right (by simp [MainPC.rank, rank]) _
  | _ =>
      refine Shared.work_lt_of_rank ?_ ?_
      all_goals
        simp only [AbortStage.next] at h
        grind [AbortStage.rank, MainPC.rank, Access.ofQueue, CancelStage.rank, CancelCaller.rank]

lemma CancelStage.next_rank {s : Shared} {c : Choice} {d : DataId} {caller : CancelCaller}
    {stage : CancelStage} {a : Access} {pc : MainPC}
    (h : stage.next s c d caller = some (a, pc)) :
    a.ofQueue = false ∧ pc.rank < stage.rank + caller.rank := by
  cases stage <;> simp only [CancelStage.next] at h
  all_goals grind [CancelStage.rank, MainPC.rank, Access.ofQueue, CancelCaller.resume_rank]

lemma AbortAllStage.next_work {s : Shared} {g : BulkResult} {stage : AbortAllStage} {a : Access}
    {pc : MainPC} (h : stage.next s g = (a, pc)) :
    pc.rank + queueCost (s.apply a).queue < stage.rank + queueCost s.queue := by
  cases stage with
  | clearQueue =>
      obtain ⟨rfl, rfl⟩ := Prod.mk.inj h
      have hcost := length_le_queueCost s.queue
      show (AbortAllStage.nextQueued _).rank + queueCost [] < _
      rw [nextQueued_rank, queueCost_nil, rank]
      omega
  | _ =>
      refine Shared.work_lt_of_rank ?_ ?_
      all_goals
        simp only [AbortAllStage.next] at h
        grind [AbortAllStage.rank, MainPC.rank, Access.ofQueue, CancelStage.rank,
          CancelCaller.rank, nextQueued_rank]

lemma ShutdownStage.next_work {s : Shared} {join : Bool} {g : BulkResult}
    {stage : ShutdownStage} {a : Access} {pc : MainPC} (h : stage.next s join g = (a, pc)) :
    pc.rank + queueCost (s.apply a).queue < stage.rank + queueCost s.queue := by
  cases stage with
  | closeAndClear =>
      obtain ⟨rfl, rfl⟩ := Prod.mk.inj h
      have hcost := length_le_queueCost s.queue
      have hrank := nextQueued_rank_le [] s.queue
      show (ShutdownStage.nextQueued _ _).rank + queueCost [] < _
      rw [queueCost_nil, rank]
      simp only [List.length_nil] at hrank
      omega
  | setFinished e rest completed =>
      obtain ⟨rfl, rfl⟩ := Prod.mk.inj h
      refine Shared.work_lt_of_rank rfl ?_
      have hrank := nextQueued_rank_le (completed ++ [e]) rest
      rw [List.length_append, List.length_singleton] at hrank
      show (ShutdownStage.nextQueued _ _).rank < 3 + completed.length + 3 * rest.length + 2
      omega
  | finish todo =>
      refine Shared.work_lt_of_rank ?_ ?_
      all_goals
        cases todo <;> obtain ⟨rfl, rfl⟩ := Prod.mk.inj h
        all_goals simp [MainPC.rank, ShutdownStage.rank, Access.ofQueue]
  | _ =>
      refine Shared.work_lt_of_rank ?_ ?_
      all_goals
        simp only [ShutdownStage.next] at h
        grind [ShutdownStage.rank, MainPC.rank, Access.ofQueue, CancelStage.rank,
          CancelCaller.rank]

lemma WaitStage.next_work {s : Shared} {e : Execution} {stage : WaitStage} {a : Access}
    {pc : MainPC} (h : stage.next s e = some (a, pc)) :
    pc.rank + queueCost (s.apply a).queue < stage.rank + queueCost s.queue := by
  cases stage with
  | removeQueued =>
      simp only [WaitStage.next] at h
      split at h <;> obtain ⟨rfl, rfl⟩ := Prod.mk.inj (Option.some.inj h)
      · refine Nat.add_lt_add_of_lt_of_le ?_ (queueCost_filter_le _ _)
        simp [MainPC.rank, rank, CompleteStage.rank]
      · exact Nat.add_lt_add_right (by simp [MainPC.rank, rank]) _
  | complete stage =>
      obtain ⟨ha, hpos, hlt⟩ := stage.next_rank e cannotWaitReason
      rcases hnext : stage.next e cannotWaitReason with ⟨b, _ | stage'⟩
      · simp only [WaitStage.next, hnext, Option.some.injEq, Prod.mk.injEq] at h
        obtain ⟨rfl, rfl⟩ := h
        exact Shared.work_lt_of_rank (by rwa [hnext] at ha) hpos
      · simp only [WaitStage.next, hnext, Option.some.injEq, Prod.mk.injEq] at h
        obtain ⟨rfl, rfl⟩ := h
        exact Shared.work_lt_of_rank (by rwa [hnext] at ha) (hlt stage' (by rw [hnext]))
  | _ =>
      refine Shared.work_lt_of_rank ?_ ?_
      all_goals
        simp only [WaitStage.next] at h
        grind [WaitStage.rank, MainPC.rank, Access.ofQueue]

lemma PingStage.next_rank {s : Shared} {c : Choice} {stage : PingStage} {a : Access}
    {pc : MainPC} (h : stage.next s c = some (a, pc)) :
    a.ofQueue = false ∧ pc.rank < stage.rank := by
  cases stage <;> simp only [PingStage.next] at h
  all_goals grind [PingStage.rank, MainPC.rank, Access.ofQueue, ReconnectStage.rank,
    ReconnectStage.next_rank]

lemma ConnectCallStage.next_rank {s : Shared} {stage : ConnectCallStage} {a : Access}
    {pc : MainPC} (h : stage.next s = (a, pc)) : a.ofQueue = false ∧ pc.rank < stage.rank := by
  cases stage <;> simp only [ConnectCallStage.next] at h
  all_goals grind [ConnectCallStage.rank, MainPC.rank, Access.ofQueue]

lemma MainPC.next_work {s : Shared} {c : Choice} {pc pc' : MainPC} {a : Access}
    (h : pc.next s c = some (a, pc')) :
    pc'.rank + queueCost (s.apply a).queue < pc.rank + queueCost s.queue := by
  cases pc with
  | enqueue e stage => exact EnqueueStage.next_work (Option.some.inj h)
  | abort e stage => exact AbortStage.next_work (Option.some.inj h)
  | cancel d stage caller =>
      obtain ⟨ha, hlt⟩ := CancelStage.next_rank h
      exact Shared.work_lt_of_rank ha hlt
  | abortAll stage g => exact AbortAllStage.next_work (Option.some.inj h)
  | shutdown stage join g => exact ShutdownStage.next_work (Option.some.inj h)
  | waiting e stage => exact WaitStage.next_work h
  | ping stage =>
      obtain ⟨ha, hlt⟩ := PingStage.next_rank h
      exact Shared.work_lt_of_rank ha hlt
  | connect stage =>
      obtain ⟨ha, hlt⟩ := ConnectCallStage.next_rank (Option.some.inj h)
      exact Shared.work_lt_of_rank ha hlt
  | idle | joining => exact absurd h (by simp [MainPC.next])

/-! ### The system -/

/-- The steps of the two threads. -/
def Action.ofThread : Action → Bool
  | .worker _ | .main _ => true
  | .call _ | .connectionLost => false

/-- The steps of the network. -/
def Action.ofNetwork : Action → Bool
  | .connectionLost => true
  | _ => false

/-- The work that is left: no more steps of the threads follow until the next call. -/
def State.work (s : State) : ℕ := s.workerPC.rank + s.mainPC.rank + queueCost s.queue

lemma State.work_lt_of_step {s t : State} {a : Action} (h : Step s a t)
    (ha : a.ofThread = true) : t.work < s.work := by
  unfold State.work
  cases h with
  | @worker c a pc hnext =>
      have hlt := WorkerPC.next_work hnext
      show pc.rank + s.mainPC.rank + queueCost (s.toShared.apply a).queue < _
      omega
  | @main c a pc hspawn hnext =>
      have hlt := MainPC.next_work hnext
      show s.workerPC.rank + pc.rank + queueCost (s.toShared.apply a).queue < _
      omega
  | spawn hpc =>
      -- the worker thread may have a longer way to go, which `connect` has allowed for
      show ConnectStage.lockConnect.rank + MainPC.idle.rank + queueCost s.queue < _
      simp only [hpc, MainPC.rank, ConnectCallStage.rank, ConnectStage.rank]
      omega
  | join hpc hworker =>
      show s.workerPC.rank + MainPC.idle.rank + queueCost s.queue < _
      simp only [hpc, MainPC.rank]
      omega
  | call | connectionLost => cases ha

lemma bounded : system.Bounded Action.ofThread Action.ofNetwork State.work where
  lowers ha h := State.work_lt_of_step (step_of_next h) ha
  keeps ha h := by
    cases step_of_next h with
    | connectionLost => exact le_rfl
    | worker | main | spawn | join | call => cases ha

end GmsvPg.Database
