/-
# Who holds an execution

An accepted execution is in `queryQueue`, or one of the two threads has it in a local
variable, or it has been handed over: put on `finishedQueries`, or returned to the caller in
`QueryAbortResult.completed`.  This file reads off the points of the two threads what each
has in its hands, and shows that the system is an instance of the hand-off protocol, step
by step.  The accounting of executions follows for every run.
-/
import GmsvPg.Library.Handoff
import GmsvPg.Database.System

namespace GmsvPg.Database

/-! ### What the threads have in their hands -/

/-- The points of `run` after the execution was put on `finishedQueries`. -/
def RunStage.handedOver : RunStage → Bool
  | .setFinishedAborted _ | .clearInFlightAborted _ | .unlockAborted | .setFinished
  | .clearInFlight => true
  | _ => false

/-- The points of `run` after the data was marked finished. -/
def RunStage.settled : RunStage → Bool
  | .clearInFlightAborted _ | .unlockAborted | .clearInFlight => true
  | _ => false

/-- What the worker thread has taken and not yet put on `finishedQueries`. -/
def WorkerPC.holds : WorkerPC → List Execution
  | .connecting (.drain _ .setFinished rest _) => rest
  | .connecting (.drain e _ rest _) => e :: rest
  | .running e r => if r.handedOver then [] else [e]
  | _ => []

/-- What the worker thread has taken and not yet marked finished. -/
def WorkerPC.pending : WorkerPC → List Execution
  | .connecting (.drain e _ rest _) => e :: rest
  | .running e r => if r.settled then [] else [e]
  | _ => []

/-- What the caller of `cancelRunningQuery` has removed and not yet handed over. -/
def CancelCaller.holds : CancelCaller → List Execution
  | .abortAll g => g.completed
  | _ => []

/-- What the main thread has removed and not yet handed over. -/
def MainPC.holds : MainPC → List Execution
  | .abort e .storeRemoved | .abort e .setFinished | .abort e .returnRemoved => [e]
  | .cancel _ _ caller => caller.holds
  | .abortAll (.storeRemoved e rest) g | .abortAll (.setFinished e rest) g =>
      g.completed ++ e :: rest
  | .abortAll _ g => g.completed
  | .shutdown (.storeRemoved e rest completed) _ _
  | .shutdown (.setFinished e rest completed) _ _ => completed ++ e :: rest
  | .shutdown (.finish todo) _ _ => todo
  | .waiting _ (.complete .setFinished) => []
  | .waiting e (.complete _) => [e]
  | _ => []

/-- The executions of a failed connection attempt that the worker thread has yet to mark
finished. -/
def WorkerPC.draining : WorkerPC → List Execution
  | .connecting (.drain e _ rest _) => e :: rest
  | _ => []

/-- What the main thread has removed and not yet marked finished. -/
def MainPC.pending : MainPC → List Execution
  | .abort e .storeRemoved | .abort e .setFinished => [e]
  | .abortAll (.storeRemoved e rest) _ | .abortAll (.setFinished e rest) _ => e :: rest
  | .shutdown (.storeRemoved e rest _) _ _ | .shutdown (.setFinished e rest _) _ _ => e :: rest
  | .waiting e (.complete _) => [e]
  | _ => []

/-- The accesses that move no execution. -/
def Access.quiet : Access → Bool
  | .put _ | .take _ | .removeQueued _ | .clearQueue | .closeAndClear | .finish _
  | .returnCompleted _ => false
  | _ => true

/-- What an access does to the places of executions, given the queue and what its thread
holds and has pending before and after. -/
inductive Access.Moves (queue : List Execution) :
    Access → (holds pending holds' pending' : List Execution) → Prop
  | keep {a l p} (h : a.quiet = true) : Moves queue a l p l p
  | take {e rest} (h : queue = e :: rest) : Moves queue (.take e) [] [] [e] [e]
  | remove {e} (h : e ∈ queue) : Moves queue (.removeQueued e) [] [] [e] [e]
  | clear {l} : Moves queue .clearQueue l [] (l ++ queue) queue
  | close {l} : Moves queue .closeAndClear l [] (l ++ queue) queue
  | finish {e l p} : Moves queue (.finish e) (e :: l) p l p
  | settle {e l p} : Moves queue (.setFinished e) l (e :: p) l p
  | give {l} : Moves queue (.returnCompleted l) l [] [] []

lemma Access.Moves.ne_put {queue l p l' p' : List Execution} {a : Access}
    (h : a.Moves queue l p l' p') (e : Execution) : a ≠ .put e := by
  rintro rfl
  cases h with
  | keep hquiet => exact absurd hquiet (by simp [Access.quiet])

lemma Access.Moves.mem_pending {queue l p l' p' : List Execution} {a : Access}
    (h : a.Moves queue l p l' p') {e : Execution} (he : e ∈ p') : e ∈ p ∨ e ∈ queue := by
  cases h with
  | keep => exact .inl he
  | take hqueue => exact .inr (hqueue ▸ List.mem_singleton.1 he ▸ List.mem_cons_self)
  | remove hmem => exact .inr (List.mem_singleton.1 he ▸ hmem)
  | clear | close => exact .inr he
  | finish => exact .inl he
  | settle => exact .inl (List.mem_cons_of_mem _ he)
  | give => exact absurd he List.not_mem_nil

lemma Access.Moves.mem_holds {queue l p l' p' : List Execution} {a : Access}
    (h : a.Moves queue l p l' p') {e : Execution} (he : e ∈ l') : e ∈ l ∨ e ∈ queue := by
  cases h with
  | keep | settle => exact .inl he
  | take hqueue => exact .inr (hqueue ▸ List.mem_singleton.1 he ▸ List.mem_cons_self)
  | remove hmem => exact .inr (List.mem_singleton.1 he ▸ hmem)
  | clear | close => exact List.mem_append.1 he
  | finish => exact .inl (List.mem_cons_of_mem _ he)
  | give => exact absurd he List.not_mem_nil

lemma Access.Moves.returned_holds {queue l p l' p' es : List Execution}
    (h : (Access.returnCompleted es).Moves queue l p l' p') {e : Execution} (he : e ∈ es) :
    e ∈ l := by
  cases h with
  | keep hquiet => exact absurd hquiet (by simp [Access.quiet])
  | give => exact he

lemma RunStage.next_moves {s : Shared} {c : Choice} {e : Execution} {r : RunStage} {a : Access}
    {pc : WorkerPC} (h : r.next s c e = some (a, pc)) :
    a.Moves s.queue (WorkerPC.running e r).holds (WorkerPC.running e r).pending
      pc.holds pc.pending := by
  cases r <;> simp only [RunStage.next] at h
  all_goals grind [Access.quiet, WorkerPC.holds, WorkerPC.pending, RunStage.handedOver,
    RunStage.settled, ReconnectStage.next_access, Access.Moves]

lemma ConnectStage.drainNext_holds (reason : Text) (l : List Execution) :
    (WorkerPC.connecting (ConnectStage.drainNext reason l)).holds = l ∧
      (WorkerPC.connecting (ConnectStage.drainNext reason l)).pending = l := by
  cases l <;> exact ⟨rfl, rfl⟩

lemma ConnectStage.next_moves {s : Shared} {c : Choice} {stage : ConnectStage} {a : Access}
    {pc : WorkerPC} (h : stage.next s c = some (a, pc)) :
    a.Moves s.queue (WorkerPC.connecting stage).holds (WorkerPC.connecting stage).pending
      pc.holds pc.pending := by
  cases stage with
  | drain e stage rest reason =>
      cases stage <;> simp only [ConnectStage.next, CompleteStage.next] at h
      all_goals grind [Access.quiet, WorkerPC.holds, WorkerPC.pending, Access.Moves,
        ConnectStage.drainNext_holds]
  | failClose =>
      obtain ⟨rfl, rfl⟩ : _ ∧ _ := by simpa [ConnectStage.next] using h
      rw [(ConnectStage.drainNext_holds _ _).1, (ConnectStage.drainNext_holds _ _).2]
      exact .close (l := [])
  | _ =>
      simp only [ConnectStage.next] at h
      repeat' split at h
      all_goals grind [Access.quiet, WorkerPC.holds, WorkerPC.pending, Access.Moves,
        ConnectStage.drainNext_holds]

/-- A step of the worker thread moves executions only between the queue, its own hands and
`finishedQueries`. -/
lemma WorkerPC.next_moves {s : Shared} {c : Choice} {pc pc' : WorkerPC} {a : Access}
    (h : pc.next s c = some (a, pc')) :
    a.Moves s.queue pc.holds pc.pending pc'.holds pc'.pending := by
  cases pc with
  | notStarted => exact absurd h (by simp [WorkerPC.next])
  | connecting stage => exact ConnectStage.next_moves h
  | taking =>
      simp only [WorkerPC.next] at h
      grind [Access.quiet, WorkerPC.holds, WorkerPC.pending, Access.Moves, RunStage.handedOver,
        RunStage.settled]
  | running e r => exact RunStage.next_moves h
  | leaving stage =>
      cases stage <;> simp only [WorkerPC.next, LeaveStage.next] at h
      all_goals grind [Access.quiet, WorkerPC.holds, WorkerPC.pending, Access.Moves]
  | ended => exact absurd h (by simp [WorkerPC.next])

lemma AbortAllStage.nextQueued_holds (g : BulkResult) (l : List Execution) :
    (MainPC.abortAll (AbortAllStage.nextQueued l) g).holds = g.completed ++ l ∧
      (MainPC.abortAll (AbortAllStage.nextQueued l) g).pending = l := by
  cases l with
  | nil => exact ⟨(List.append_nil _).symm, rfl⟩
  | cons e rest => exact ⟨rfl, rfl⟩

lemma ShutdownStage.nextQueued_holds (completed l : List Execution) (join : Bool)
    (g : BulkResult) :
    (MainPC.shutdown (ShutdownStage.nextQueued completed l) join g).holds = completed ++ l ∧
      (MainPC.shutdown (ShutdownStage.nextQueued completed l) join g).pending = l := by
  cases l with
  | nil => exact ⟨(List.append_nil _).symm, rfl⟩
  | cons e rest => exact ⟨rfl, rfl⟩

lemma AbortAllStage.next_moves {s : Shared} {g : BulkResult} {stage : AbortAllStage} {a : Access}
    {pc : MainPC} (h : stage.next s g = (a, pc)) :
    a.Moves s.queue (MainPC.abortAll stage g).holds (MainPC.abortAll stage g).pending
      pc.holds pc.pending := by
  cases stage <;> simp only [AbortAllStage.next] at h
  all_goals repeat' split at h
  all_goals grind [Access.quiet, MainPC.holds, MainPC.pending, Access.Moves,
    AbortAllStage.nextQueued_holds, BulkResult.complete, BulkResult.request, CancelCaller.holds]

lemma ShutdownStage.next_moves {s : Shared} {join : Bool} {g : BulkResult} {stage : ShutdownStage}
    {a : Access} {pc : MainPC} (h : stage.next s join g = (a, pc)) :
    a.Moves s.queue (MainPC.shutdown stage join g).holds (MainPC.shutdown stage join g).pending
      pc.holds pc.pending := by
  cases stage <;> simp only [ShutdownStage.next] at h
  all_goals repeat' split at h
  all_goals grind [Access.quiet, MainPC.holds, MainPC.pending, Access.Moves,
    ShutdownStage.nextQueued_holds, CancelCaller.holds]

lemma WaitStage.next_moves {s : Shared} {e : Execution} {stage : WaitStage} {a : Access}
    {pc : MainPC} (h : stage.next s e = some (a, pc)) :
    a.Moves s.queue (MainPC.waiting e stage).holds (MainPC.waiting e stage).pending
      pc.holds pc.pending := by
  cases stage with
  | complete stage =>
      cases stage <;> simp only [WaitStage.next, CompleteStage.next] at h
      all_goals grind [Access.quiet, MainPC.holds, MainPC.pending, Access.Moves]
  | _ =>
      simp only [WaitStage.next] at h
      repeat' split at h
      all_goals grind [Access.quiet, MainPC.holds, MainPC.pending, Access.Moves]

lemma CancelCaller.resume_holds (d : DataId) (requested : Bool) (caller : CancelCaller) :
    (caller.resume d requested).holds = caller.holds ∧ (caller.resume d requested).pending = [] := by
  cases caller <;> cases requested <;> exact ⟨rfl, rfl⟩

lemma ConnectStage.drainNext_draining (reason : Text) (l : List Execution) :
    (WorkerPC.connecting (ConnectStage.drainNext reason l)).draining = l := by
  cases l <;> rfl

lemma WorkerPC.next_draining {s : Shared} {c : Choice} {pc pc' : WorkerPC} {a : Access}
    {e : Execution} (h : pc.next s c = some (a, pc')) (he : e ∈ pc'.draining) :
    e ∈ pc.draining ∨ e ∈ s.queue := by
  cases pc with
  | connecting stage =>
      cases stage with
      | drain e' stage rest reason =>
          cases stage <;> simp only [WorkerPC.next, ConnectStage.next, CompleteStage.next] at h
          all_goals grind [WorkerPC.draining, ConnectStage.drainNext_draining]
      | _ =>
          simp only [WorkerPC.next, ConnectStage.next] at h
          repeat' split at h
          all_goals grind [WorkerPC.draining, ConnectStage.drainNext_draining]
  | running e' r =>
      rcases RunStage.next_pc h with rfl | ⟨r', rfl⟩
      · exact absurd he List.not_mem_nil
      · exact absurd he List.not_mem_nil
  | taking =>
      simp only [WorkerPC.next] at h
      grind [WorkerPC.draining]
  | leaving stage =>
      cases stage <;> simp only [WorkerPC.next, LeaveStage.next] at h
      all_goals grind [WorkerPC.draining]
  | notStarted | ended => exact absurd h (by simp [WorkerPC.next])

/-- A step of the main thread accepts an execution, or moves executions only between the
queue, its own hands, `finishedQueries` and the caller. -/
lemma MainPC.next_moves {s : Shared} {c : Choice} {pc pc' : MainPC} {a : Access}
    (h : pc.next s c = some (a, pc')) :
    a.Moves s.queue pc.holds pc.pending pc'.holds pc'.pending ∨
      ∃ e, pc = .enqueue e .put ∧ a = .put e ∧ s.closed = false ∧ pc' = .idle := by
  cases pc with
  | idle => exact absurd h (by simp [MainPC.next])
  | enqueue e stage =>
      cases stage <;> simp only [MainPC.next, EnqueueStage.next] at h
      all_goals repeat' split at h
      all_goals cases h
      all_goals grind [Access.quiet, MainPC.holds, MainPC.pending, Access.Moves]
  | abort e stage =>
      cases stage <;> simp only [MainPC.next, AbortStage.next] at h
      all_goals repeat' split at h
      all_goals cases h
      all_goals grind [Access.quiet, MainPC.holds, MainPC.pending, Access.Moves,
        CancelCaller.holds]
  | cancel d stage caller =>
      cases stage <;> simp only [MainPC.next, CancelStage.next] at h
      all_goals repeat' split at h
      all_goals cases h
      all_goals grind [Access.quiet, MainPC.holds, MainPC.pending, Access.Moves,
        CancelCaller.resume_holds]
  | abortAll stage g => exact .inl (AbortAllStage.next_moves (Option.some.inj h))
  | shutdown stage join g => exact .inl (ShutdownStage.next_moves (Option.some.inj h))
  | waiting e stage => exact .inl (WaitStage.next_moves h)
  | ping stage =>
      cases stage <;> simp only [MainPC.next, PingStage.next] at h
      all_goals repeat' split at h
      all_goals cases h
      all_goals grind [Access.quiet, MainPC.holds, MainPC.pending, Access.Moves,
        ReconnectStage.next_access]
  | connect stage =>
      cases stage <;> simp only [MainPC.next, ConnectCallStage.next] at h
      all_goals repeat' split at h
      all_goals cases h
      all_goals exact .inl (.keep rfl)
  | joining => exact absurd h (by simp [MainPC.next])

/-! ### What a move does to the shared state -/

/-- An access that moves no execution leaves the queue and the records of hand-overs as they
are. -/
lemma Shared.apply_quiet {s : Shared} {a : Access} (h : a.quiet = true) :
    (s.apply a).worker.queryQueue = s.worker.queryQueue ∧
      (s.apply a).history.accepted = s.history.accepted ∧
      (s.apply a).history.finished = s.history.finished ∧
      (s.apply a).history.returned = s.history.returned := by
  cases a with
  | connectSession error => cases error <;> exact ⟨rfl, rfl, rfl, rfl⟩
  | put | take | removeQueued | clearQueue | closeAndClear | finish | returnCompleted =>
      exact absurd h (by simp [Access.quiet])
  | _ => exact ⟨rfl, rfl, rfl, rfl⟩

lemma Shared.queue_put {s : Shared} {e : Execution} (h : s.closed = false) :
    (s.apply (.put e)).queue = s.queue ++ [e] := by
  have hopen : s.worker.queryQueue.closed = false := h
  simp [apply, queue, setQueue, record, BlockingQueue.put, hopen]

lemma Shared.apply_accepted {s : Shared} {a : Access} {q l p l' p' : List Execution}
    (h : a.Moves q l p l' p') : (s.apply a).history.accepted = s.history.accepted := by
  cases h with
  | keep hquiet => exact (s.apply_quiet hquiet).2.1
  | _ => rfl

end GmsvPg.Database
