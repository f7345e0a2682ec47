/-
# Serial execution in queue order

The executions that `executeStatement` was called for, followed by the one the worker thread
has taken and may still call it for, followed by the queue, form a line.  A step appends to
the line what it accepts, drops members, or, for `swapQueryToFront`, permutes the queued
ones; the order of acceptance is kept by all but the last.  At most one execution is between
the call and the end of `executeStatement`.
-/
import GmsvPg.Database.Lifecycle

namespace GmsvPg.Database

open Library Machine List

/-! ### The phases of a turn -/

/-- The phases of the turn of an execution, by the call of `executeStatement`. -/
inductive Phase
  | before
  | during
  | after
deriving DecidableEq

/-- The phase a point of `run` and `runQuery` belongs to; `after` is also the phase of the
points from which `executeStatement` is not reached any more. -/
def RunStage.phase : RunStage → Phase
  | .setInFlight | .testStatus | .lockQuery | .testShuttingDown | .testStatusLocked
  | .storeRunning | .testOpen | .testAutoReconnect | .reconnectFirst _ | .enterGuard
  | .execute => .before
  | .executing _ _ => .during
  | .finishAborted _ | .setFinishedAborted _ | .clearInFlightAborted _ | .unlockAborted
  | .storeAborted | .clearCancellation | .storeSuccess | .leaveGuard _ | .testCancellation _
  | .storeCancelled | .storeResultNone | .clearCancellationThrown _ | .testRetry _
  | .reconnectAgain _ _ | .storeError _ | .testErrorText _ | .setErrorText _ | .testAborted
  | .storeComplete | .unlock | .finish | .setFinished | .clearInFlight => .after

/-- The call and the end of `executeStatement`. -/
def Access.ofStatement : Access → Bool
  | .execute _ | .endExecution _ => true
  | _ => false

lemma RunStage.next_phase {s : Shared} {c : Choice} {e : Execution} {r : RunStage}
    {a : Access} {pc : WorkerPC} (h : r.next s c e = some (a, pc)) :
    (a.ofStatement = false ∧ (pc = .taking ∧ r.phase = .after ∨
        ∃ r', pc = .running e r' ∧ (r'.phase = r.phase ∨ r.phase = .before ∧ r'.phase = .after))) ∨
      (a = .execute e ∧ r = .execute ∧ ∃ r', pc = .running e r' ∧ r'.phase = .during) ∨
      (a = .endExecution e ∧ r.phase = .during ∧ ∃ r', pc = .running e r' ∧ r'.phase = .after) := by
  cases r <;> simp only [RunStage.next] at h
  all_goals repeat' split at h
  all_goals grind [RunStage.phase, Access.ofStatement, ReconnectStage.next_access]
/-- What the worker thread has in a phase. -/
def WorkerPC.inPhase (p : Phase) : WorkerPC → List Execution
  | .running e r => if r.phase = p then [e] else []
  | _ => []

/-- A step of the worker thread takes the front of the queue, calls `executeStatement` for
what it has taken, leaves it, or does neither. -/
lemma WorkerPC.next_inPhase {s : Shared} {c : Choice} {pc pc' : WorkerPC} {a : Access}
    (h : pc.next s c = some (a, pc')) :
    (∃ e rest, a = .take e ∧ s.queue = e :: rest ∧ pc.inPhase .before = [] ∧
        pc'.inPhase .before = [e] ∧ pc.inPhase .during = [] ∧ pc'.inPhase .during = []) ∨
      (∃ e, a = .execute e ∧ pc = .running e .execute ∧ pc'.inPhase .before = [] ∧
        pc'.inPhase .during = [e]) ∨
      (∃ e, a = .endExecution e ∧ pc.inPhase .before = [] ∧ pc'.inPhase .before = [] ∧
        pc.inPhase .during = [e] ∧ pc'.inPhase .during = []) ∨
      a.ofStatement = false ∧ pc'.inPhase .before <+ pc.inPhase .before ∧
        pc'.inPhase .during = pc.inPhase .during := by
  cases pc with
  | running e r =>
      rcases RunStage.next_phase h with ⟨ha, ⟨rfl, hr⟩ | ⟨r', rfl, hr | ⟨hr, hr'⟩⟩⟩ |
        ⟨rfl, rfl, r', rfl, hr'⟩ | ⟨rfl, hr, r', rfl, hr'⟩
      · exact .inr (.inr (.inr ⟨ha, nil_sublist _, by simp [inPhase, hr]⟩))
      · exact .inr (.inr (.inr ⟨ha, by simp [inPhase, hr], by simp [inPhase, hr]⟩))
      · exact .inr (.inr (.inr ⟨ha, by simp [inPhase, hr'], by simp [inPhase, hr, hr']⟩))
      · exact .inr (.inl ⟨e, rfl, rfl, by simp [inPhase, hr'], by simp [inPhase, hr']⟩)
      · refine .inr (.inr (.inl ⟨e, rfl, ?_⟩))
        simp [inPhase, hr, hr']
  | taking =>
      simp only [WorkerPC.next] at h
      split at h
      · split at h
        · obtain ⟨rfl, rfl⟩ : _ ∧ _ := by simpa using h
          exact .inr (.inr (.inr ⟨rfl, nil_sublist _, rfl⟩))
        · exact absurd h (by simp)
      · rename_i e rest hqueue
        obtain ⟨rfl, rfl⟩ : _ ∧ _ := by simpa using h
        exact .inl ⟨e, rest, rfl, hqueue, rfl, rfl, rfl, rfl⟩
  | connecting stage =>
      refine .inr (.inr (.inr ?_))
      cases stage with
      | drain e' stage rest reason =>
          cases stage <;> simp only [WorkerPC.next, ConnectStage.next, CompleteStage.next] at h
          all_goals grind [WorkerPC.inPhase, Access.ofStatement]
      | _ =>
          simp only [WorkerPC.next, ConnectStage.next] at h
          repeat' split at h
          all_goals grind [WorkerPC.inPhase, Access.ofStatement]
  | leaving stage =>
      refine .inr (.inr (.inr ?_))
      cases stage <;> simp only [WorkerPC.next, LeaveStage.next] at h
      all_goals grind [WorkerPC.inPhase, Access.ofStatement]
  | notStarted | ended => exact absurd h (by simp [WorkerPC.next])

/-! ### What the accesses do to the line -/

namespace Shared

variable {s : Shared} {a : Access}

lemma queue_apply_sublist (h : ∀ e, a ≠ .put e) : (s.apply a).queue <+ s.queue := by
  by_cases hquiet : a.quiet = true
  · rw [queue, (s.apply_quiet hquiet).1]
    exact Sublist.refl _
  · cases a with
    | put e => exact absurd rfl (h e)
    | take => exact tail_sublist _
    | removeQueued => exact filter_sublist
    | clearQueue | closeAndClear => exact nil_sublist _
    | finish | returnCompleted => exact Sublist.refl _
    | _ => exact absurd rfl hquiet

lemma apply_statement (h : a.ofStatement = false) :
    (s.apply a).history.executed = s.history.executed ∧
      (s.apply a).history.executionEnded = s.history.executionEnded := by
  cases a with
  | connectSession error => cases error <;> exact ⟨rfl, rfl⟩
  | execute | endExecution => exact absurd h (by simp [Access.ofStatement])
  | _ => exact ⟨rfl, rfl⟩

end Shared

lemma MainPC.next_ofStatement {s : Shared} {c : Choice} {pc pc' : MainPC} {a : Access}
    (h : pc.next s c = some (a, pc')) : a.ofStatement = false := by
  have hrun := MainPC.next_ofRun h
  cases a with
  | execute | endExecution => exact absurd hrun (by simp [Access.ofRun])
  | _ => rfl

namespace State

variable {C : State → Action → Prop} {s t : State}

/-- Executed, about to be executed, queued. -/
def line (s : State) : List Execution :=
  s.history.executed ++ (s.workerPC.inPhase .before ++ s.queue)

/-- A step accepts an execution at the end of the line, drops members of the line, or permutes
the queued ones. -/
lemma step_line {a : Action} (hr : system.Reach C s) (h : Step s a t) :
    (∃ e, t.history.accepted = s.history.accepted ++ [e] ∧ t.line = s.line ++ [e]) ∨
      t.history.accepted = s.history.accepted ∧
        (t.line <+ s.line ∨ (∃ e, a = .call (.swapToFront e)) ∧ t.line ~ s.line) := by
  cases h with
  | @worker c a pc hnext =>
      have hmoves := WorkerPC.next_moves hnext
      refine .inr ⟨Shared.apply_accepted hmoves, .inl ?_⟩
      have hqueue : (s.stepWorker a pc).queue <+ s.queue :=
        Shared.queue_apply_sublist hmoves.ne_put
      rcases WorkerPC.next_inPhase hnext with ⟨e, rest, rfl, hrest, h1, h2, -⟩ |
        ⟨e, rfl, hpc, h2, -⟩ | ⟨e, rfl, h1, h2, -⟩ | ⟨ha, hsub, -⟩
      · have htail : (s.stepWorker (.take e) pc).queue = rest := by
          show s.queue.tail = rest
          rw [hrest, tail_cons]
        have hphase : (s.stepWorker (.take e) pc).workerPC.inPhase .before = [e] := h2
        rw [line, line, htail, hphase, hrest, h1]
        exact Sublist.refl _
      · have hexecuted : (s.stepWorker (.execute e) pc).history.executed =
            s.history.executed ++ [e] := rfl
        have hphase : (s.stepWorker (.execute e) pc).workerPC.inPhase .before = [] := h2
        rw [line, line, hexecuted, hphase, hpc, append_assoc]
        exact Sublist.refl _
      · have hphase : (s.stepWorker (.endExecution e) pc).workerPC.inPhase .before = [] := h2
        rw [line, line, hphase, h1]
        exact Sublist.refl _
      · rw [line, line, show (s.stepWorker a pc).history.executed = _ from
          (Shared.apply_statement ha).1]
        exact (Sublist.refl _).append (hsub.append hqueue)
  | @main c a pc hspawn hnext =>
      have hexecuted : (s.stepMain a pc).history.executed = s.history.executed :=
        (Shared.apply_statement (MainPC.next_ofStatement hnext)).1
      rcases MainPC.next_moves hnext with hmoves | ⟨e, hpc, rfl, hclosed, rfl⟩
      · refine .inr ⟨Shared.apply_accepted hmoves, .inl ?_⟩
        rw [line, line, hexecuted]
        exact (Sublist.refl _).append
          ((Sublist.refl _).append (Shared.queue_apply_sublist hmoves.ne_put))
      · refine .inl ⟨e, rfl, ?_⟩
        have hqueue : (s.stepMain (.put e) .idle).queue = s.queue ++ [e] := Shared.queue_put hclosed
        rw [line, line, hexecuted, hqueue, append_assoc, append_assoc]
        rfl
  | spawn hpc =>
      have hworker : s.workerPC = .notStarted :=
        ((startedOnce hr).connecting _ hpc (by simp) (by simp)).1
      refine .inr ⟨rfl, .inl ?_⟩
      rw [line, line, hworker]
      exact Sublist.refl _
  | join hpc hworker => exact .inr ⟨rfl, .inl (Sublist.refl _)⟩
  | call hidle hcall =>
      refine .inr ⟨callStep_accepted hcall, ?_⟩
      cases hcall with
      | @swapToFront e =>
          refine .inr ⟨⟨e, rfl⟩, ?_⟩
          exact ((BlockingQueue.swapToFrontIf_perm _ _).append_left _).append_left _
      | _ => exact .inl (Sublist.refl _)
  | connectionLost => exact .inr ⟨rfl, .inl (Sublist.refl _)⟩

/-- Whatever is called, the line holds each accepted execution at most once. -/
theorem line_subperm_accepted (h : system.Reach C s) : s.line <+~ s.history.accepted := by
  refine system_invariant (I := fun s => s.line <+~ s.history.accepted) (Subperm.refl _)
    (fun s t a hr hI _ hstep => ?_) h
  rcases step_line hr hstep with ⟨e, haccepted, hline⟩ | ⟨haccepted, hline | ⟨-, hline⟩⟩
  · rw [haccepted, hline]
    exact (subperm_append_right _).2 hI
  · rw [haccepted]
    exact hline.subperm.trans hI
  · rw [haccepted]
    exact hline.subperm.trans hI

/-- Without `swapQueryToFront`, the line keeps the order of acceptance. -/
theorem line_sublist_accepted (h : system.Reach (fun _ a => ∀ e, a ≠ .call (.swapToFront e)) s) :
    s.line <+ s.history.accepted := by
  refine system_invariant (I := fun s => s.line <+ s.history.accepted) (Sublist.refl _)
    (fun s t a hr hI hC hstep => ?_) h
  rcases step_line hr hstep with ⟨e, haccepted, hline⟩ | ⟨haccepted, hline | ⟨⟨e, ha⟩, -⟩⟩
  · rw [haccepted, hline]
    exact hI.append (Sublist.refl _)
  · rw [haccepted]
    exact hline.trans hI
  · exact absurd ha (hC e)

/-- What `executeStatement` was called for, it has left, or the worker thread is in it. -/
theorem executed_eq (h : system.Reach C s) :
    s.history.executed = s.history.executionEnded ++ s.workerPC.inPhase .during := by
  refine system_invariant
    (I := fun s => s.history.executed = s.history.executionEnded ++ s.workerPC.inPhase .during)
    rfl (fun s t a hr hI _ hstep => ?_) h
  cases hstep with
  | @worker c a pc hnext =>
      rcases WorkerPC.next_inPhase hnext with ⟨e, rest, rfl, -, -, -, h1, h2⟩ |
        ⟨e, rfl, hpc, -, h2⟩ | ⟨e, rfl, -, -, h1, h2⟩ | ⟨ha, -, hphase⟩
      · rw [h1] at hI
        exact hI.trans (congrArg _ h2.symm)
      · have hI : s.history.executed = s.history.executionEnded ++ [] := by
          rw [hpc] at hI
          exact hI
        show s.history.executed ++ [e] = s.history.executionEnded ++ pc.inPhase .during
        rw [hI, h2, append_nil]
      · show s.history.executed = s.history.executionEnded ++ [e] ++ pc.inPhase .during
        rw [hI, h1, h2, append_nil]
      · obtain ⟨h1, h2⟩ := s.toShared.apply_statement ha
        show (s.toShared.apply a).history.executed =
          (s.toShared.apply a).history.executionEnded ++ pc.inPhase .during
        rw [h1, h2, hphase]
        exact hI
  | @main c a pc hspawn hnext =>
      obtain ⟨h1, h2⟩ := s.toShared.apply_statement (MainPC.next_ofStatement hnext)
      show (s.toShared.apply a).history.executed =
        (s.toShared.apply a).history.executionEnded ++ s.workerPC.inPhase .during
      rw [h1, h2]
      exact hI
  | spawn hpc =>
      have hworker : s.workerPC = .notStarted :=
        ((startedOnce hr).connecting _ hpc (by simp) (by simp)).1
      rw [hworker] at hI
      exact hI
  | join hpc hworker => exact hI
  | call hidle hcall => cases hcall <;> exact hI
  | connectionLost => exact hI

/-- `executeStatement` is not called for finished data. -/
lemma unfinished_of_execute (h : system.Reach C s) {c : Choice} {e : Execution} {pc : WorkerPC}
    (hnext : s.workerPC.next s.toShared c = some (.execute e, pc)) :
    (s.own e).finished = false := by
  rcases WorkerPC.next_inPhase hnext with ⟨e', rest, ha, -⟩ | ⟨e', ha, hpc, -⟩ | ⟨e', ha, -⟩ |
    ⟨ha, -⟩
  · exact absurd ha (by simp)
  · obtain rfl : e = e' := by simpa using ha
    exact (fresh_of_reach h).running e _ hpc rfl
  · exact absurd ha (by simp)
  · exact absurd ha (by simp [Access.ofStatement])

end State

/-! ### Serial, at most once, in order -/

/-- **Serial execution.**  In every run, whatever the main thread calls and whenever the
connection is lost: `executeStatement` has been called at most once for each accepted
execution and is never called for finished data, and at most the last execution it was called
for is still in it; and unless `swapQueryToFront` was called, the calls have come in the order
of acceptance. -/
theorem serial_execution {s : State} (h : system.Reachable s) :
    (s.history.executed.Nodup ∧ s.history.executed ⊆ s.history.accepted) ∧
      (∀ c e pc, s.workerPC.next s.toShared c = some (.execute e, pc) →
        (s.own e).finished = false) ∧
      (∃ current : Option Execution,
        s.history.executed = s.history.executionEnded ++ current.toList) ∧
      (system.Reach (fun _ a => ∀ e, a ≠ .call (.swapToFront e)) s →
        s.history.executed <+ s.history.accepted) := by
  have hline := State.line_subperm_accepted h
  have hexecuted : s.history.executed <+~ s.history.accepted :=
    (sublist_append_left _ _).subperm.trans hline
  refine ⟨⟨?_, hexecuted.subset⟩, fun c e pc => State.unfinished_of_execute h, ?_, fun hswap => ?_⟩
  · obtain ⟨l, hperm, hsub⟩ := hexecuted
    exact hperm.nodup_iff.1 ((State.numbered h).nodup.sublist hsub)
  · rw [State.executed_eq h]
    cases hpc : s.workerPC with
    | running e r =>
        by_cases hr : r.phase = .during
        · exact ⟨some e, by simp [WorkerPC.inPhase, hr]⟩
        · exact ⟨none, by simp [WorkerPC.inPhase, hr]⟩
    | _ => exact ⟨none, rfl⟩
  · exact (sublist_append_left _ _).trans (State.line_sublist_accepted hswap)

/-- The connection is lost while the first of two executions is in `executeStatement`; the
worker thread reconnects and goes on with the second. -/
def reconnectRun : List Action :=
  connectSteps ++ connectedSteps ++ startSteps 0 0 ++ workerSteps 10 ++ startSteps 1 0 ++
    [.connectionLost, .worker (.left (some (PGConnectionException "connection lost".toList)))] ++
    workerSteps 8 ++ [.worker (.connected none)] ++ workerSteps 21

theorem serial_execution_reconnectRun :
    ∃ s, system.run system.init reconnectRun = some s ∧
      s.history.executed = [⟨0, 0, 0⟩, ⟨1, 1, 0⟩] ∧ s.history.executed.Nodup ∧
      ∃ current : Option Execution,
        s.history.executed = s.history.executionEnded ++ current.toList := by
  obtain ⟨s, hs⟩ : ∃ s, system.run system.init reconnectRun = some s := ⟨_, rfl⟩
  have hexecuted : (system.run system.init reconnectRun).map (·.history.executed) =
      some [⟨0, 0, 0⟩, ⟨1, 1, 0⟩] := rfl
  have h := serial_execution (reachable_of_run hs)
  exact ⟨s, hs, by simpa [hs] using hexecuted, h.1.1, h.2.2.1⟩

end GmsvPg.Database
