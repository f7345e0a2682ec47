/-
# Exactly-once hand-over

An accepted execution reaches the caller by `finishedQueries` or by a `completed` list.  The
accounting says that the thread that has an execution in its hands gives it away once; what
is left is `completeQueryWithError`, which `waitForQuery` calls for an execution that it has
not in its hands.  It is harmless unless the worker thread is still completing the executions
of a failed connection attempt, with that execution among them.
-/
import GmsvPg.Database.Delivery

namespace GmsvPg.Database

open Library Machine

/-! ### The closed queue -/

/-- The points of the worker thread after it has found or left the queue closed and empty. -/
def WorkerPC.pastQueue : WorkerPC → Bool
  | .connecting (.drain ..) | .connecting .failReturn | .leaving _ | .ended => true
  | _ => false

lemma WorkerPC.next_pastQueue {s : Shared} {c : Choice} {pc pc' : WorkerPC} {a : Access}
    (h : pc.next s c = some (a, pc')) (hpc' : pc'.pastQueue = true) :
    pc.pastQueue = true ∨ a = .closeAndClear ∨ s.closed = true ∧ s.queue = [] := by
  cases pc with
  | connecting stage =>
      cases stage with
      | drain e' stage rest reason => exact .inl rfl
      | _ =>
          simp only [WorkerPC.next, ConnectStage.next] at h
          repeat' split at h
          all_goals grind [WorkerPC.pastQueue]
  | taking =>
      simp only [WorkerPC.next] at h
      grind [WorkerPC.pastQueue]
  | running e' r =>
      rcases RunStage.next_pc h with rfl | ⟨r', rfl⟩
      · exact absurd hpc' (by simp [WorkerPC.pastQueue])
      · exact absurd hpc' (by simp [WorkerPC.pastQueue])
  | leaving stage => exact .inl rfl
  | notStarted | ended => exact absurd h (by simp [WorkerPC.next])

lemma Shared.apply_closed_empty {s : Shared} {a : Access} (hput : s.closed = true → ∀ e, a ≠ .put e)
    (h : s.closed = true ∧ s.queue = []) : (s.apply a).closed = true ∧ (s.apply a).queue = [] := by
  have hempty : (s.apply a).queue = [] := by
    refine List.eq_nil_iff_forall_not_mem.2 fun e he => ?_
    rcases Shared.mem_queue_apply he with he | he
    · exact absurd (h.2 ▸ he) List.not_mem_nil
    · exact hput h.1 e he
  refine ⟨?_, hempty⟩
  have hclosed : s.worker.queryQueue.closed = true := h.1
  cases a with
  | connectSession error => cases error <;> exact h.1
  | put e => exact absurd rfl (hput h.1 e)
  | closeAndClear => rfl
  | _ => exact h.1

namespace State

variable {C : State → Action → Prop} {s t : State}

/-- The worker thread leaves the queue closed and empty. -/
theorem closed_of_pastQueue (h : system.Reach C s) :
    s.workerPC.pastQueue = true → s.closed = true ∧ s.queue = [] := by
  refine system_invariant
    (I := fun s => s.workerPC.pastQueue = true → s.closed = true ∧ s.queue = [])
    (fun hpc => absurd hpc (by simp [WorkerPC.pastQueue])) (fun s t a hr hI _ hstep hpc => ?_) h
  cases hstep with
  | @worker c a pc hnext =>
      have hput := (WorkerPC.next_moves hnext).ne_put
      rcases WorkerPC.next_pastQueue hnext hpc with hpast | rfl | hempty
      · exact Shared.apply_closed_empty (fun _ => hput) (hI hpast)
      · exact ⟨rfl, rfl⟩
      · exact Shared.apply_closed_empty (fun _ => hput) hempty
  | @main c a pc hspawn hnext =>
      refine Shared.apply_closed_empty (fun hclosed e => ?_) (hI hpc)
      rcases MainPC.next_moves hnext with hmoves | ⟨e', -, -, hopen, -⟩
      · exact hmoves.ne_put e
      · exact absurd (hclosed.symm.trans hopen) (by simp)
  | spawn hspawn => exact absurd hpc (by simp [WorkerPC.pastQueue])
  | join _ hworker => exact hI hpc
  | call hidle hcall =>
      cases hcall with
      | @swapToFront e =>
          obtain ⟨hclosed, hempty⟩ := hI hpc
          refine ⟨(BlockingQueue.swapToFrontIf_closed _ _).trans hclosed, ?_⟩
          exact ((BlockingQueue.swapToFrontIf_perm _ _).trans (hempty ▸ List.Perm.refl _)).eq_nil
      | _ => exact hI hpc
  | connectionLost => exact hI hpc

end State

/-! ### `completeQueryWithError` -/

/-- `completeQueryWithError` makes its test for an execution that the worker thread, after
the connection attempt has failed, still has to mark finished. -/
def State.lateFallback (s : State) : Action → Bool
  | .main _ =>
      match s.mainPC with
      | .waiting e .testFinishedAgain => decide (e ∈ s.workerPC.draining)
      | _ => false
  | _ => false

/-- The condition on a step under which executions are handed over once. -/
def NoLateFallback (s : State) (a : Action) : Prop := s.lateFallback a = false

instance (s : State) (a : Action) : Decidable (NoLateFallback s a) :=
  inferInstanceAs (Decidable (_ = false))

/-- Everything that was handed over. -/
def History.handed (h : History) : List Execution := h.finished ++ h.forced ++ h.returned

namespace State

variable {s t : State}

/-- `completeQueryWithError` has not touched an accepted execution. -/
structure Unforced (s : State) : Prop where
  forced : ∀ e ∈ s.history.forced, e ∉ s.history.accepted
  forcing : ∀ e stage, s.mainPC = .waiting e stage → stage.forcing = true →
    e ∉ s.history.accepted

theorem unforced_of_reach (h : system.Reach NoLateFallback s) : s.Unforced := by
  refine system_invariant (I := Unforced) ⟨by simp, by simp⟩ (fun s t a hr hI hC hstep => ?_) h
  cases hstep with
  | @worker c a pc hnext =>
      have hacc : (s.stepWorker a pc).history.accepted = s.history.accepted :=
        Shared.apply_accepted (WorkerPC.next_moves hnext)
      refine ⟨fun e he => ?_, fun e stage hpc hst => ?_⟩
      · rw [hacc]
        refine hI.forced e ((Shared.mem_forced_apply he).resolve_right ?_)
        rintro rfl
        exact absurd (WorkerPC.next_ofMain hnext) (by simp [Access.ofMain])
      · rw [hacc]
        exact hI.forcing e stage hpc hst
  | @main c a pc hspawn hnext =>
      -- an execution is accepted at the end of `enqueueQuery`, where it is not forced yet
      have hacc : ∀ e ∈ (s.stepMain a pc).history.accepted, e ∈ s.history.accepted ∨
          pc = .idle ∧ s.mainPC = .enqueue e .put := by
        intro e he
        rcases MainPC.next_moves hnext with hmoves | ⟨e', hpc, rfl, -, rfl⟩
        · exact .inl (Shared.apply_accepted hmoves ▸ he)
        · refine (List.mem_append.1 he).imp_right fun he => ?_
          exact ⟨rfl, List.mem_singleton.1 he ▸ hpc⟩
      refine ⟨fun e he hin => ?_, fun e stage hpc hst he => ?_⟩
      · rcases Shared.mem_forced_apply he with he | rfl
        · rcases hacc e hin with hin | ⟨-, hput⟩
          · exact hI.forced e he hin
          · exact (forced_of_reach hr).enqueuing e _ hput he
        · have hwait := MainPC.next_forceFinish hnext
          rcases hacc e hin with hin | ⟨-, hput⟩
          · exact hI.forcing e _ hwait rfl hin
          · exact absurd (hwait.symm.trans hput) (by simp)
      · obtain rfl : pc = .waiting e stage := hpc
        have he := (hacc e he).resolve_right (by simp)
        obtain ⟨stage', hpc', hst' | ⟨rfl, hunfinished⟩⟩ := MainPC.next_forcing hnext hst
        · exact hI.forcing e stage' hpc' hst' he
        · have hdrain : e ∉ s.workerPC.draining := by
            simpa [NoLateFallback, lateFallback, hpc'] using hC
          have := finished_of_fallback hr hpc' he hdrain
          exact absurd (this.symm.trans hunfinished) (by simp)
  | spawn hpc => exact ⟨hI.forced, by simp⟩
  | join hpc hworker => exact ⟨hI.forced, by simp⟩
  | call hidle hcall =>
      cases hcall with
      | start => exact ⟨hI.forced, by simp⟩
      | enter hentry =>
          refine ⟨hI.forced, fun e stage hpc hst => ?_⟩
          cases hentry with
          | waiting _ =>
              obtain ⟨-, rfl⟩ : _ ∧ WaitStage.testFinished = stage := by simpa using hpc
              exact absurd hst (by simp [WaitStage.forcing])
          | _ => exact absurd hpc (by simp)
      | _ => exact ⟨hI.forced, hI.forcing⟩
  | connectionLost => exact ⟨hI.forced, hI.forcing⟩

end State

/-- **Exactly-once hand-over.**  In every run in which `completeQueryWithError` makes its test
only for what the worker thread is not still completing: an accepted execution is handed over
at most once; and once the worker thread has ended, no accepted execution is queued, and each
has been handed over exactly once, except what the main thread is about to hand over in the
operation it is in. -/
theorem handed_over_once {s : State} (h : system.Reach NoLateFallback s) {e : Execution}
    (he : e ∈ s.history.accepted) :
    s.history.handed.count e ≤ 1 ∧
      (s.workerPC = .ended → e ∉ s.queue ∧
        (e ∉ s.mainPC.holds → s.history.handed.count e = 1)) := by
  have hplace := State.accounting h e
  have haccepted : s.history.accepted.count e = 1 :=
    List.count_eq_one_of_mem (State.numbered h).nodup he
  have hforced : s.history.forced.count e = 0 :=
    List.count_eq_zero.2 fun hmem => (State.unforced_of_reach h).forced e hmem he
  have hhanded : s.history.handed.count e =
      s.history.finished.count e + s.history.returned.count e := by
    rw [History.handed, List.count_append, List.count_append, hforced, Nat.add_zero]
  refine ⟨by omega, fun hended => ?_⟩
  obtain ⟨-, hempty⟩ := State.closed_of_pastQueue h (by rw [hended]; rfl)
  refine ⟨by simp [hempty], fun hmain => ?_⟩
  have hqueue : s.queue.count e = 0 := by simp [hempty]
  have hworker : s.workerPC.holds.count e = 0 := by simp [hended, WorkerPC.holds]
  have hmain : s.mainPC.holds.count e = 0 := List.count_eq_zero.2 hmain
  omega

/-- The connection attempt fails while an execution is queued: `connectRun` takes it off the
queue to complete it with an error. -/
def failedConnectRun : List Action :=
  connectSteps ++ startSteps 0 0 ++
    [.worker .go, .worker (.connected (some "could not connect".toList))] ++ workerSteps 6

/-- `waitForQuery` comes after the worker thread has ended. -/
def waitAfterwardsRun : List Action :=
  failedConnectRun ++ workerSteps 6 ++ .call (.waitForQuery ⟨0, 0, 0⟩) :: mainSteps 1

theorem handed_over_once_waitAfterwardsRun :
    ∃ s, system.runIf NoLateFallback system.init waitAfterwardsRun = some s ∧
      s.history.handed.count ⟨0, 0, 0⟩ ≤ 1 ∧
      (s.workerPC = .ended → (⟨0, 0, 0⟩ : Execution) ∉ s.queue ∧
        ((⟨0, 0, 0⟩ : Execution) ∉ s.mainPC.holds → s.history.handed.count ⟨0, 0, 0⟩ = 1)) := by
  obtain ⟨s, hs⟩ :
      ∃ s, system.runIf NoLateFallback system.init waitAfterwardsRun = some s := ⟨_, rfl⟩
  have haccepted : (system.runIf NoLateFallback system.init waitAfterwardsRun).map
      (·.history.accepted) = some [⟨0, 0, 0⟩] := rfl
  have he : s.history.accepted = [⟨0, 0, 0⟩] := by simpa [hs] using haccepted
  exact ⟨s, hs, handed_over_once (reach_of_runIf hs) (by rw [he]; exact List.mem_singleton_self _)⟩

/-- `waitForQuery` comes while `connectRun` is completing the execution, and both put it on
`finishedQueries`. -/
def waitMeanwhileRun : List Action :=
  failedConnectRun ++ .call (.waitForQuery ⟨0, 0, 0⟩) :: mainSteps 10 ++ workerSteps 6

/-- Without the condition an accepted execution can be handed over twice. -/
theorem handed_over_twice :
    ¬ ∀ s, system.Reachable s → ∀ e ∈ s.history.accepted, s.history.handed.count e ≤ 1 := by
  intro h
  obtain ⟨s, hs⟩ : ∃ s, system.run system.init waitMeanwhileRun = some s := ⟨_, rfl⟩
  have hhistory : (system.run system.init waitMeanwhileRun).map
      (fun s => (s.history.accepted, s.history.handed)) =
        some ([⟨0, 0, 0⟩], [⟨0, 0, 0⟩, ⟨0, 0, 0⟩]) := rfl
  obtain ⟨haccepted, hhanded⟩ : s.history.accepted = [⟨0, 0, 0⟩] ∧
      s.history.handed = [⟨0, 0, 0⟩, ⟨0, 0, 0⟩] := by simpa [hs] using hhistory
  have := h s (reachable_of_run hs) ⟨0, 0, 0⟩ (by rw [haccepted]; exact List.mem_singleton_self _)
  rw [hhanded] at this
  exact absurd this (by decide)

end GmsvPg.Database
