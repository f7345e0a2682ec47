/-
# What is delivered

`finishedQueries` is filled by the threads that have an execution in their hands, and by
`completeQueryWithError`, and emptied by `takeFinishedQueries`.  This file accounts for what
was put there, and shows that `completeQueryWithError` never touches an execution that is
queued or was taken by the loop of `run`.
-/
import GmsvPg.Database.Lifecycle

namespace GmsvPg.Database

open Library

lemma Shared.mem_forced_apply {s : Shared} {a : Access} {e : Execution}
    (h : e ∈ (s.apply a).history.forced) : e ∈ s.history.forced ∨ a = .forceFinish e := by
  cases a with
  | connectSession error => cases error <;> exact .inl h
  | forceFinish e' => exact (List.mem_append.1 h).imp_right fun h => by simp_all
  | _ => exact .inl h

lemma Shared.apply_finishedQueries {s : Shared} {a : Access}
    (hopen : s.worker.finishedQueries.closed = false) :
    (s.apply a).worker.finishedQueries.closed = false ∧
      (s.apply a).history.delivered = s.history.delivered ∧
      ∀ l : List Execution, (l ++ s.worker.finishedQueries.backingQueue).Perm
          (s.history.finished ++ s.history.forced) →
        (l ++ (s.apply a).worker.finishedQueries.backingQueue).Perm
          ((s.apply a).history.finished ++ (s.apply a).history.forced) := by
  cases a with
  | connectSession error => cases error <;> exact ⟨hopen, rfl, fun _ h => h⟩
  | finish e =>
      refine ⟨?_, rfl, fun l h => ?_⟩
      · simp [apply, putFinished, record, BlockingQueue.put, hopen]
      · simp only [apply, putFinished, record, BlockingQueue.put, hopen]
        calc l ++ (s.worker.finishedQueries.backingQueue ++ [e])
          _ = l ++ s.worker.finishedQueries.backingQueue ++ [e] := (List.append_assoc ..).symm
          _ |>.Perm (s.history.finished ++ s.history.forced ++ [e]) := h.append_right _
          _ |>.Perm (s.history.finished ++ [e] ++ s.history.forced) := by
              rw [List.append_assoc, List.append_assoc]
              exact List.perm_append_comm.append_left _
  | forceFinish e =>
      refine ⟨?_, rfl, fun l h => ?_⟩
      · simp [apply, putFinished, record, BlockingQueue.put, hopen]
      · simp only [apply, putFinished, record, BlockingQueue.put, hopen]
        calc l ++ (s.worker.finishedQueries.backingQueue ++ [e])
          _ = l ++ s.worker.finishedQueries.backingQueue ++ [e] := (List.append_assoc ..).symm
          _ |>.Perm (s.history.finished ++ s.history.forced ++ [e]) := h.append_right _
          _ = s.history.finished ++ (s.history.forced ++ [e]) := List.append_assoc ..
  | _ => exact ⟨hopen, rfl, fun _ h => h⟩

namespace State

variable {C : State → Action → Prop} {s t : State}

/-- Where executions go that were put on `finishedQueries`. -/
structure Delivered (s : State) : Prop where
  opened : s.worker.finishedQueries.closed = false
  perm : (s.history.delivered.map Prod.fst ++ s.worker.finishedQueries.backingQueue).Perm
    (s.history.finished ++ s.history.forced)

theorem delivered_of_reach (h : system.Reach C s) : s.Delivered := by
  refine system_invariant (I := Delivered) ⟨rfl, List.Perm.refl _⟩
    (fun s t a hr hI _ hstep => ?_) h
  cases hstep with
  | @worker c a pc hnext =>
      obtain ⟨hopen, hdelivered, hperm⟩ := Shared.apply_finishedQueries (a := a) hI.opened
      refine ⟨hopen, ?_⟩
      rw [show (s.stepWorker a pc).history.delivered = _ from hdelivered]
      exact hperm _ hI.perm
  | @main c a pc hspawn hnext =>
      obtain ⟨hopen, hdelivered, hperm⟩ := Shared.apply_finishedQueries (a := a) hI.opened
      refine ⟨hopen, ?_⟩
      rw [show (s.stepMain a pc).history.delivered = _ from hdelivered]
      exact hperm _ hI.perm
  | spawn hpc => exact ⟨hI.opened, hI.perm⟩
  | join hpc hworker => exact ⟨hI.opened, hI.perm⟩
  | call hidle hcall =>
      cases hcall with
      | takeFinished =>
          refine ⟨hI.opened, ?_⟩
          have hall : s.takeFinished.history.delivered.map Prod.fst ++
              s.takeFinished.worker.finishedQueries.backingQueue =
                s.history.delivered.map Prod.fst ++ s.worker.finishedQueries.backingQueue := by
            simp [takeFinished, BlockingQueue.clear, Function.comp_def]
          rw [hall]
          exact hI.perm
      | _ => exact ⟨hI.opened, hI.perm⟩
  | connectionLost => exact ⟨hI.opened, hI.perm⟩

/-- At its second test, `waitForQuery` finds an accepted execution finished, unless the worker
thread is still completing it. -/
lemma finished_of_fallback (h : system.Reach C s) {e : Execution}
    (hpc : s.mainPC = .waiting e .testFinishedAgain) (he : e ∈ s.history.accepted)
    (hdrain : e ∉ s.workerPC.draining) : (s.own e).finished = true := by
  rcases unsettled h he with hqueue | hworker | hmain | hfinished
  · exact absurd hqueue ((fresh_of_reach h).fallback e _ hpc rfl)
  · have hwaitable := (canWait_of_reach h).fallback e _ hpc rfl
    cases hw : s.workerPC with
    | connecting stage =>
        cases stage with
        | drain e' stage rest reason => exact absurd hworker (hw ▸ hdrain)
        | _ => exact absurd (hw ▸ hworker) List.not_mem_nil
    | running e' r => exact absurd (hw ▸ hwaitable) (by simp [WorkerPC.waitable])
    | _ => exact absurd (hw ▸ hworker) List.not_mem_nil
  · exact absurd (hpc ▸ hmain) List.not_mem_nil
  · exact hfinished

/-- `completeQueryWithError` has not touched what is queued or was taken. -/
structure Forced (s : State) : Prop where
  forced : ∀ e ∈ s.history.forced, s.built e ∧ e ∉ s.queue ∧ e ∉ s.history.taken
  enqueuing : ∀ e stage, s.mainPC = .enqueue e stage → e ∉ s.history.forced
  forcing : ∀ e stage, s.mainPC = .waiting e stage → stage.forcing = true →
    e ∉ s.history.taken

theorem forced_of_reach (h : system.Reach C s) : s.Forced := by
  refine system_invariant (I := Forced) ⟨by simp, by simp, by simp⟩
    (fun s t a hr hI _ hstep => ?_) h
  cases hstep with
  | @worker c a pc hnext =>
      have hmoves := WorkerPC.next_moves hnext
      have hforced : ∀ e ∈ (s.stepWorker a pc).history.forced, e ∈ s.history.forced := by
        intro e he
        refine (Shared.mem_forced_apply he).resolve_right ?_
        rintro rfl
        exact absurd (WorkerPC.next_ofMain hnext) (by simp [Access.ofMain])
      refine ⟨fun e he => ⟨?_, ?_, ?_⟩, fun e stage hpc he => ?_, fun e stage hpc hst he => ?_⟩
      · exact (hI.forced e (hforced e he)).1
      · exact fun hq => (hI.forced e (hforced e he)).2.1
          ((Shared.mem_queue_apply hq).resolve_right (hmoves.ne_put e))
      · intro ht
        obtain ⟨-, hqueue, htaken⟩ := hI.forced e (hforced e he)
        rcases Shared.mem_of_mem_taken_apply ht with ht | rfl
        · exact htaken ht
        · obtain ⟨-, -, rest, hrest⟩ := WorkerPC.next_take hnext
          exact hqueue (hrest ▸ List.mem_cons_self)
      · exact hI.enqueuing e stage hpc (hforced e he)
      · rcases Shared.mem_of_mem_taken_apply he with he | rfl
        · exact hI.forcing e stage hpc hst he
        · have hfallback : stage.fallback = true := by cases stage <;> simp_all [WaitStage.forcing, WaitStage.fallback]
          have := (canWait_of_reach hr).fallback e stage hpc hfallback
          rw [(WorkerPC.next_take hnext).1] at this
          exact absurd this (by simp [WorkerPC.waitable])
  | @main c a pc hspawn hnext =>
      have htaken : ∀ e ∈ (s.stepMain a pc).history.taken, e ∈ s.history.taken := by
        intro e he
        refine (Shared.mem_of_mem_taken_apply he).resolve_right ?_
        rintro rfl
        exact absurd (MainPC.next_ofRun hnext) (by simp [Access.ofRun])
      refine ⟨fun e he => ?_, fun e stage hpc he => ?_, fun e stage hpc hst he => ?_⟩
      · rcases Shared.mem_forced_apply he with he | rfl
        · obtain ⟨hbuilt, hqueue, hout⟩ := hI.forced e he
          refine ⟨hbuilt, fun hq => ?_, fun ht => hout (htaken e ht)⟩
          rcases Shared.mem_queue_apply hq with hq | rfl
          · exact hqueue hq
          · rcases MainPC.next_moves hnext with hmoves | ⟨e', hpc, he', -, -⟩
            · exact hmoves.ne_put e rfl
            · obtain rfl : e = e' := by simpa using he'
              exact hI.enqueuing e _ hpc he
        · have hwait := MainPC.next_forceFinish hnext
          refine ⟨(fresh_of_reach hr).waiting e _ hwait, fun hq => ?_, fun ht => ?_⟩
          · exact (fresh_of_reach hr).fallback e _ hwait rfl
              ((Shared.mem_queue_apply hq).resolve_right (by simp))
          · exact hI.forcing e _ hwait rfl (htaken e ht)
      · obtain rfl : pc = .enqueue e stage := hpc
        obtain ⟨stage', hpc'⟩ := MainPC.next_source hnext
        rcases Shared.mem_forced_apply he with he | rfl
        · exact hI.enqueuing e stage' hpc' he
        · exact absurd (MainPC.next_forceFinish hnext) (by simp [hpc'])
      · obtain rfl : pc = .waiting e stage := hpc
        have he := htaken e he
        obtain ⟨stage', hpc', hst' | ⟨rfl, hunfinished⟩⟩ := MainPC.next_forcing hnext hst
        · exact hI.forcing e stage' hpc' hst' he
        · have := finished_of_fallback hr hpc' ((taken_of_reach hr).accepted e he)
            ((taken_of_reach hr).draining e he)
          exact absurd (this.symm.trans hunfinished) (by simp)
  | spawn hpc => exact ⟨hI.forced, by simp, by simp⟩
  | join hpc hworker => exact ⟨hI.forced, by simp, by simp⟩
  | call hidle hcall =>
      cases hcall with
      | @start query children =>
          refine ⟨fun e he => ?_, fun e stage hpc he => ?_, by simp⟩
          · exact ⟨(hI.forced e he).1.trans (Nat.lt_succ_self _), (hI.forced e he).2⟩
          · obtain ⟨rfl, -⟩ : s.newExecution query children = e ∧ _ := by simpa using hpc
            exact lt_irrefl _ (hI.forced _ he).1
      | enter hentry =>
          refine ⟨hI.forced, fun e stage hpc => ?_, fun e stage hpc hst => ?_⟩
          · cases hentry <;> exact absurd hpc (by simp)
          · cases hentry with
            | waiting _ =>
                obtain ⟨-, rfl⟩ : _ ∧ WaitStage.testFinished = stage := by simpa using hpc
                exact absurd hst (by simp [WaitStage.forcing])
            | _ => exact absurd hpc (by simp)
      | @swapToFront e =>
          refine ⟨fun x hx => ?_, hI.enqueuing, hI.forcing⟩
          obtain ⟨hbuilt, hqueue, htaken⟩ := hI.forced x hx
          exact ⟨hbuilt, fun hq => hqueue ((BlockingQueue.swapToFrontIf_perm _ _).mem_iff.1 hq),
            htaken⟩
      | _ => exact ⟨hI.forced, hI.enqueuing, hI.forcing⟩
  | connectionLost => exact ⟨hI.forced, hI.enqueuing, hI.forcing⟩

end State

end GmsvPg.Database
