/-
# The life of an execution

The invariants of all runs about single executions: when `waitForQuery` may fall back, what
was taken from the queue, and what is true of the data of an execution at each point of its
life.  Data is unfinished until `enqueueQuery` accepts it, `QUERY_WAITING` and unfinished
while it is queued, and unfinished while the worker thread runs it.
-/
import GmsvPg.Database.Footprint

namespace GmsvPg.Database

open Library

namespace State

variable {C : State → Action → Prop} {s t : State}

/-- `m_canWait` is set while the worker thread has not passed the store that resets it;
hence `waitForQuery` falls back only when the worker thread runs nothing any more. -/
structure CanWait (s : State) : Prop where
  worker : s.workerPC.waitable = true → s.canWait = true
  connecting : s.mainPC = .connect .storeConnecting ∨ s.mainPC = .connect .spawn →
    s.canWait = true
  fallback : ∀ e stage, s.mainPC = .waiting e stage → stage.fallback = true →
    s.workerPC.waitable = false

theorem canWait_of_reach (h : system.Reach C s) : s.CanWait := by
  refine system_invariant (I := CanWait) ⟨by simp [WorkerPC.waitable], by simp, by simp⟩
    (fun s t a hr hI _ hstep => ?_) h
  cases hstep with
  | @worker c a pc hnext =>
      refine ⟨fun hpc => ?_, fun hpc => ?_, fun e stage hpc hstage => ?_⟩
      · obtain ⟨hwaitable, hne⟩ := WorkerPC.next_waitable hnext hpc
        exact Shared.apply_canWait.2 (.inr ⟨hI.worker hwaitable, hne⟩)
      · have hstart : s.workerPC = .notStarted := by
          rcases hpc with hpc | hpc <;>
            exact ((startedOnce hr).connecting _ hpc (by simp) (by simp)).1
        rw [hstart] at hnext
        exact absurd hnext (by simp [WorkerPC.next])
      · have hfalse := hI.fallback e stage hpc hstage
        cases hpc' : pc.waitable with
        | false => exact hpc'
        | true =>
            exact absurd ((WorkerPC.next_waitable hnext hpc').1.symm.trans hfalse) (by simp)
  | @main c a pc hspawn hnext =>
      obtain ⟨hne, hstore, hspawn', hfall⟩ := MainPC.next_canWait hnext
      refine ⟨fun hpc => ?_, ?_, fun e stage hpc hstage => ?_⟩
      · exact Shared.apply_canWait.2 (.inr ⟨hI.worker hpc, hne⟩)
      · rintro (hpc | hpc)
        · exact Shared.apply_canWait.2 (.inl (hstore hpc))
        · exact Shared.apply_canWait.2 (.inr ⟨hI.connecting (.inl (hspawn' hpc)), hne⟩)
      · rcases hfall e stage hpc hstage with hfalse | ⟨stage', hpc', hstage'⟩
        · cases hwaitable : s.workerPC.waitable with
          | false => exact hwaitable
          | true => exact absurd ((hI.worker hwaitable).symm.trans hfalse) (by simp)
        · exact hI.fallback e stage' hpc' hstage'
  | spawn hpc => exact ⟨fun _ => hI.connecting (.inr hpc), by simp, by simp⟩
  | join hpc hworker => exact ⟨hI.worker, by simp, by simp⟩
  | call hidle hcall =>
      cases hcall with
      | start => exact ⟨hI.worker, by simp, by simp⟩
      | enter hentry =>
          refine ⟨hI.worker, ?_, fun e stage hpc hstage => ?_⟩
          · rintro (hpc | hpc) <;> cases hentry <;> exact absurd hpc (by simp)
          · cases hentry with
            | waiting _ =>
                obtain ⟨-, rfl⟩ : _ ∧ WaitStage.testFinished = stage := by simpa using hpc
                exact absurd hstage (by simp [WaitStage.fallback])
            | _ => exact absurd hpc (by simp)
      | _ => exact ⟨hI.worker, hI.connecting, hI.fallback⟩
  | connectionLost => exact ⟨hI.worker, hI.connecting, hI.fallback⟩

lemma pending_accepted (h : system.Reach C s) {e : Execution}
    (he : e ∈ s.workerPC.pending ∨ e ∈ s.mainPC.pending) : e ∈ s.history.accepted := by
  have hle := (handoff_valid h).exclusive
  rw [Handoff.pending, sum_thread] at hle
  refine Multiset.mem_coe.1 (Multiset.mem_of_le hle ?_)
  simp only [handoff, custody, Multiset.mem_add, Multiset.mem_coe]
  tauto

/-- An execution is in one of the three places. -/
lemma pending_exclusive (h : system.Reach C s) (e : Execution) :
    (e ∈ s.queue → e ∉ s.workerPC.pending ∧ e ∉ s.mainPC.pending) ∧
      (e ∈ s.workerPC.pending → e ∉ s.mainPC.pending) := by
  have hle := exclusion h e
  simp only [← List.count_pos_iff]
  omega

/-- An accepted execution is in one of five places. -/
lemma held_or_finished (h : system.Reach C s) {e : Execution} (he : e ∈ s.history.accepted) :
    e ∈ s.queue ∨ e ∈ s.workerPC.holds ∨ e ∈ s.mainPC.holds ∨ e ∈ s.history.finished ∨
      e ∈ s.history.returned := by
  have hplace := accounting h e
  have hpos := List.count_pos_iff.2 he
  simp only [← List.count_pos_iff]
  omega

/-- What is queued is nowhere else. -/
lemma queue_exclusive (h : system.Reach C s) {e : Execution} (he : e ∈ s.queue) :
    e ∉ s.workerPC.holds ∧ e ∉ s.mainPC.holds ∧ e ∉ s.history.finished ∧
      e ∉ s.history.returned := by
  have hplace := accounting h e
  have hnodup := List.nodup_iff_count_le_one.1 (numbered h).nodup e
  have hpos := List.count_pos_iff.2 he
  simp only [← List.count_eq_zero]
  omega

lemma notMem_accepted_of_enqueue (h : system.Reach C s) {e : Execution} {stage : EnqueueStage}
    (hpc : s.mainPC = .enqueue e stage) : e ∉ s.history.accepted :=
  fun he => lt_irrefl _ (((numbered h).enqueuing e stage hpc).2 e he)

/-- What was taken from the queue is in no other place again; it is what the worker thread
runs, what the in-flight slot holds, and what a bulk abort inspects. -/
structure Taken (s : State) : Prop where
  accepted : ∀ e ∈ s.history.taken, e ∈ s.history.accepted
  queue : ∀ e ∈ s.history.taken, e ∉ s.queue
  main : ∀ e ∈ s.history.taken, e ∉ s.mainPC.holds ∧ e ∉ s.mainPC.pending
  returned : ∀ e ∈ s.history.taken, e ∉ s.history.returned
  draining : ∀ e ∈ s.history.taken, e ∉ s.workerPC.draining
  running : ∀ e r, s.workerPC = .running e r → e ∈ s.history.taken
  inFlight : ∀ e, s.inFlight = some e → e ∈ s.history.taken
  inspected : ∀ e, s.mainPC.inspected = some e → e ∈ s.history.taken

theorem taken_of_reach (h : system.Reach C s) : s.Taken := by
  refine system_invariant (I := Taken) ⟨by simp, by simp, by simp, by simp, by simp, by simp,
    by simp, by simp [MainPC.inspected]⟩ (fun s t a hr hI _ hstep => ?_) h
  have hexcl := pending_exclusive hr
  cases hstep with
  | @worker c a pc hnext =>
      have hmoves := WorkerPC.next_moves hnext
      -- only the front of the queue is taken, and it is not in the queue twice
      have htaken : ∀ e ∈ (s.stepWorker a pc).history.taken, e ∈ s.history.taken ∨
          a = .take e ∧ pc = .running e .setInFlight ∧ e ∈ s.queue ∧
            e ∉ (s.stepWorker a pc).queue := by
        intro e he
        refine (Shared.mem_of_mem_taken_apply he).imp_right ?_
        rintro rfl
        obtain ⟨-, rfl, rest, hrest⟩ := WorkerPC.next_take hnext
        have hnodup : s.queue.Nodup :=
          Multiset.coe_nodup.1 ((handoff_valid hr).queue_nodup
            (Multiset.coe_nodup.2 (numbered hr).nodup))
        have htail : (s.stepWorker (.take e) (.running e .setInFlight)).queue = rest := by
          show s.queue.tail = rest
          rw [hrest, List.tail_cons]
        rw [htail]
        exact ⟨rfl, rfl, hrest ▸ List.mem_cons_self, (List.nodup_cons.1 (hrest ▸ hnodup)).1⟩
      have hreturned : ∀ e, e ∈ (s.stepWorker a pc).history.returned → e ∈ s.history.returned := by
        intro e he
        refine (Shared.mem_returned_apply he).resolve_right ?_
        rintro ⟨es, rfl, -⟩
        exact absurd (WorkerPC.next_ofMain hnext) (by simp [Access.ofMain])
      refine ⟨fun e he => ?_, fun e he => ?_, fun e he => ?_, fun e he hret => ?_,
        fun e he => ?_, fun e r hpc => ?_, fun e he => ?_, fun e he => ?_⟩
      · rw [show (s.stepWorker a pc).history.accepted = _ from Shared.apply_accepted hmoves]
        rcases htaken e he with he | ⟨-, -, he, -⟩
        · exact hI.accepted e he
        · exact mem_accepted hr (.inl he)
      · rcases htaken e he with he | ⟨-, -, -, he⟩
        · exact fun hq => hI.queue e he ((Shared.mem_queue_apply hq).resolve_right (hmoves.ne_put e))
        · exact he
      · rcases htaken e he with he | ⟨-, -, he, -⟩
        · exact hI.main e he
        · exact ⟨(queue_exclusive hr he).2.1, ((hexcl e).1 he).2⟩
      · rcases htaken e he with he | ⟨-, -, he, -⟩
        · exact hI.returned e he (hreturned e hret)
        · exact (queue_exclusive hr he).2.2.2 (hreturned e hret)
      · rcases htaken e he with he | ⟨-, rfl, -, -⟩
        · intro hd
          rcases WorkerPC.next_draining hnext hd with hd | hd
          · exact hI.draining e he hd
          · exact hI.queue e he hd
        · exact List.not_mem_nil
      · obtain rfl : pc = .running e r := hpc
        rcases WorkerPC.next_running hnext with ⟨r', hpc', -⟩ | ⟨-, rfl, -⟩
        · exact Shared.mem_taken_apply (hI.running e r' hpc')
        · exact List.mem_append_right _ (List.mem_singleton_self e)
      · rcases Shared.apply_inFlight he with he | rfl
        · exact Shared.mem_taken_apply (hI.inFlight e he)
        · rcases WorkerPC.next_ofRun hnext rfl with ⟨e', r, hpc, hrun⟩ | ⟨e', rest, -, ha, -⟩
          · obtain ⟨rfl, -⟩ := RunStage.next_setInFlight hrun
            exact Shared.mem_taken_apply (hI.running e r hpc)
          · exact absurd ha (by simp)
      · exact Shared.mem_taken_apply (hI.inspected e he)
  | @main c a pc hspawn hnext =>
      have hnot : ∀ e, a ≠ .take e := by
        rintro e rfl
        exact absurd (MainPC.next_ofRun hnext) (by simp [Access.ofRun])
      have htaken : ∀ e ∈ (s.stepMain a pc).history.taken, e ∈ s.history.taken := fun e he =>
        (Shared.mem_of_mem_taken_apply he).resolve_right (hnot e)
      refine ⟨fun e he => ?_, fun e he hq => ?_, fun e he => ⟨fun hl => ?_, fun hp => ?_⟩,
        fun e he hret => ?_, fun e he => ?_, fun e r hpc => ?_, fun e he => ?_, fun e he => ?_⟩
      · have hacc := hI.accepted e (htaken e he)
        rcases MainPC.next_moves hnext with hmoves | ⟨e', -, rfl, -, -⟩
        · exact (Shared.apply_accepted hmoves).symm ▸ hacc
        · exact List.mem_append_left _ hacc
      · rcases Shared.mem_queue_apply hq with hq | rfl
        · exact hI.queue e (htaken e he) hq
        · rcases MainPC.next_moves hnext with hmoves | ⟨e', hpc, he', -, -⟩
          · exact absurd rfl (hmoves.ne_put e)
          · obtain rfl : e = e' := by simpa using he'
            exact notMem_accepted_of_enqueue hr hpc (hI.accepted e (htaken e he))
      · rcases MainPC.next_moves hnext with hmoves | ⟨e', -, -, -, rfl⟩
        · rcases hmoves.mem_holds hl with hl | hq
          · exact (hI.main e (htaken e he)).1 hl
          · exact hI.queue e (htaken e he) hq
        · exact absurd hl List.not_mem_nil
      · rcases MainPC.next_moves hnext with hmoves | ⟨e', -, -, -, rfl⟩
        · rcases hmoves.mem_pending hp with hp | hq
          · exact (hI.main e (htaken e he)).2 hp
          · exact hI.queue e (htaken e he) hq
        · exact absurd hp List.not_mem_nil
      · rcases Shared.mem_returned_apply hret with hret | ⟨es, rfl, hes⟩
        · exact hI.returned e (htaken e he) hret
        · have hmoves := (MainPC.next_moves hnext).resolve_right (by simp)
          exact (hI.main e (htaken e he)).1 (hmoves.returned_holds hes)
      · exact hI.draining e (htaken e he)
      · exact Shared.mem_taken_apply (hI.running e r hpc)
      · rcases Shared.apply_inFlight he with he | rfl
        · exact Shared.mem_taken_apply (hI.inFlight e he)
        · exact absurd (MainPC.next_ofRun hnext) (by simp [Access.ofRun])
      · rcases MainPC.next_inspected hnext he with he | he
        · exact Shared.mem_taken_apply (hI.inspected e he)
        · exact Shared.mem_taken_apply (hI.inFlight e he)
  | spawn hpc =>
      exact ⟨hI.accepted, hI.queue, by simp [MainPC.holds, MainPC.pending], hI.returned,
        by simp [WorkerPC.draining], by simp, hI.inFlight, by simp [MainPC.inspected]⟩
  | join hpc hworker =>
      exact ⟨hI.accepted, hI.queue, by simp [MainPC.holds, MainPC.pending], hI.returned,
        hI.draining, hI.running, hI.inFlight, by simp [MainPC.inspected]⟩
  | call hidle hcall =>
      cases hcall with
      | start =>
          exact ⟨hI.accepted, hI.queue, by simp [MainPC.holds, MainPC.pending], hI.returned,
            hI.draining, hI.running, hI.inFlight, by simp [MainPC.inspected]⟩
      | enter hentry =>
          refine ⟨hI.accepted, hI.queue, fun e he => ?_, hI.returned, hI.draining, hI.running,
            hI.inFlight, fun e he => ?_⟩
          · cases hentry <;> exact ⟨List.not_mem_nil, List.not_mem_nil⟩
          · cases hentry <;> exact absurd he (by simp [MainPC.inspected])
      | @swapToFront e =>
          refine ⟨hI.accepted, fun x hx hq => ?_, hI.main, hI.returned, hI.draining, hI.running,
            hI.inFlight, hI.inspected⟩
          exact hI.queue x hx ((BlockingQueue.swapToFrontIf_perm _ _).mem_iff.1 hq)
      | _ =>
          exact ⟨hI.accepted, hI.queue, hI.main, hI.returned, hI.draining, hI.running, hI.inFlight,
            hI.inspected⟩
  | connectionLost =>
      exact ⟨hI.accepted, hI.queue, hI.main, hI.returned, hI.draining, hI.running, hI.inFlight,
        hI.inspected⟩

/-- What is true of the data of an execution at the points of its life. -/
structure Fresh (s : State) : Prop where
  /-- only data that was built is finished -/
  built : ∀ e, (s.own e).finished = true → s.built e
  waiting : ∀ e stage, s.mainPC = .waiting e stage → s.built e
  enqueuing : ∀ e stage, s.mainPC = .enqueue e stage → (s.own e).finished = false
  put : ∀ e, s.mainPC = .enqueue e .put → (s.own e).status = .waiting
  queued : ∀ e ∈ s.queue, (s.own e).finished = false ∧ (s.own e).status = .waiting
  running : ∀ e r, s.workerPC = .running e r → r.settled = false → (s.own e).finished = false
  aborting : ∀ e stage, s.mainPC = .abort e stage → stage.pastQueue = true → e ∉ s.queue
  fallback : ∀ e stage, s.mainPC = .waiting e stage → stage.pastQueue = true → e ∉ s.queue

/-- The main thread marks only what is not queued. -/
lemma notMem_queue_of_marking (h : system.Reach C s)
    (habort : ∀ e stage, s.mainPC = .abort e stage → stage.pastQueue = true → e ∉ s.queue)
    {e : Execution} (he : s.mainPC.marking e = true) : e ∉ s.queue := by
  have hinspected : s.mainPC.inspected = some e → e ∉ s.queue := fun hsome =>
    (taken_of_reach h).queue e ((taken_of_reach h).inspected e hsome)
  cases hpc : s.mainPC with
  | abort e' stage => cases stage with
      | storeAborted =>
          obtain rfl : e' = e := by simpa [hpc, MainPC.marking] using he
          exact habort e' _ hpc rfl
      | _ => exact absurd he (by simp [hpc, MainPC.marking])
  | abortAll stage g => cases stage with
      | storeInFlight e' =>
          obtain rfl : e' = e := by simpa [hpc, MainPC.marking] using he
          exact hinspected (by rw [hpc]; rfl)
      | _ => exact absurd he (by simp [hpc, MainPC.marking])
  | shutdown stage join g => cases stage with
      | storeInFlight e' =>
          obtain rfl : e' = e := by simpa [hpc, MainPC.marking] using he
          exact hinspected (by rw [hpc]; rfl)
      | _ => exact absurd he (by simp [hpc, MainPC.marking])
  | _ => exact absurd he (by simp [hpc, MainPC.marking])

theorem fresh_of_reach (h : system.Reach C s) : s.Fresh := by
  refine system_invariant (I := Fresh) ⟨by simp [Shared.own], by simp, by simp, by simp,
    by simp [Shared.queue], by simp, by simp, by simp⟩ (fun s t a hr hI _ hstep => ?_) h
  have hexcl := pending_exclusive hr
  have hacc := fun e => pending_accepted hr (e := e)
  cases hstep with
  | @worker c a pc hnext =>
      have hmoves := WorkerPC.next_moves hnext
      have hqueue : ∀ e, e ∈ (s.stepWorker a pc).queue → e ∈ s.queue := fun e he =>
        (Shared.mem_queue_apply he).resolve_right (hmoves.ne_put e)
      -- what the worker thread does not have in its hands keeps its status and its flag
      have hnone : ∀ e, e ∉ s.workerPC.pending → a.statusStore e = none ∧ a ≠ .setFinished e := by
        intro e he
        by_contra hstore
        exact he (WorkerPC.next_stores hnext (by tauto))
      have henqueue : ∀ e stage, s.mainPC = .enqueue e stage → e ∉ s.workerPC.pending :=
        fun e stage hpc hmem => notMem_accepted_of_enqueue hr hpc (hacc e (.inl hmem))
      refine ⟨fun e he => ?_, hI.waiting, fun e stage hpc => ?_, fun e hpc => ?_,
        fun e he => ?_, fun e r hpc hr' => ?_, fun e stage hpc hst he => ?_,
        fun e stage hpc hst he => ?_⟩
      · rcases Shared.apply_finished.1 he with he | rfl
        · exact hI.built e he
        · exact (numbered hr).built e (hacc e (.inl (WorkerPC.next_stores hnext (.inr rfl))))
      · exact Shared.apply_unfinished (hI.enqueuing e stage hpc) (hnone e (henqueue e stage hpc)).2
      · exact (Shared.apply_status_of_none (hnone e (henqueue e _ hpc)).1).trans (hI.put e hpc)
      · obtain ⟨hstatus, hfinished⟩ := hnone e ((hexcl e).1 (hqueue e he)).1
        obtain ⟨hf, hs⟩ := hI.queued e (hqueue e he)
        exact ⟨Shared.apply_unfinished hf hfinished,
          (Shared.apply_status_of_none hstatus).trans hs⟩
      · obtain rfl : pc = .running e r := hpc
        rcases WorkerPC.next_running hnext with ⟨r', hpc', hrun⟩ | ⟨-, rfl, -, rest, hrest⟩
        · obtain ⟨hset, hne⟩ := RunStage.next_settled hrun hr'
          exact Shared.apply_unfinished (hI.running e r' hpc' hset) hne
        · exact (hI.queued e (hrest ▸ List.mem_cons_self)).1
      · exact hI.aborting e stage hpc hst (hqueue e he)
      · exact hI.fallback e stage hpc hst (hqueue e he)
  | @main c a pc hspawn hnext =>
      -- the main thread stores nothing in what is queued, or finished in what is running
      have hqueued : ∀ e ∈ s.queue, a.statusStore e = none ∧ a ≠ .setFinished e := by
        intro e he
        by_contra hstore
        have hout := mem_accepted hr (.inl he)
        rcases MainPC.next_stores (e := e) hnext (by tauto) with h1 | ⟨h1, -⟩ | ⟨h1, -⟩ |
          ⟨h1, -⟩ | ⟨h1, -⟩ | ⟨h1, -⟩ | ⟨h1, -⟩
        · exact ((hexcl e).1 he).2 h1
        · exact notMem_accepted_of_enqueue hr h1 hout
        · exact notMem_accepted_of_enqueue hr h1 hout
        · exact notMem_accepted_of_enqueue hr h1 hout
        · exact hI.fallback e _ h1 rfl he
        · exact hI.fallback e _ h1 rfl he
        · exact notMem_queue_of_marking hr hI.aborting h1 he
      have hrunning : ∀ e r, s.workerPC = .running e r → r.settled = false →
          a ≠ .setFinished e := by
        rintro e r hpc hset rfl
        have hpending : e ∈ s.workerPC.pending := by simp [hpc, WorkerPC.pending, hset]
        rcases MainPC.next_stores hnext (.inr rfl) with h1 | ⟨h1, -⟩ | ⟨h1, -⟩ |
          ⟨h1, -⟩ | ⟨h1, -⟩ | ⟨h1, -⟩ | ⟨h1, h2⟩
        · exact (hexcl e).2 hpending h1
        · exact notMem_accepted_of_enqueue hr h1 (hacc e (.inl hpending))
        · exact notMem_accepted_of_enqueue hr h1 (hacc e (.inl hpending))
        · exact notMem_accepted_of_enqueue hr h1 (hacc e (.inl hpending))
        · have := (canWait_of_reach hr).fallback e _ h1 rfl
          exact absurd this (by simp [hpc, WorkerPC.waitable])
        · have := (canWait_of_reach hr).fallback e _ h1 rfl
          exact absurd this (by simp [hpc, WorkerPC.waitable])
        · exact absurd h2 (by simp)
      refine ⟨fun e he => ?_, fun e stage hpc => ?_, fun e stage hpc => ?_, fun e hpc => ?_,
        fun e he => ?_, fun e r hpc hr' => ?_, fun e stage hpc hst he => ?_,
        fun e stage hpc hst he => ?_⟩
      · rcases Shared.apply_finished.1 he with he | rfl
        · exact hI.built e he
        · rcases MainPC.next_stores hnext (.inr rfl) with h1 | ⟨h1, h2⟩ | ⟨h1, h2⟩ |
            ⟨h1, -⟩ | ⟨h1, h2⟩ | ⟨h1, -⟩ | ⟨h1, h2⟩
          · exact (numbered hr).built e (hacc e (.inr h1))
          · exact absurd h2 (by simp)
          · exact absurd h2 (by simp)
          · exact ((numbered hr).enqueuing e _ h1).1
          · exact absurd h2 (by simp)
          · exact hI.waiting e _ h1
          · exact absurd h2 (by simp)
      · obtain rfl : pc = .waiting e stage := hpc
        obtain ⟨stage', hpc'⟩ := MainPC.next_source hnext
        exact hI.waiting e stage' hpc'
      · obtain rfl : pc = .enqueue e stage := hpc
        obtain ⟨stage', hpc'⟩ := MainPC.next_source hnext
        refine Shared.apply_unfinished (hI.enqueuing e stage' hpc') ?_
        rintro rfl
        rw [hpc'] at hnext
        cases stage' <;> simp only [MainPC.next, EnqueueStage.next] at hnext <;> grind
      · obtain rfl : pc = .enqueue e .put := hpc
        obtain ⟨stage', hpc'⟩ := MainPC.next_source hnext
        rw [hpc'] at hnext
        obtain rfl : a = .setStatus e .waiting := by
          cases stage' <;> simp only [MainPC.next, EnqueueStage.next] at hnext <;> grind
        show ((s.toShared.apply (.setStatus e .waiting)).own e).status = .waiting
        rw [Shared.apply_status, Access.statusStore, if_pos rfl]
        rfl
      · rcases Shared.mem_queue_apply he with he | rfl
        · obtain ⟨hstatus, hfinished⟩ := hqueued e he
          obtain ⟨hf, hs⟩ := hI.queued e he
          exact ⟨Shared.apply_unfinished hf hfinished,
            (Shared.apply_status_of_none hstatus).trans hs⟩
        · rcases MainPC.next_moves hnext with hmoves | ⟨e', hpc, he', -, -⟩
          · exact absurd rfl (hmoves.ne_put e)
          · obtain rfl : e = e' := by simpa using he'
            exact ⟨hI.enqueuing e _ hpc, hI.put e hpc⟩
      · exact Shared.apply_unfinished (hI.running e r hpc hr') (hrunning e r hpc hr')
      · obtain rfl : pc = .abort e stage := hpc
        obtain ⟨stage', hpc', hpast⟩ := MainPC.next_abort_pastQueue hnext hst
        have he := (Shared.mem_queue_apply he).resolve_right (MainPC.next_ne_put hnext (by simp) e)
        rcases hpast with hpast | hpast
        · exact hI.aborting e stage' hpc' hpast he
        · exact hpast he
      · obtain rfl : pc = .waiting e stage := hpc
        obtain ⟨stage', hpc', hpast⟩ := MainPC.next_waiting_pastQueue hnext hst
        have he := (Shared.mem_queue_apply he).resolve_right (MainPC.next_ne_put hnext (by simp) e)
        rcases hpast with hpast | hpast | hpast
        · exact hI.fallback e stage' hpc' hpast he
        · exact hpast he
        · exact hpast (hI.queued e he).2
  | spawn hpc =>
      exact ⟨hI.built, by simp, by simp, by simp, hI.queued, by simp, by simp, by simp⟩
  | join hpc hworker =>
      exact ⟨hI.built, by simp, by simp, by simp, hI.queued, hI.running, by simp, by simp⟩
  | call hidle hcall =>
      cases hcall with
      | @start query children =>
          refine ⟨fun e he => (hI.built e he).trans (Nat.lt_succ_self _), by simp,
            fun e stage hpc => ?_, by simp, hI.queued, hI.running, by simp, by simp⟩
          obtain ⟨rfl, -⟩ : s.newExecution query children = e ∧ _ := by simpa using hpc
          exact Bool.eq_false_iff.2 fun hf => lt_irrefl _ (hI.built _ hf)
      | enter hentry =>
          refine ⟨hI.built, fun e stage hpc => ?_, fun e stage hpc => ?_, fun e hpc => ?_,
            hI.queued, hI.running, fun e stage hpc hst => ?_, fun e stage hpc hst => ?_⟩
          · cases hentry with
            | waiting hbuilt =>
                obtain ⟨rfl, -⟩ : _ = e ∧ _ := by simpa using hpc
                exact hbuilt
            | _ => exact absurd hpc (by simp)
          · cases hentry <;> exact absurd hpc (by simp)
          · cases hentry <;> exact absurd hpc (by simp)
          · cases hentry with
            | abort _ =>
                obtain ⟨-, rfl⟩ : _ ∧ AbortStage.removeQueued = stage := by simpa using hpc
                exact absurd hst (by simp [AbortStage.pastQueue])
            | _ => exact absurd hpc (by simp)
          · cases hentry with
            | waiting _ =>
                obtain ⟨-, rfl⟩ : _ ∧ WaitStage.testFinished = stage := by simpa using hpc
                exact absurd hst (by simp [WaitStage.pastQueue])
            | _ => exact absurd hpc (by simp)
      | @swapToFront e =>
          have hmem : ∀ x, x ∈ (s.worker.queryQueue.swapToFrontIf fun x => decide (x = e)).1.backingQueue
              → x ∈ s.queue := fun x hx => (BlockingQueue.swapToFrontIf_perm _ _).mem_iff.1 hx
          refine ⟨hI.built, hI.waiting, hI.enqueuing, hI.put, fun x hx => hI.queued x (hmem x hx),
            hI.running, fun x stage hpc hst hx => hI.aborting x stage hpc hst (hmem x hx),
            fun x stage hpc hst hx => hI.fallback x stage hpc hst (hmem x hx)⟩
      | _ =>
          exact ⟨hI.built, hI.waiting, hI.enqueuing, hI.put, hI.queued, hI.running, hI.aborting,
            hI.fallback⟩
  | connectionLost => exact ⟨hI.built, hI.waiting, hI.enqueuing, hI.put, hI.queued, hI.running, hI.aborting, hI.fallback⟩

end State

end GmsvPg.Database
