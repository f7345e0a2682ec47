/-
# Outcomes are final

The status, the result status and the error of an execution are stored by the thread that has it
in its hands, in several steps, and read by the main thread in several more, without a mutex.
This file shows that no store follows the hand-over, but for the two known ones: of an abort
that has loaded `QUERY_WAITING` before, and of `completeQueryWithError`.  So what the callback
of an execution is told is its outcome for good.
-/
import GmsvPg.Database.Abort
import GmsvPg.Database.Settled
import GmsvPg.Library.Termination

namespace GmsvPg.Database

open Library Machine

/-! ### Who stores an outcome -/

/-- What the Lua side reads of an execution that was handed over. -/
def Shared.outcome (s : Shared) (e : Execution) : QueryStatus × QueryResultStatus × Text :=
  ((s.own e).status, (s.own e).resultStatus, (s.own e).errorText)

/-- The accesses that store a part of the outcome of an execution. -/
def Access.storesOutcome (e : Execution) : Access → Bool
  | .setStatus x _ | .setResultStatus x _ | .setError x _ | .markAborted x | .setCancelled x =>
      decide (x = e)
  | _ => false

lemma Shared.outcome_apply {s : Shared} {a : Access} {e : Execution}
    (h : a.storesOutcome e = false) : (s.apply a).outcome e = s.outcome e := by
  cases a with
  | connectSession error => cases error <;> rfl
  | setStatus x v | setResultStatus x v | setError x text | markAborted x | setCancelled x =>
      have hne : DataId.own e ≠ .own x := fun heq =>
        of_decide_eq_false h (DataId.own.inj heq).symm
      simp [outcome, apply, own, modifyData, record, Function.update_of_ne hne]
  | setFinished x | setCancellationRequested x v =>
      simp only [outcome, apply, own_modifyData]
      split <;> rfl
  | _ => rfl

/-- The worker thread stores the outcome of what it has not yet handed over. -/
lemma WorkerPC.next_storesOutcome {s : Shared} {c : Choice} {pc pc' : WorkerPC} {a : Access}
    {e : Execution} (h : pc.next s c = some (a, pc')) (ha : a.storesOutcome e = true) :
    e ∈ pc.holds := by
  cases pc with
  | connecting stage =>
      cases stage with
      | drain e' stage rest reason =>
          cases stage <;> simp only [WorkerPC.next, ConnectStage.next, CompleteStage.next] at h
          all_goals grind [Access.storesOutcome, WorkerPC.holds]
      | _ =>
          simp only [WorkerPC.next, ConnectStage.next] at h
          repeat' split at h
          all_goals grind [Access.storesOutcome, WorkerPC.holds]
  | taking =>
      simp only [WorkerPC.next] at h
      grind [Access.storesOutcome]
  | running e' r =>
      cases r <;> simp only [WorkerPC.next, RunStage.next] at h
      all_goals repeat' split at h
      all_goals grind [Access.storesOutcome, WorkerPC.holds, RunStage.handedOver,
        ReconnectStage.next_access]
  | leaving stage =>
      cases stage <;> simp only [WorkerPC.next, LeaveStage.next] at h
      all_goals grind [Access.storesOutcome]
  | notStarted | ended => exact absurd h (by simp [WorkerPC.next])

/-- The main thread stores the outcome of what it has not yet handed over, of what it is about
to enqueue, of what it can not wait for, and of what it aborts. -/
lemma MainPC.next_storesOutcome {s : Shared} {c : Choice} {pc pc' : MainPC} {a : Access}
    {e : Execution} (h : pc.next s c = some (a, pc')) (ha : a.storesOutcome e = true) :
    e ∈ pc.holds ∨ (∃ stage, pc = .enqueue e stage) ∨
      (∃ stage, pc = .waiting e stage ∧ stage.forcing = true) ∨ pc.marking e = true := by
  cases pc with
  | enqueue e' stage =>
      cases stage <;> simp only [MainPC.next, EnqueueStage.next] at h
      all_goals grind [Access.storesOutcome]
  | abort e' stage =>
      cases stage <;> simp only [MainPC.next, AbortStage.next] at h
      all_goals grind [Access.storesOutcome, MainPC.holds, MainPC.marking]
  | cancel d stage caller =>
      cases stage <;> simp only [MainPC.next, CancelStage.next] at h
      all_goals repeat' split at h
      all_goals grind [Access.storesOutcome]
  | abortAll stage g =>
      cases stage <;> simp only [MainPC.next, AbortAllStage.next] at h
      all_goals grind [Access.storesOutcome, MainPC.holds, MainPC.marking]
  | shutdown stage join g =>
      cases stage <;> simp only [MainPC.next, ShutdownStage.next] at h
      all_goals grind [Access.storesOutcome, MainPC.holds, MainPC.marking]
  | waiting e' stage =>
      cases stage with
      | complete stage =>
          cases stage <;> simp only [MainPC.next, WaitStage.next, CompleteStage.next] at h
          all_goals grind [Access.storesOutcome, MainPC.holds]
      | _ =>
          simp only [MainPC.next, WaitStage.next] at h
          grind [Access.storesOutcome, WaitStage.forcing]
  | ping stage =>
      cases stage <;> simp only [MainPC.next, PingStage.next] at h
      all_goals repeat' split at h
      all_goals grind [Access.storesOutcome, ReconnectStage.next_access]
  | connect stage =>
      cases stage <;> simp only [MainPC.next, ConnectCallStage.next] at h
      all_goals grind [Access.storesOutcome]
  | idle | joining => exact absurd h (by simp [MainPC.next])

/-! ### After the hand-over -/

/-- An abort marks an execution that was handed over since it has loaded `QUERY_WAITING`. -/
def State.lateAbort (s : State) : Action → Bool
  | .main _ =>
      match s.mainPC with
      | .abort e .storeAborted | .abortAll (.storeInFlight e) _
      | .shutdown (.storeInFlight e) _ _ => decide (e ∈ s.history.handed)
      | _ => false
  | _ => false

/-- The condition on a step under which outcomes are final. -/
def Punctual (s : State) (a : Action) : Prop := NoLateFallback s a ∧ s.lateAbort a = false

instance (s : State) (a : Action) : Decidable (Punctual s a) :=
  inferInstanceAs (Decidable (_ ∧ _ = false))

lemma Punctual.notMem_handed {s : State} {c : Choice} (h : Punctual s (.main c))
    {e : Execution} (he : s.mainPC.marking e = true) : e ∉ s.history.handed := by
  have hlate := h.2
  unfold State.lateAbort at hlate
  unfold MainPC.marking at he
  split at he <;> simp_all

namespace State

variable {C : State → Action → Prop} {s t : State}

/-- An execution that was handed over is in nobody's hands. -/
lemma notMem_holds_of_handed (h : system.Reach NoLateFallback s) {e : Execution}
    (he : e ∈ s.history.accepted) (hhanded : e ∈ s.history.handed) :
    e ∉ s.workerPC.holds ∧ e ∉ s.mainPC.holds := by
  have hplace := accounting h e
  have hnodup := List.nodup_iff_count_le_one.1 (numbered h).nodup e
  have hforced : e ∉ s.history.forced := fun hmem => (unforced_of_reach h).forced e hmem he
  have hgiven : 0 < s.history.finished.count e + s.history.returned.count e := by
    rw [History.handed, List.mem_append, List.mem_append, or_iff_left hforced] at hhanded
    rcases hhanded with hmem | hmem
    · exact Nat.add_pos_left (List.count_pos_iff.2 hmem) _
    · exact Nat.add_pos_right _ (List.count_pos_iff.2 hmem)
  simp only [← List.count_eq_zero]
  omega

/-- What a step accepts is at the end of `enqueueQuery`. -/
lemma accepted_of_step {a : Action} (h : Step s a t) {e : Execution}
    (he : e ∈ t.history.accepted) : e ∈ s.history.accepted ∨ s.mainPC = .enqueue e .put := by
  cases h with
  | worker hnext => exact .inl (Shared.apply_accepted (WorkerPC.next_moves hnext) ▸ he)
  | main hspawn hnext =>
      rcases MainPC.next_moves hnext with hmoves | ⟨e', hpc, rfl, -, rfl⟩
      · exact .inl (Shared.apply_accepted hmoves ▸ he)
      · refine (List.mem_append.1 he).imp_right fun he => ?_
        obtain rfl := List.mem_singleton.1 he
        exact hpc
  | call hidle hcall => cases hcall <;> exact .inl he
  | spawn | join | connectionLost => exact .inl he

/-- A step stores nothing in the outcome of an execution that was handed over. -/
lemma outcome_of_step (hr : system.Reach Punctual s) {a : Action} (hC : Punctual s a)
    (h : Step s a t) {e : Execution} (he : e ∈ s.history.accepted)
    (hhanded : e ∈ s.history.handed) : t.outcome e = s.outcome e := by
  have hreach : system.Reach NoLateFallback s := hr.mono fun _ _ h => h.1
  obtain ⟨hworker, hmain⟩ := notMem_holds_of_handed hreach he hhanded
  cases h with
  | @worker c b pc hnext =>
      refine Shared.outcome_apply (Bool.eq_false_iff.2 fun hstores => hworker ?_)
      exact WorkerPC.next_storesOutcome hnext hstores
  | @main c b pc hspawn hnext =>
      refine Shared.outcome_apply (Bool.eq_false_iff.2 fun hstores => ?_)
      rcases MainPC.next_storesOutcome hnext hstores with
        hholds | ⟨stage, hpc⟩ | ⟨stage, hpc, hforcing⟩ | hmarking
      · exact hmain hholds
      · exact notMem_accepted_of_enqueue hr hpc he
      · exact (unforced_of_reach hreach).forcing e stage hpc hforcing he
      · exact hC.notMem_handed hmarking hhanded
  | call hidle hcall => cases hcall <;> rfl
  | spawn | join | connectionLost => rfl

/-- What was delivered has been handed over. -/
lemma handed_of_delivered (h : system.Reach C s) {e : Execution} {v : QueryStatus}
    (hv : (e, v) ∈ s.history.delivered) : e ∈ s.history.handed := by
  have hmem : e ∈ s.history.delivered.map Prod.fst := List.mem_map_of_mem hv
  exact List.mem_append_left _ ((delivered_of_reach h).perm.mem_iff.1 (List.mem_append_left _ hmem))

/-- What is about to be accepted has not been handed over. -/
lemma notMem_handed_of_put (h : system.Reach C s) {e : Execution}
    (hpc : s.mainPC = .enqueue e .put) : e ∉ s.history.handed := by
  have hplace := accounting h e
  have hnone := List.count_eq_zero.2 (notMem_accepted_of_enqueue h hpc)
  have hforced : e ∉ s.history.forced := (forced_of_reach h).enqueuing e _ hpc
  rw [History.handed, List.mem_append, List.mem_append, or_iff_left hforced]
  rintro (hmem | hmem)
  · have hpos := List.count_pos_iff.2 hmem
    omega
  · have hpos := List.count_pos_iff.2 hmem
    omega

/-- What a step delivers of an execution is the status it has. -/
lemma delivered_of_step {a : Action} (h : Step s a t) {e : Execution} {v : QueryStatus}
    (hv : (e, v) ∈ t.history.delivered) :
    (e, v) ∈ s.history.delivered ∨ t.outcome e = s.outcome e ∧ v = (s.outcome e).1 := by
  cases h with
  | worker hnext => exact .inl (Shared.apply_delivered _ _ ▸ hv)
  | main hspawn hnext => exact .inl (Shared.apply_delivered _ _ ▸ hv)
  | call hidle hcall =>
      cases hcall with
      | takeFinished =>
          refine (List.mem_append.1 hv).imp_right fun hnew => ⟨rfl, ?_⟩
          obtain ⟨e', -, heq⟩ := List.mem_map.1 hnew
          obtain ⟨rfl, rfl⟩ := Prod.mk.inj heq
          rfl
      | _ => exact .inl hv
  | spawn | join | connectionLost => exact .inl hv

/-- What was delivered of an accepted execution is its status still. -/
theorem delivered_status (h : system.Reach Punctual s) {e : Execution} {v : QueryStatus}
    (he : e ∈ s.history.accepted) (hv : (e, v) ∈ s.history.delivered) :
    v = (s.outcome e).1 := by
  refine system_invariant (I := fun s => ∀ e v, e ∈ s.history.accepted →
    (e, v) ∈ s.history.delivered → v = (s.outcome e).1)
    (fun e v he => absurd he List.not_mem_nil) (fun s t a hr hI hC hstep e v he hv => ?_) h e v he hv
  rcases delivered_of_step hstep hv with hold | ⟨hsame, hnew⟩
  · have hhanded := handed_of_delivered hr hold
    by_cases hbefore : e ∈ s.history.accepted
    · rw [outcome_of_step hr hC hstep hbefore hhanded]
      exact hI e v hbefore hold
    · -- it is accepted in this step, and nothing was delivered of it before
      rcases accepted_of_step hstep he with hbefore' | hpc
      · exact absurd hbefore' hbefore
      · exact absurd hhanded (notMem_handed_of_put hr hpc)
  · exact hsame ▸ hnew

/-- **Outcomes are final.**  In every run in which no abort marks an execution after its
hand-over, and `completeQueryWithError` makes its test only for what the worker thread is not
still completing: once an accepted execution has been handed over, its status, its result status
and its error stay what they are, and what is delivered of it, before or after, is its status. -/
theorem outcome_final (h : system.Reach Punctual s) {as : List Action}
    (hrun : system.runIf Punctual s as = some t) {e : Execution}
    (he : e ∈ s.history.accepted) (hhanded : e ∈ s.history.handed) :
    t.outcome e = s.outcome e ∧
      ∀ v, (e, v) ∈ t.history.delivered → v = (s.outcome e).1 := by
  have hkept : e ∈ t.history.accepted ∧ e ∈ t.history.handed ∧ t.outcome e = s.outcome e := by
    refine keeps_of_runIf (I := fun t => e ∈ t.history.accepted ∧ e ∈ t.history.handed ∧
      t.outcome e = s.outcome e) (fun u v a hr hu hC hnext => ?_) h ⟨he, hhanded, rfl⟩ hrun
    obtain ⟨hacc, hgiven, hsame⟩ := hu
    have hstep := step_of_next hnext
    exact ⟨mem_accepted_of_step hstep hacc, mem_handed_of_step hstep hgiven,
      (outcome_of_step hr hC hstep hacc hgiven).trans hsame⟩
  obtain ⟨hacc, -, hsame⟩ := hkept
  exact ⟨hsame, fun v hv => hsame ▸ delivered_status (Reach.of_runIf h hrun) hacc hv⟩

/-- After the execution has been delivered as aborted, `abort` is called for it again. -/
def abortAgainRun : List Action := .call (.abort ⟨0, 0, 0⟩) :: mainSteps 3

theorem outcome_final_abortAgainRun :
    ∃ s t, system.runIf Punctual system.init earlyMarkRun = some s ∧
      system.runIf Punctual s abortAgainRun = some t ∧ t.mainPC = .idle ∧
      t.outcome ⟨0, 0, 0⟩ = s.outcome ⟨0, 0, 0⟩ ∧
        ∀ v, (⟨0, 0, 0⟩, v) ∈ t.history.delivered → v = (s.outcome ⟨0, 0, 0⟩).1 := by
  have hruns : ((system.runIf Punctual system.init earlyMarkRun).bind fun s =>
      (system.runIf Punctual s abortAgainRun).map fun t =>
        (s.history.accepted, s.history.handed, t.mainPC)) =
          some ([⟨0, 0, 0⟩], [⟨0, 0, 0⟩], .idle) := rfl
  obtain ⟨s, hs, ht⟩ := Option.bind_eq_some_iff.1 hruns
  obtain ⟨t, ht, hfacts⟩ := Option.map_eq_some_iff.1 ht
  simp only [Prod.mk.injEq] at hfacts
  obtain ⟨haccepted, hhanded, hidle⟩ := hfacts
  exact ⟨s, t, hs, ht, hidle, outcome_final (Machine.reach_of_runIf hs) ht
    (haccepted ▸ List.mem_singleton_self _) (hhanded ▸ List.mem_singleton_self _)⟩

/-- The execution runs to success and is put on `finishedQueries`, while an abort that has
loaded `QUERY_WAITING` before is about to store `QUERY_ABORTED`. -/
def markAfterwardsRun : List Action :=
  abortRaceRun ++ workerSteps 5 ++ .worker (.left none) :: workerSteps 8

/-- Without the condition an outcome can change after the hand-over. -/
theorem outcome_not_final :
    ¬ ∀ s t a, system.Reachable s → system.next s a = some t → ∀ e ∈ s.history.accepted,
      e ∈ s.history.handed → t.outcome e = s.outcome e := by
  intro h
  have hruns : ((system.run system.init markAfterwardsRun).bind fun s =>
      (system.next s (.main .go)).map fun t =>
        (s.history.accepted, s.history.handed, (s.outcome ⟨0, 0, 0⟩).1,
          (t.outcome ⟨0, 0, 0⟩).1)) =
            some ([⟨0, 0, 0⟩], [⟨0, 0, 0⟩], .complete, .aborted) := rfl
  obtain ⟨s, hs, hnext⟩ := Option.bind_eq_some_iff.1 hruns
  obtain ⟨t, hnext, hfacts⟩ := Option.map_eq_some_iff.1 hnext
  simp only [Prod.mk.injEq] at hfacts
  obtain ⟨haccepted, hhanded, hbefore, hafter⟩ := hfacts
  have hsame := h s t _ (Machine.reachable_of_run hs) hnext ⟨0, 0, 0⟩
    (haccepted ▸ List.mem_singleton_self _) (hhanded ▸ List.mem_singleton_self _)
  rw [hsame, hbefore] at hafter
  exact absurd hafter (by simp)

end State

end GmsvPg.Database
