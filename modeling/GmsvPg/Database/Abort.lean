/-
# Abort of a waiting execution

An execution that the worker thread has taken is tested twice before it runs, the second
time under `m_queryMutex`.  The main thread aborts it by a load of `QUERY_WAITING` and a store
of `QUERY_ABORTED`, which hold no mutex.  This file shows that an abort whose store comes
before the second test is decisive, and that one whose store comes later is not.
-/
import GmsvPg.Database.Delivery
import GmsvPg.Database.Order

namespace GmsvPg.Database

open Library Machine

/-! ### The verdict of `run` -/

/-- What `run` has decided about an execution. -/
inductive Verdict
  | untested
  | refused
  | passed
deriving DecidableEq

/-- What `run` has decided at each point; it refuses an execution by storing, or finding,
`QUERY_ABORTED`. -/
def RunStage.verdict : RunStage → Verdict
  | .setInFlight | .testStatus | .lockQuery | .testShuttingDown | .testStatusLocked
  | .storeAborted => .untested
  | .finishAborted _ | .setFinishedAborted _ | .clearInFlightAborted _ | .unlockAborted => .refused
  | .storeRunning | .testOpen | .testAutoReconnect | .reconnectFirst _ | .enterGuard
  | .execute | .executing _ _ | .clearCancellation | .storeSuccess | .leaveGuard _
  | .testCancellation _ | .storeCancelled | .storeResultNone | .clearCancellationThrown _
  | .testRetry _ | .reconnectAgain _ _ | .storeError _ | .testErrorText _ | .setErrorText _
  | .testAborted | .storeComplete | .unlock | .finish | .setFinished | .clearInFlight => .passed

lemma RunStage.next_verdict {s : Shared} {c : Choice} {e : Execution} {r : RunStage}
    {a : Access} {pc : WorkerPC} (h : r.next s c e = some (a, pc)) :
    (a = .pass e ∧ (s.own e).status ≠ .aborted ∧ r.verdict = .untested ∧
        ∃ r', pc = .running e r' ∧ r'.verdict = .passed) ∨
      ((∀ x, a ≠ .pass x) ∧
        (pc = .taking ∧ r.verdict ≠ .untested ∨
          ∃ r', pc = .running e r' ∧ (r'.verdict = r.verdict ∨
            r.verdict = .untested ∧ r'.verdict = .refused ∧
              (a.statusStore e).getD (s.own e).status = .aborted))) := by
  cases r <;> simp only [RunStage.next] at h
  all_goals repeat' split at h
  all_goals grind [RunStage.verdict, Access.statusStore, ReconnectStage.next_access]

/-- Before `run` has let an execution pass it stores only `QUERY_ABORTED`; afterwards it does so
only for a user cancellation. -/
lemma RunStage.next_statusStore {s : Shared} {c : Choice} {e : Execution} {r : RunStage}
    {a : Access} {pc : WorkerPC} {v : QueryStatus} (h : r.next s c e = some (a, pc))
    (hv : a.statusStore e = some v) :
    (r.verdict ≠ .passed → v = .aborted) ∧
      (r.verdict = .passed → v = .aborted → a = .setCancelled e) := by
  cases r <;> simp only [RunStage.next] at h
  all_goals repeat' split at h
  all_goals grind [RunStage.verdict, Access.statusStore, ReconnectStage.next_access]

lemma RunStage.next_pass {s : Shared} {c : Choice} {e x : Execution} {r : RunStage}
    {pc : WorkerPC} (h : r.next s c e = some (.pass x, pc)) : x = e := by
  rcases RunStage.next_verdict h with ⟨ha, -⟩ | ⟨hne, -⟩
  · simpa using ha
  · exact absurd rfl (hne x)

namespace Shared

variable {s : Shared} {a : Access} {e : Execution}

lemma mem_passed_apply :
    e ∈ (s.apply a).history.passed ↔ e ∈ s.history.passed ∨ a = .pass e := by
  cases a with
  | connectSession error => cases error <;> simp [apply]
  | pass x => simp [apply, record, eq_comm]
  | _ => simp [apply, record, setQueue, putFinished, modifyData]

lemma mem_executed_apply (h : e ∈ (s.apply a).history.executed) :
    e ∈ s.history.executed ∨ a = .execute e := by
  by_cases ha : a.ofStatement = true
  · cases a with
    | execute x =>
        refine (List.mem_append.1 h).imp_right fun h => ?_
        rw [List.mem_singleton.1 h]
    | endExecution => exact .inl h
    | _ => exact absurd ha (by simp [Access.ofStatement])
  · exact .inl ((apply_statement (by simpa using ha)).1 ▸ h)

lemma mem_marked_apply (h : e ∈ (s.apply a).history.marked) :
    e ∈ s.history.marked ∨ a = .markAborted e ∧ e ∈ s.history.taken := by
  cases a with
  | connectSession error => cases error <;> exact .inl h
  | markAborted x =>
      simp only [apply, record, modifyData] at h
      grind
  | _ => exact .inl h

lemma mem_cancelled_apply (h : e ∈ s.history.cancelled ∨ a = .setCancelled e) :
    e ∈ (s.apply a).history.cancelled := by
  rcases h with h | rfl
  · cases a with
    | connectSession error => cases error <;> exact h
    | setCancelled x => exact List.mem_append_left _ h
    | _ => exact h
  · exact List.mem_append_right _ (List.mem_singleton_self e)

lemma apply_delivered (s : Shared) (a : Access) :
    (s.apply a).history.delivered = s.history.delivered := by
  cases a with
  | connectSession error => cases error <;> rfl
  | _ => rfl

end Shared

namespace State

variable {C : State → Action → Prop} {s t : State}

/-- The main thread stores the status of a taken execution only to abort it. -/
lemma markAborted_of_store (h : system.Reach C s) {c : Choice} {a : Access} {pc : MainPC}
    (hnext : s.mainPC.next s.toShared c = some (a, pc)) {e : Execution}
    (he : e ∈ s.history.taken) (hstore : a.statusStore e ≠ none) :
    s.mainPC.marking e = true ∧ a = .markAborted e := by
  have hacc := (taken_of_reach h).accepted e he
  rcases MainPC.next_stores hnext (.inl hstore) with h1 | ⟨h1, -⟩ | ⟨h1, -⟩ | ⟨h1, -⟩ |
    ⟨h1, -⟩ | ⟨h1, -⟩ | hmark
  · exact absurd h1 ((taken_of_reach h).main e he).2
  · exact absurd hacc (notMem_accepted_of_enqueue h h1)
  · exact absurd hacc (notMem_accepted_of_enqueue h h1)
  · exact absurd hacc (notMem_accepted_of_enqueue h h1)
  · exact absurd he ((forced_of_reach h).forcing e _ h1 rfl)
  · exact absurd he ((forced_of_reach h).forcing e _ h1 rfl)
  · exact hmark

/-- The worker thread stores the status of a taken execution only while it runs it. -/
lemma running_of_store (h : system.Reach C s) {c : Choice} {a : Access} {pc : WorkerPC}
    (hnext : s.workerPC.next s.toShared c = some (a, pc)) {e : Execution}
    (he : e ∈ s.history.taken) (hstore : a.statusStore e ≠ none) :
    ∃ r, s.workerPC = .running e r ∧ r.next s.toShared c e = some (a, pc) := by
  have hpending := WorkerPC.next_stores hnext (.inl hstore)
  cases hpc : s.workerPC with
  | running e' r =>
      rw [hpc] at hpending hnext
      have : e ∈ (if r.settled then [] else [e']) := hpending
      obtain rfl : e = e' := by
        by_cases hr : r.settled = true
        · exact absurd this (by simp [hr])
        · simpa [hr] using this
      exact ⟨r, rfl, hnext⟩
  | connecting stage =>
      cases stage with
      | drain e' stage rest reason =>
          have hdrain := (taken_of_reach h).draining e he
          rw [hpc] at hpending hdrain
          exact absurd hpending hdrain
      | _ => exact absurd (hpc ▸ hpending) List.not_mem_nil
  | _ => exact absurd (hpc ▸ hpending) List.not_mem_nil

/-- What `run` has decided, and what it has left in the data of an execution it refused. -/
structure Decided (s : State) : Prop where
  passed : ∀ e ∈ s.history.passed, e ∈ s.history.taken
  executed : ∀ e ∈ s.history.executed, e ∈ s.history.passed
  running : ∀ e r, s.workerPC = .running e r → (e ∈ s.history.passed ↔ r.verdict = .passed)
  refused : ∀ e ∈ s.history.taken, e ∉ s.history.passed →
    (∃ r, s.workerPC = .running e r ∧ r.verdict = .untested) ∨ (s.own e).status = .aborted

theorem decided_of_reach (h : system.Reach C s) : s.Decided := by
  refine system_invariant (I := Decided) ⟨by simp, by simp, by simp, by simp⟩
    (fun s t a hr hI _ hstep => ?_) h
  cases hstep with
  | @worker c a pc hnext =>
      refine ⟨fun e he => ?_, fun e he => ?_, fun e r hpc => ?_, fun e he hnot => ?_⟩
      · refine Shared.mem_taken_apply ?_
        rcases Shared.mem_passed_apply.1 he with he | rfl
        · exact hI.passed e he
        · rcases WorkerPC.next_ofRun hnext rfl with ⟨e', r, hpc, hrun⟩ | ⟨e', rest, -, ha, -⟩
          · exact RunStage.next_pass hrun ▸ (taken_of_reach hr).running e' r hpc
          · exact absurd ha (by simp)
      · refine Shared.mem_passed_apply.2 (.inl ?_)
        rcases Shared.mem_executed_apply he with he | rfl
        · exact hI.executed e he
        · rcases WorkerPC.next_inPhase hnext with ⟨e', rest, ha, -⟩ | ⟨e', ha, hpc, -⟩ |
            ⟨e', ha, -⟩ | ⟨ha, -⟩
          · exact absurd ha (by simp)
          · obtain rfl : e = e' := by simpa using ha
            exact (hI.running e _ hpc).2 rfl
          · exact absurd ha (by simp)
          · exact absurd ha (by simp [Access.ofStatement])
      · obtain rfl : pc = .running e r := hpc
        show e ∈ (s.toShared.apply a).history.passed ↔ _
        rw [Shared.mem_passed_apply]
        rcases WorkerPC.next_running hnext with ⟨r', hpc', hrun⟩ | ⟨-, rfl, rfl, rest, hrest⟩
        · rw [hI.running e r' hpc']
          rcases RunStage.next_verdict hrun with ⟨rfl, -, -, r'', hpc'', hr''⟩ |
            ⟨hne, ⟨hpc'', -⟩ | ⟨r'', hpc'', hr'' | ⟨hr', hr'', -⟩⟩⟩
          · obtain ⟨-, rfl⟩ := WorkerPC.running.inj hpc''
            simp [hr'']
          · exact absurd hpc'' (by simp)
          · obtain ⟨-, rfl⟩ := WorkerPC.running.inj hpc''
            simp [hr'', hne e]
          · obtain ⟨-, rfl⟩ := WorkerPC.running.inj hpc''
            simp [hr', hr'', hne e]
        · have hqueue : e ∈ s.queue := hrest ▸ List.mem_cons_self
          have hout : e ∉ s.history.passed := fun hp =>
            (taken_of_reach hr).queue e (hI.passed e hp) hqueue
          simp [hout, RunStage.verdict]
      · have hnot : e ∉ s.history.passed ∧ a ≠ .pass e := by
          have := (not_congr Shared.mem_passed_apply).1 hnot
          tauto
        rcases Shared.mem_of_mem_taken_apply he with he | rfl
        · rcases hI.refused e he hnot.1 with ⟨r, hpc, hr'⟩ | hstatus
          · rw [hpc] at hnext
            rcases RunStage.next_verdict hnext with ⟨ha, -⟩ |
              ⟨-, ⟨-, hne⟩ | ⟨r'', rfl, hr'' | ⟨-, -, haborted⟩⟩⟩
            · exact absurd ha hnot.2
            · exact absurd hr' hne
            · exact .inl ⟨r'', rfl, hr''.trans hr'⟩
            · exact .inr (Shared.apply_status.trans haborted)
          · refine .inr (Shared.apply_status.trans ?_)
            cases hst : a.statusStore e with
            | none => exact hstatus
            | some v =>
                obtain ⟨r, hpc, hrun⟩ := running_of_store hr hnext he (by simp [hst])
                have hverdict : r.verdict ≠ .passed := fun hp =>
                  hnot.1 ((hI.running e r hpc).2 hp)
                exact (RunStage.next_statusStore hrun hst).1 hverdict
        · obtain ⟨-, rfl, -⟩ := WorkerPC.next_take hnext
          exact .inl ⟨_, rfl, rfl⟩
  | @main c a pc hspawn hnext =>
      have hrun := MainPC.next_ofRun hnext
      have hpassed : ∀ e, e ∈ (s.stepMain a pc).history.passed ↔ e ∈ s.history.passed := by
        intro e
        refine Shared.mem_passed_apply.trans (or_iff_left ?_)
        rintro rfl
        exact absurd hrun (by simp [Access.ofRun])
      have htaken : ∀ e ∈ (s.stepMain a pc).history.taken, e ∈ s.history.taken := by
        intro e he
        refine (Shared.mem_of_mem_taken_apply he).resolve_right ?_
        rintro rfl
        exact absurd hrun (by simp [Access.ofRun])
      refine ⟨fun e he => ?_, fun e he => ?_, fun e r hpc => ?_, fun e he hnot => ?_⟩
      · exact Shared.mem_taken_apply (hI.passed e ((hpassed e).1 he))
      · refine (hpassed e).2 (hI.executed e ((Shared.mem_executed_apply he).resolve_right ?_))
        rintro rfl
        exact absurd hrun (by simp [Access.ofRun])
      · exact (hpassed e).trans (hI.running e r hpc)
      · have he := htaken e he
        refine (hI.refused e he (fun hp => hnot ((hpassed e).2 hp))).imp_right fun hstatus => ?_
        refine Shared.apply_status.trans ?_
        cases hst : a.statusStore e with
        | none => exact hstatus
        | some v =>
            obtain ⟨-, rfl⟩ := markAborted_of_store hr hnext he (by simp [hst])
            obtain rfl : QueryStatus.aborted = v := by simpa [Access.statusStore] using hst
            rfl
  | spawn hpc => 
      have hworker := ((startedOnce hr).connecting _ hpc (by simp) (by simp)).1
      refine ⟨hI.passed, hI.executed, by simp, fun e he hnot => .inr ?_⟩
      rcases hI.refused e he hnot with ⟨r, hpc', -⟩ | hstatus
      · exact absurd (hworker.symm.trans hpc') (by simp)
      · exact hstatus
  | join hpc hworker => exact ⟨hI.passed, hI.executed, hI.running, hI.refused⟩
  | call hidle hcall =>
      cases hcall with
      | _ => exact ⟨hI.passed, hI.executed, hI.running, hI.refused⟩
  | connectionLost => exact ⟨hI.passed, hI.executed, hI.running, hI.refused⟩

/-- `run` will refuse an execution: it has not let it pass, and the execution is marked. -/
structure Condemned (s : State) (e : Execution) : Prop where
  taken : e ∈ s.history.taken
  notMem_passed : e ∉ s.history.passed
  aborted : (s.own e).status = .aborted

/-- Before `run` lets an execution pass, nothing but `QUERY_ABORTED` is stored in its status, and
it does not let a marked one pass. -/
lemma Condemned.step (h : system.Reach C s) {e : Execution} (he : s.Condemned e) {a : Action}
    (hstep : Step s a t) : t.Condemned e := by
  cases hstep with
  | @worker c a pc hnext =>
      have hpass : a ≠ .pass e := by
        rintro rfl
        rcases WorkerPC.next_ofRun hnext rfl with ⟨e', r, hpc, hrun⟩ | ⟨e', rest, -, ha, -⟩
        · obtain rfl := RunStage.next_pass hrun
          rcases RunStage.next_verdict hrun with ⟨-, hne, -⟩ | ⟨hne, -⟩
          · exact hne he.aborted
          · exact hne e rfl
        · exact absurd ha (by simp)
      refine ⟨Shared.mem_taken_apply he.taken, fun hp => ?_, Shared.apply_status.trans ?_⟩
      · exact (Shared.mem_passed_apply.1 hp).elim he.notMem_passed hpass
      · cases hst : a.statusStore e with
        | none => exact he.aborted
        | some v =>
            obtain ⟨r, hpc, hrun⟩ := running_of_store h hnext he.taken (by simp [hst])
            exact (RunStage.next_statusStore hrun hst).1
              fun hp => he.notMem_passed (((decided_of_reach h).running e r hpc).2 hp)
  | @main c a pc hspawn hnext =>
      refine ⟨Shared.mem_taken_apply he.taken, fun hp => ?_, Shared.apply_status.trans ?_⟩
      · refine he.notMem_passed ((Shared.mem_passed_apply.1 hp).resolve_right ?_)
        rintro rfl
        exact absurd (MainPC.next_ofRun hnext) (by simp [Access.ofRun])
      · cases hst : a.statusStore e with
        | none => exact he.aborted
        | some v =>
            obtain ⟨-, rfl⟩ := markAborted_of_store h hnext he.taken (by simp [hst])
            obtain rfl : QueryStatus.aborted = v := by simpa [Access.statusStore] using hst
            rfl
  | call hidle hcall => cases hcall <;> exact ⟨he.taken, he.notMem_passed, he.aborted⟩
  | _ => exact ⟨he.taken, he.notMem_passed, he.aborted⟩

end State

/-! ### Late marks -/

/-- The main thread marks an execution `QUERY_ABORTED` that `run` has already let pass. -/
def State.lateMark (s : State) : Action → Bool
  | .main _ =>
      match s.mainPC with
      | .abort e .storeAborted | .abortAll (.storeInFlight e) _
      | .shutdown (.storeInFlight e) _ _ => decide (e ∈ s.history.passed)
      | _ => false
  | _ => false

/-- The condition on a step under which an abort of a waiting execution is decisive. -/
def NoLateMark (s : State) (a : Action) : Prop := s.lateMark a = false

instance (s : State) (a : Action) : Decidable (NoLateMark s a) :=
  inferInstanceAs (Decidable (_ = false))

lemma NoLateMark.notMem_passed {s : State} {c : Choice} (h : NoLateMark s (.main c))
    {e : Execution} (he : s.mainPC.marking e = true) : e ∉ s.history.passed := by
  unfold NoLateMark State.lateMark at h
  unfold MainPC.marking at he
  split at he <;> simp_all

namespace State

variable {C : State → Action → Prop} {s t : State}

/-- What a late mark would break. -/
structure Decisive (s : State) : Prop where
  marked : ∀ e ∈ s.history.marked, s.Condemned e
  cancelled : ∀ e ∈ s.history.passed, (s.own e).status = .aborted → e ∈ s.history.cancelled

theorem decisive_of_reach (h : system.Reach NoLateMark s) : s.Decisive := by
  refine system_invariant (I := Decisive) ⟨by simp, by simp⟩ (fun s t a hr hI hC hstep => ?_) h
  have hdecided := decided_of_reach hr
  cases hstep with
  | @worker c a pc hnext =>
      refine ⟨fun e he => ?_, fun e he hstatus => ?_⟩
      · refine (hI.marked e ((Shared.mem_marked_apply he).resolve_right ?_)).step hr (.worker hnext)
        rintro ⟨rfl, -⟩
        exact absurd (WorkerPC.next_ofMain hnext) (by simp [Access.ofMain])
      · rcases Shared.mem_passed_apply.1 he with he | rfl
        · refine Shared.mem_cancelled_apply ?_
          have hstatus : (a.statusStore e).getD (s.own e).status = .aborted :=
            Shared.apply_status.symm.trans hstatus
          cases hst : a.statusStore e with
          | none => exact .inl (hI.cancelled e he (by simpa [hst] using hstatus))
          | some v =>
              obtain ⟨r, hpc, hrun⟩ :=
                running_of_store hr hnext (hdecided.passed e he) (by simp [hst])
              refine .inr ((RunStage.next_statusStore hrun hst).2 ?_ (by simpa [hst] using hstatus))
              exact (hdecided.running e r hpc).1 he
        · have hstatus : (s.own e).status = .aborted := hstatus
          rcases WorkerPC.next_ofRun hnext rfl with ⟨e', r, hpc, hrun⟩ | ⟨e', rest, -, ha, -⟩
          · obtain rfl := RunStage.next_pass hrun
            rcases RunStage.next_verdict hrun with ⟨-, hne, -⟩ | ⟨hne, -⟩
            · exact absurd hstatus hne
            · exact absurd rfl (hne e)
          · exact absurd ha (by simp)
  | @main c a pc hspawn hnext =>
      have hpassed : ∀ e ∈ (s.stepMain a pc).history.passed, e ∈ s.history.passed := by
        intro e he
        refine (Shared.mem_passed_apply.1 he).resolve_right ?_
        rintro rfl
        exact absurd (MainPC.next_ofRun hnext) (by simp [Access.ofRun])
      refine ⟨fun e he => ?_, fun e he hstatus => ?_⟩
      · rcases Shared.mem_marked_apply he with he | ⟨rfl, htaken⟩
        · exact (hI.marked e he).step hr (.main hspawn hnext)
        · have hstore : (Access.markAborted e).statusStore e = some .aborted := by
            simp [Access.statusStore]
          have hmarking := (markAborted_of_store hr hnext htaken (by simp [hstore])).1
          refine ⟨Shared.mem_taken_apply htaken,
            fun hp => hC.notMem_passed hmarking (hpassed e hp), ?_⟩
          show ((s.toShared.apply (.markAborted e)).own e).status = .aborted
          rw [Shared.apply_status, hstore]
          rfl
      · have he := hpassed e he
        refine Shared.mem_cancelled_apply (.inl (hI.cancelled e he ?_))
        have hstatus : (a.statusStore e).getD (s.own e).status = .aborted :=
          Shared.apply_status.symm.trans hstatus
        cases hst : a.statusStore e with
        | none => simpa [hst] using hstatus
        | some v =>
            have hmarking :=
              (markAborted_of_store hr hnext (hdecided.passed e he) (by simp [hst])).1
            exact absurd he (hC.notMem_passed hmarking)
  | spawn hpc =>
      exact ⟨fun e he => (hI.marked e he).step hr (.spawn (c := .go) hpc), hI.cancelled⟩
  | join hpc hworker =>
      exact ⟨fun e he => (hI.marked e he).step hr (.join (c := .go) hpc hworker), hI.cancelled⟩
  | call hidle hcall =>
      refine ⟨fun e he => Condemned.step hr (hI.marked e ?_) (.call hidle hcall), ?_⟩
      · cases hcall <;> exact he
      · cases hcall <;> exact hI.cancelled
  | connectionLost =>
      exact ⟨fun e he => (hI.marked e he).step hr .connectionLost, hI.cancelled⟩

/-- What was delivered, or waits for it, is not in the hands of the worker thread. -/
lemma notMem_holds_of_finished (h : system.Reach C s) {e : Execution}
    (he : e ∈ s.history.finished ∨ e ∈ s.history.forced) (htaken : e ∈ s.history.taken) :
    e ∈ s.history.finished ∧ e ∉ s.workerPC.holds := by
  have hfinished : e ∈ s.history.finished :=
    he.resolve_right fun hf => ((forced_of_reach h).forced e hf).2.2 htaken
  refine ⟨hfinished, fun hholds => ?_⟩
  have hplace := accounting h e
  have hnodup := List.nodup_iff_count_le_one.1 (numbered h).nodup e
  have h1 := List.count_pos_iff.2 hfinished
  have h2 := List.count_pos_iff.2 hholds
  omega

lemma holds_of_untested {e : Execution} {r : RunStage} (hpc : s.workerPC = .running e r)
    (hr : r.verdict = .untested) : e ∈ s.workerPC.holds := by
  have : r.handedOver = false := by cases r <;> simp_all [RunStage.verdict, RunStage.handedOver]
  simp [hpc, WorkerPC.holds, this]

lemma finished_of_delivered (h : system.Reach C s) {e : Execution} {v : QueryStatus}
    (he : (e, v) ∈ s.history.delivered) : e ∈ s.history.finished ∨ e ∈ s.history.forced := by
  have hmem : e ∈ s.history.delivered.map Prod.fst := List.mem_map_of_mem he
  exact List.mem_append.1 ((delivered_of_reach h).perm.mem_iff.1 (List.mem_append_left _ hmem))

lemma finished_of_finishedQueries (h : system.Reach C s) {e : Execution}
    (he : e ∈ s.worker.finishedQueries.backingQueue) :
    e ∈ s.history.finished ∨ e ∈ s.history.forced :=
  List.mem_append.1 ((delivered_of_reach h).perm.mem_iff.1 (List.mem_append_right _ he))

/-- The statuses of delivered executions. -/
structure Reported (s : State) : Prop where
  refused : ∀ e v, (e, v) ∈ s.history.delivered → e ∈ s.history.taken →
    e ∉ s.history.passed → v = .aborted
  cancelled : ∀ e, (e, QueryStatus.aborted) ∈ s.history.delivered → e ∈ s.history.passed →
    e ∈ s.history.cancelled

theorem reported_of_reach (h : system.Reach NoLateMark s) : s.Reported := by
  refine system_invariant (I := Reported) ⟨by simp, by simp⟩ (fun s t a hr hI hC hstep => ?_) h
  have hdecided := decided_of_reach hr
  cases hstep with
  | @worker c a pc hnext =>
      have hdelivered : (s.stepWorker a pc).history.delivered = s.history.delivered :=
        Shared.apply_delivered _ _
      refine ⟨fun e v he htaken hpassed => ?_, fun e he hpassed => ?_⟩
      · have he : (e, v) ∈ s.history.delivered := hdelivered ▸ he
        have hpassed := fun hp => hpassed (Shared.mem_passed_apply.2 (.inl hp))
        rcases Shared.mem_of_mem_taken_apply htaken with htaken | rfl
        · exact hI.refused e v he htaken hpassed
        · obtain ⟨-, -, rest, hrest⟩ := WorkerPC.next_take hnext
          have hqueue : e ∈ s.queue := hrest ▸ List.mem_cons_self
          rcases finished_of_delivered hr he with hf | hf
          · exact absurd hf (queue_exclusive hr hqueue).2.2.1
          · exact absurd hqueue ((forced_of_reach hr).forced e hf).2.1
      · have he : (e, .aborted) ∈ s.history.delivered := hdelivered ▸ he
        refine Shared.mem_cancelled_apply (.inl ?_)
        rcases Shared.mem_passed_apply.1 hpassed with hpassed | rfl
        · exact hI.cancelled e he hpassed
        · rcases WorkerPC.next_ofRun hnext rfl with ⟨e', r, hpc, hrun⟩ | ⟨e', rest, -, ha, -⟩
          · obtain rfl := RunStage.next_pass hrun
            rcases RunStage.next_verdict hrun with ⟨-, -, hr', -⟩ | ⟨hne, -⟩
            · exact absurd (holds_of_untested hpc hr') (notMem_holds_of_finished hr
                (finished_of_delivered hr he) ((taken_of_reach hr).running e r hpc)).2
            · exact absurd rfl (hne e)
          · exact absurd ha (by simp)
  | @main c a pc hspawn hnext =>
      have hrun := MainPC.next_ofRun hnext
      have hdelivered : (s.stepMain a pc).history.delivered = s.history.delivered :=
        Shared.apply_delivered _ _
      refine ⟨fun e v he htaken hpassed => ?_, fun e he hpassed => ?_⟩
      · refine hI.refused e v (hdelivered ▸ he) ?_
          (fun hp => hpassed (Shared.mem_passed_apply.2 (.inl hp)))
        refine (Shared.mem_of_mem_taken_apply htaken).resolve_right ?_
        rintro rfl
        exact absurd hrun (by simp [Access.ofRun])
      · refine Shared.mem_cancelled_apply (.inl (hI.cancelled e (hdelivered ▸ he) ?_))
        refine (Shared.mem_passed_apply.1 hpassed).resolve_right ?_
        rintro rfl
        exact absurd hrun (by simp [Access.ofRun])
  | spawn hpc => exact ⟨hI.refused, hI.cancelled⟩
  | join hpc hworker => exact ⟨hI.refused, hI.cancelled⟩
  | call hidle hcall =>
      cases hcall with
      | takeFinished =>
          have hnew : ∀ e v, (e, v) ∈ s.takeFinished.history.delivered →
              (e, v) ∈ s.history.delivered ∨
                (s.own e).status = v ∧ e ∈ s.worker.finishedQueries.backingQueue := by
            intro e v he
            refine (List.mem_append.1 he).imp_right fun he => ?_
            obtain ⟨x, hx, heq⟩ := List.mem_map.1 he
            obtain ⟨rfl, rfl⟩ : x = e ∧ (s.own x).status = v := by simpa using heq
            exact ⟨rfl, hx⟩
          refine ⟨fun e v he htaken hpassed => ?_, fun e he hpassed => ?_⟩
          · rcases hnew e v he with he | ⟨rfl, hq⟩
            · exact hI.refused e v he htaken hpassed
            · rcases hdecided.refused e htaken hpassed with ⟨r, hpc, hr'⟩ | hstatus
              · exact absurd (holds_of_untested hpc hr') (notMem_holds_of_finished hr
                  (finished_of_finishedQueries hr hq) htaken).2
              · exact hstatus
          · rcases hnew e _ he with he | ⟨hstatus, -⟩
            · exact hI.cancelled e he hpassed
            · exact (decisive_of_reach hr).cancelled e hpassed hstatus
      | _ => exact ⟨hI.refused, hI.cancelled⟩
  | connectionLost => exact ⟨hI.refused, hI.cancelled⟩

end State

/-- **An abort of a waiting execution is decisive** in every run in which it comes before the
locked test of `run`: the execution is never executed, and it is in the hands of the worker
thread, or waits on `finishedQueries` as `QUERY_ABORTED`, or was delivered as such, and never
otherwise.  An execution delivered as `QUERY_ABORTED` was not executed, or ended with a user
cancellation. -/
theorem abort_decisive {s : State} (h : system.Reach NoLateMark s) :
    (∀ e ∈ s.history.marked, e ∉ s.history.executed ∧
      (e ∈ s.workerPC.holds ∨
        (e ∈ s.worker.finishedQueries.backingQueue ∧ (s.own e).status = .aborted) ∨
        (e, QueryStatus.aborted) ∈ s.history.delivered) ∧
      ∀ v, (e, v) ∈ s.history.delivered → v = .aborted) ∧
    ∀ e, (e, QueryStatus.aborted) ∈ s.history.delivered →
      e ∉ s.history.executed ∨ e ∈ s.history.cancelled := by
  have hdecided := State.decided_of_reach h
  have hreported := State.reported_of_reach h
  refine ⟨fun e he => ?_, fun e he => ?_⟩
  · obtain ⟨htaken, hpassed, haborted⟩ := (State.decisive_of_reach h).marked e he
    have hall := fun v hv => hreported.refused e v hv htaken hpassed
    refine ⟨fun hx => hpassed (hdecided.executed e hx), ?_, hall⟩
    have hout := State.taken_of_reach h
    rcases State.held_or_finished h (hout.accepted e htaken) with hq | hw | hm | hf | hret
    · exact absurd hq (hout.queue e htaken)
    · exact .inl hw
    · exact absurd hm (hout.main e htaken).1
    · have hmem := (State.delivered_of_reach h).perm.mem_iff.2 (List.mem_append_left _ hf)
      rcases List.mem_append.1 hmem with hd | hq
      · obtain ⟨⟨x, v⟩, hx, rfl⟩ := List.mem_map.1 hd
        exact .inr (.inr (hall v hx ▸ hx))
      · exact .inr (.inl ⟨hq, haborted⟩)
    · exact absurd hret (hout.returned e htaken)
  · by_cases hpassed : e ∈ s.history.passed
    · exact .inr (hreported.cancelled e he hpassed)
    · exact .inl fun hx => hpassed (hdecided.executed e hx)

/-- The worker thread stands before its locked test, and the main thread, in `abortQuery`, has
read `QUERY_WAITING` and is about to store `QUERY_ABORTED`. -/
def abortRaceRun : List Action :=
  connectSteps ++ connectedSteps ++ startSteps 0 0 ++ workerSteps 5 ++
    .call (.abort ⟨0, 0, 0⟩) :: mainSteps 2

/-- The store comes first: the execution is refused. -/
def earlyMarkRun : List Action :=
  abortRaceRun ++ mainSteps 1 ++ workerSteps 6 ++ [.call .takeFinished]

theorem abort_decisive_earlyMarkRun :
    ∃ s, system.runIf NoLateMark system.init earlyMarkRun = some s ∧
      s.history.marked = [⟨0, 0, 0⟩] ∧ (⟨0, 0, 0⟩ : Execution) ∉ s.history.executed ∧
      ∀ v, (⟨0, 0, 0⟩, v) ∈ s.history.delivered → v = .aborted := by
  obtain ⟨s, hs⟩ : ∃ s, system.runIf NoLateMark system.init earlyMarkRun = some s := ⟨_, rfl⟩
  have hmarked : (system.runIf NoLateMark system.init earlyMarkRun).map (·.history.marked) =
      some [⟨0, 0, 0⟩] := rfl
  have hmarked : s.history.marked = [⟨0, 0, 0⟩] := by simpa [hs] using hmarked
  have h := (abort_decisive (reach_of_runIf hs)).1 ⟨0, 0, 0⟩
    (hmarked ▸ List.mem_singleton_self _)
  exact ⟨s, hs, hmarked, h.1, h.2.2⟩

/-- The locked test and the store of `QUERY_RUNNING` come first: the execution runs to success
and is delivered as `QUERY_ABORTED`. -/
def lateMarkRun : List Action :=
  abortRaceRun ++ workerSteps 2 ++ mainSteps 1 ++ workerSteps 3 ++
    .worker (.left none) :: workerSteps 8 ++ [.call .takeFinished]

/-- Without the condition neither direction holds. -/
theorem abort_not_decisive :
    ¬ (∀ s, system.Reachable s → ∀ e ∈ s.history.marked, e ∉ s.history.executed) ∧
      ¬ ∀ s, system.Reachable s → ∀ e, (e, QueryStatus.aborted) ∈ s.history.delivered →
        e ∉ s.history.executed ∨ e ∈ s.history.cancelled := by
  obtain ⟨s, hs⟩ : ∃ s, system.run system.init lateMarkRun = some s := ⟨_, rfl⟩
  have hhistory : (system.run system.init lateMarkRun).map (fun s =>
      (s.history.marked, s.history.executed, s.history.delivered, s.history.cancelled)) =
        some ([⟨0, 0, 0⟩], [⟨0, 0, 0⟩], [(⟨0, 0, 0⟩, .aborted)], []) := rfl
  obtain ⟨hmarked, hexecuted, hdelivered, hcancelled⟩ : s.history.marked = [⟨0, 0, 0⟩] ∧
      s.history.executed = [⟨0, 0, 0⟩] ∧ s.history.delivered = [(⟨0, 0, 0⟩, .aborted)] ∧
      s.history.cancelled = [] := by simpa [hs] using hhistory
  have hreach := reachable_of_run hs
  refine ⟨fun h => ?_, fun h => ?_⟩
  · have := h s hreach ⟨0, 0, 0⟩ (hmarked ▸ List.mem_singleton_self _)
    exact this (hexecuted ▸ List.mem_singleton_self _)
  · rcases h s hreach ⟨0, 0, 0⟩ (hdelivered ▸ List.mem_singleton_self _) with hx | hx
    · exact hx (hexecuted ▸ List.mem_singleton_self _)
    · exact absurd (hcancelled ▸ hx) List.not_mem_nil

end GmsvPg.Database
