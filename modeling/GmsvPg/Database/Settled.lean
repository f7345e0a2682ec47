/-
# What is finished has been handed over

The flag that `waitForQuery` waits for says that an execution is finished, not that it was
put on `finishedQueries`.  `run` and `connectRun` put an execution there before they set the
flag; the main thread sets the flag first, but does not leave its operation in between.  So
whenever the main thread is idle, a finished execution has been handed over.
-/
import GmsvPg.Database.HandOver

namespace GmsvPg.Database

open Library

variable {queue l p l' p' : List Execution} {a : Access} {e : Execution}

/-- What a thread has yet to mark finished is in its hands, or was just handed over. -/
lemma Access.Moves.pending_handed (h : a.Moves queue l p l' p') {finished : List Execution}
    (hp : ∀ e ∈ p, e ∈ l ∨ e ∈ finished) (he : e ∈ p') :
    e ∈ l' ∨ e ∈ finished ∨ a = .finish e := by
  cases h with
  | keep => exact (hp e he).imp_right .inl
  | take | remove => exact .inl he
  | clear | close => exact .inl (List.mem_append_right _ he)
  | @finish e' =>
      rcases hp e he with hl | hfinished
      · rcases List.mem_cons.1 hl with rfl | hl
        · exact .inr (.inr rfl)
        · exact .inl hl
      · exact .inr (.inl hfinished)
  | settle => exact (hp e (List.mem_cons_of_mem _ he)).imp_right .inl
  | give => exact absurd he List.not_mem_nil

/-- What leaves the hands of a thread is handed over. -/
lemma Access.Moves.holds_handed (h : a.Moves queue l p l' p') (he : e ∈ l) :
    e ∈ l' ∨ a = .finish e ∨ ∃ es, a = .returnCompleted es ∧ e ∈ es := by
  cases h with
  | keep | settle => exact .inl he
  | take | remove => exact absurd he List.not_mem_nil
  | clear | close => exact .inl (List.mem_append_left _ he)
  | @finish e' =>
      rcases List.mem_cons.1 he with rfl | hl
      · exact .inr (.inl rfl)
      · exact .inl hl
  | give => exact .inr (.inr ⟨l, rfl, he⟩)

/-- The worker thread marks an execution finished after it has put it on
`finishedQueries`. -/
lemma WorkerPC.next_setFinished {s : Shared} {c : Choice} {pc pc' : WorkerPC}
    (h : pc.next s c = some (.setFinished e, pc')) (hnodup : pc.pending.count e ≤ 1) :
    e ∉ pc.holds := by
  cases pc with
  | connecting stage =>
      cases stage with
      | drain e' stage rest reason =>
          cases stage with
          | setFinished =>
              simp only [WorkerPC.next, ConnectStage.next, CompleteStage.next] at h
              obtain ⟨rfl, -⟩ : e' = e ∧ _ := by simpa using h
              intro hmem
              have hpos := List.count_pos_iff.2 hmem
              simp only [WorkerPC.pending, WorkerPC.holds, List.count_cons_self] at hnodup hpos
              omega
          | _ => exact absurd h (by simp [WorkerPC.next, ConnectStage.next, CompleteStage.next])
      | _ =>
          simp only [WorkerPC.next, ConnectStage.next] at h
          repeat' split at h
          all_goals exact absurd h (by simp)
  | taking =>
      simp only [WorkerPC.next] at h
      repeat' split at h
      all_goals exact absurd h (by simp)
  | running e' r =>
      cases r with
      | setFinishedAborted | setFinished => exact List.not_mem_nil
      | _ =>
          simp only [WorkerPC.next, RunStage.next] at h
          repeat' split at h
          all_goals grind [ReconnectStage.next_access]
  | leaving stage =>
      cases stage <;> simp only [WorkerPC.next, LeaveStage.next] at h
      all_goals grind
  | notStarted | ended => exact absurd h (by simp [WorkerPC.next])

namespace Shared

variable {s : Shared}

lemma mem_finished_apply (h : e ∈ s.history.finished ∨ a = .finish e) :
    e ∈ (s.apply a).history.finished := by
  rcases h with h | rfl
  · cases a with
    | connectSession error => cases error <;> exact h
    | finish e' => exact List.mem_append_left _ h
    | _ => exact h
  · exact List.mem_append_right _ List.mem_cons_self

lemma mem_handed_apply (h : e ∈ s.history.handed) : e ∈ (s.apply a).history.handed := by
  simp only [History.handed, List.mem_append] at h ⊢
  cases a with
  | connectSession error => cases error <;> exact h
  | finish e' | forceFinish e' | returnCompleted es =>
      simp only [apply, record, putFinished, List.mem_append]
      tauto
  | _ => exact h

lemma mem_handed_of_access
    (h : a = .finish e ∨ a = .forceFinish e ∨ ∃ es, a = .returnCompleted es ∧ e ∈ es) :
    e ∈ (s.apply a).history.handed := by
  rcases h with rfl | rfl | ⟨es, rfl, he⟩ <;>
    simp_all [History.handed, apply, record, putFinished]

end Shared

namespace State

variable {C : State → Action → Prop} {s t : State}

/-- What the threads have yet to mark finished. -/
structure PendingHanded (s : State) : Prop where
  worker : ∀ e ∈ s.workerPC.pending, e ∈ s.workerPC.holds ∨ e ∈ s.history.finished
  main : ∀ e ∈ s.mainPC.pending, e ∈ s.mainPC.holds ∨ e ∈ s.history.finished

theorem pendingHanded_of_reach (h : system.Reach C s) : s.PendingHanded := by
  refine system_invariant (I := PendingHanded)
    ⟨by simp [WorkerPC.pending], by simp [MainPC.pending]⟩ (fun s t a hr hI _ hstep => ?_) h
  -- what was put on `finishedQueries` stays on record
  have hkeep : ∀ {l : List Execution} {e : Execution} (a : Access),
      e ∈ l ∨ e ∈ s.history.finished → e ∈ l ∨ e ∈ (s.toShared.apply a).history.finished :=
    fun a h => h.imp_right fun h => Shared.mem_finished_apply (.inl h)
  cases hstep with
  | @worker c a pc hnext =>
      refine ⟨fun e he => ?_, fun e he => hkeep a (hI.main e he)⟩
      exact ((WorkerPC.next_moves hnext).pending_handed hI.worker he).imp_right
        Shared.mem_finished_apply
  | @main c a pc hspawn hnext =>
      refine ⟨fun e he => hkeep a (hI.worker e he), fun e he => ?_⟩
      rcases MainPC.next_moves hnext with hmoves | ⟨e', -, -, -, rfl⟩
      · exact (hmoves.pending_handed hI.main he).imp_right Shared.mem_finished_apply
      · exact absurd he List.not_mem_nil
  | spawn hpc => exact ⟨by simp [WorkerPC.pending], by simp [MainPC.pending]⟩
  | join hpc hworker => exact ⟨hI.worker, by simp [MainPC.pending]⟩
  | call hidle hcall =>
      cases hcall with
      | start => exact ⟨hI.worker, by simp [MainPC.pending]⟩
      | enter hentry => exact ⟨hI.worker, by cases hentry <;> simp [MainPC.pending]⟩
      | _ => exact ⟨hI.worker, hI.main⟩
  | connectionLost => exact ⟨hI.worker, hI.main⟩

/-- A finished execution has been handed over, or the main thread is about to do that. -/
def FinishedHanded (s : State) : Prop :=
  ∀ e ∈ s.history.accepted, (s.own e).finished = true →
    e ∈ s.history.handed ∨ e ∈ s.mainPC.holds ∨ s.mainPC = .waiting e .forcePut

theorem finishedHanded_of_reach (h : system.Reach C s) : s.FinishedHanded := by
  refine system_invariant (I := FinishedHanded) (by simp [FinishedHanded])
    (fun s t a hr hI _ hstep e he hfinished => ?_) h
  cases hstep with
  | @worker c a pc hnext =>
      have hmoves := WorkerPC.next_moves hnext
      have he : e ∈ s.history.accepted := Shared.apply_accepted hmoves ▸ he
      rcases Shared.apply_finished.1 hfinished with hbefore | rfl
      · exact (hI e he hbefore).imp_left Shared.mem_handed_apply
      · -- it was put on `finishedQueries` before
        have hpending : e ∈ s.workerPC.pending := WorkerPC.next_stores hnext (.inr rfl)
        have hcount := exclusion hr e
        have hput := ((pendingHanded_of_reach hr).worker e hpending).resolve_left
          (WorkerPC.next_setFinished hnext (by omega))
        refine .inl (Shared.mem_handed_apply ?_)
        simp [History.handed, hput]
  | @main c a pc hspawn hnext =>
      rcases MainPC.next_moves hnext with hmoves | ⟨e', hpc, rfl, -, -⟩
      · have he : e ∈ s.history.accepted := Shared.apply_accepted hmoves ▸ he
        have hheld : e ∈ s.mainPC.holds → e ∈ (s.stepMain a pc).history.handed ∨ e ∈ pc.holds := by
          intro hholds
          rcases hmoves.holds_handed hholds with hholds | hgiven | hgiven
          · exact .inr hholds
          · exact .inl (Shared.mem_handed_of_access (.inl hgiven))
          · exact .inl (Shared.mem_handed_of_access (.inr (.inr hgiven)))
        rcases Shared.apply_finished.1 hfinished with hbefore | rfl
        · rcases hI e he hbefore with hhanded | hholds | hpc
          · exact .inl (Shared.mem_handed_apply hhanded)
          · exact (hheld hholds).imp_right .inl
          · obtain ⟨rfl, -⟩ : a = .forceFinish e ∧ pc = .idle := by
              simpa [hpc, MainPC.next, WaitStage.next, eq_comm] using hnext
            exact .inl (Shared.mem_handed_of_access (.inr (.inl rfl)))
        · rcases MainPC.next_stores hnext (.inr rfl) with hpending | ⟨-, hne⟩ | ⟨-, hne⟩ |
            ⟨hpc, -⟩ | ⟨-, hne⟩ | ⟨hpc, -⟩ | ⟨-, hne⟩
          · rcases (pendingHanded_of_reach hr).main e hpending with hholds | hput
            · exact (hheld hholds).imp_right .inl
            · exact .inl (Shared.mem_handed_apply (by simp [History.handed, hput]))
          -- the other stores are to the status
          · cases hne
          · cases hne
          · exact absurd he (notMem_accepted_of_enqueue hr hpc)
          · cases hne
          · obtain rfl : MainPC.waiting e .forcePut = pc := by
              simpa [hpc, MainPC.next, WaitStage.next] using hnext
            exact .inr (.inr rfl)
          · cases hne
      · -- what is accepted now is unfinished
        rcases List.mem_append.1 he with he | he
        · rcases hI e he hfinished with hhanded | hholds | hwaiting
          · exact .inl hhanded
          · exact absurd hholds (by simp [hpc, MainPC.holds])
          · exact absurd (hpc.symm.trans hwaiting) (by simp)
        · obtain rfl := List.mem_singleton.1 he
          exact absurd (hfinished.symm.trans ((fresh_of_reach hr).enqueuing e _ hpc)) (by simp)
  | spawn hpc =>
      rcases hI e he hfinished with hhanded | hholds | hwaiting
      · exact .inl hhanded
      · exact absurd hholds (by simp [hpc, MainPC.holds])
      · exact absurd (hpc.symm.trans hwaiting) (by simp)
  | join hpc hworker =>
      rcases hI e he hfinished with hhanded | hholds | hwaiting
      · exact .inl hhanded
      · exact absurd hholds (by simp [hpc, MainPC.holds])
      · exact absurd (hpc.symm.trans hwaiting) (by simp)
  | @call m t hidle hcall =>
      have hsame : (t.own e).finished = (s.own e).finished ∧
          t.history.accepted = s.history.accepted ∧ t.history.handed = s.history.handed := by
        cases hcall <;> exact ⟨rfl, rfl, rfl⟩
      rw [hsame.2.2]
      rcases hI e (hsame.2.1 ▸ he) (hsame.1 ▸ hfinished) with hhanded | hholds | hwaiting
      · exact .inl hhanded
      · exact absurd hholds (by simp [hidle, MainPC.holds])
      · exact absurd (hidle.symm.trans hwaiting) (by simp)
  | connectionLost => exact hI e he hfinished

/-- While the main thread is idle, what is finished has been handed over. -/
theorem handed_of_finished (h : system.Reach C s) (hidle : s.mainPC = .idle)
    (he : e ∈ s.history.accepted) (hfinished : (s.own e).finished = true) :
    e ∈ s.history.handed := by
  rcases finishedHanded_of_reach h e he hfinished with hhanded | hholds | hwaiting
  · exact hhanded
  · exact absurd hholds (by simp [hidle, MainPC.holds])
  · exact absurd (hidle.symm.trans hwaiting) (by simp)

/-- What was handed over stays on record. -/
lemma mem_handed_of_step {a : Action} (h : Step s a t) (he : e ∈ s.history.handed) :
    e ∈ t.history.handed := by
  cases h with
  | worker hnext => exact Shared.mem_handed_apply he
  | main hspawn hnext => exact Shared.mem_handed_apply he
  | call hidle hcall => cases hcall <;> exact he
  | spawn | join | connectionLost => exact he

/-- What was accepted stays on record. -/
lemma mem_accepted_of_step {a : Action} (h : Step s a t) (he : e ∈ s.history.accepted) :
    e ∈ t.history.accepted := by
  have happly : ∀ b : Access, e ∈ (s.toShared.apply b).history.accepted := by
    intro b
    cases b with
    | connectSession error => cases error <;> exact he
    | put e' => exact List.mem_append_left _ he
    | _ => exact he
  cases h with
  | worker hnext => exact happly _
  | main hspawn hnext => exact happly _
  | call hidle hcall => cases hcall <;> exact he
  | spawn | join | connectionLost => exact he

/-- What was built stays built. -/
lemma built_of_step {a : Action} (h : Step s a t) (he : s.built e) : t.built e := by
  have hle : s.started ≤ t.started := by
    cases h with
    | call hidle hcall => exact callStep_started hcall
    | _ => exact Nat.le_refl _
  exact Nat.lt_of_lt_of_le he hle

end State

/-! ### Where operations begin and end -/

/-- The points of the main thread in an operation whose caller waits for what it returns. -/
def MainPC.served : MainPC → Bool
  | .abort _ _ | .abortAll _ _ | .cancel _ _ (.abortAll _) | .waiting _ _ => true
  | _ => false

/-- Completed executions are returned at the end of two operations. -/
lemma MainPC.next_returnCompleted {s : Shared} {c : Choice} {pc pc' : MainPC}
    {es : List Execution} (h : pc.next s c = some (.returnCompleted es, pc')) :
    (∃ e, pc = .abort e .returnRemoved ∧ es = [e]) ∨
      ∃ g, pc = .abortAll .returnResult g ∧ es = g.completed := by
  cases pc with
  | enqueue e stage =>
      cases stage <;> simp only [MainPC.next, EnqueueStage.next] at h
      all_goals grind
  | abort e stage =>
      cases stage <;> simp only [MainPC.next, AbortStage.next] at h
      all_goals grind
  | cancel d stage caller =>
      cases stage <;> simp only [MainPC.next, CancelStage.next] at h
      all_goals repeat' split at h
      all_goals grind
  | abortAll stage g =>
      cases stage <;> simp only [MainPC.next, AbortAllStage.next] at h
      all_goals grind
  | shutdown stage join g =>
      cases stage <;> simp only [MainPC.next, ShutdownStage.next] at h
      all_goals grind
  | waiting e stage =>
      cases stage with
      | complete stage =>
          cases stage <;> simp only [MainPC.next, WaitStage.next, CompleteStage.next] at h
          all_goals grind
      | _ =>
          simp only [MainPC.next, WaitStage.next] at h
          grind
  | ping stage =>
      cases stage <;> simp only [MainPC.next, PingStage.next] at h
      all_goals grind [ReconnectStage.next_access]
  | connect stage =>
      cases stage <;> simp only [MainPC.next, ConnectCallStage.next] at h
      all_goals grind
  | idle | joining => exact absurd h (by simp [MainPC.next])

/-- `waitForQuery` is left for nothing but user code. -/
lemma WaitStage.next_target {s : Shared} {stage : WaitStage} {pc : MainPC}
    (h : stage.next s e = some (a, pc)) : pc = .idle ∨ ∃ stage', pc = .waiting e stage' := by
  cases stage with
  | complete stage =>
      cases stage <;> simp only [WaitStage.next, CompleteStage.next] at h
      all_goals grind
  | _ =>
      simp only [WaitStage.next] at h
      grind

/-- `waitForQuery` returns when the execution is finished. -/
lemma WaitStage.next_idle {s : Shared} {stage : WaitStage}
    (h : stage.next s e = some (a, .idle)) :
    ((s.apply a).own e).finished = true ∨ a = .forceFinish e := by
  cases stage with
  | testFinished | testFinishedAgain =>
      simp only [WaitStage.next] at h
      by_cases hfinished : (s.own e).finished = true
      · exact .inl (Shared.apply_finished_mono hfinished)
      · simp [hfinished] at h
  | testCanWait | testWaiting | forceError | forceResultStatus | forceStatus | forceFinished =>
      simp [WaitStage.next] at h
  | removeQueued =>
      simp only [WaitStage.next] at h
      split at h <;> simp at h
  | complete stage =>
      cases stage with
      | setFinished =>
          obtain rfl : Access.setFinished e = a := by
            simpa [WaitStage.next, CompleteStage.next] using h
          exact .inl (Shared.apply_finished.2 (.inr rfl))
      | _ => simp [WaitStage.next, CompleteStage.next] at h
  | forcePut =>
      obtain rfl : Access.forceFinish e = a := by simpa [WaitStage.next] using h
      exact .inr rfl
  | block =>
      simp only [WaitStage.next] at h
      by_cases hfinished : (s.own e).finished = true
      · exact .inl (Shared.apply_finished_mono hfinished)
      · simp [hfinished] at h

namespace State

variable {C : State → Action → Prop} {s t : State}

/-- What is returned to the caller is what the main thread had collected. -/
lemma mem_returned_of_step {a : Action} (h : Step s a t) (he : e ∈ t.history.returned) :
    e ∈ s.history.returned ∨ (∃ c, a = .main c) ∧
      (s.mainPC = .abort e .returnRemoved ∨
        ∃ g, s.mainPC = .abortAll .returnResult g ∧ e ∈ g.completed) := by
  cases h with
  | worker hnext =>
      refine .inl ((Shared.mem_returned_apply he).resolve_right ?_)
      rintro ⟨es, rfl, -⟩
      exact absurd (WorkerPC.next_ofMain hnext) (by simp [Access.ofMain])
  | @main c b pc hspawn hnext =>
      refine (Shared.mem_returned_apply he).imp_right ?_
      rintro ⟨es, rfl, hes⟩
      refine ⟨⟨c, rfl⟩, ?_⟩
      rcases MainPC.next_returnCompleted hnext with ⟨e', hpc, rfl⟩ | ⟨g, hpc, rfl⟩
      · exact .inl (List.mem_singleton.1 hes ▸ hpc)
      · exact .inr ⟨g, hpc, hes⟩
  | call hidle hcall => cases hcall <;> exact .inl he
  | spawn | join | connectionLost => exact .inl he

lemma mainPC_of_waitForQuery {e : Execution}
    (h : system.next s (.call (.waitForQuery e)) = some t) :
    t.mainPC = .waiting e .testFinished := by
  simp only [system] at h
  split at h
  · obtain ⟨-, rfl⟩ := callOn_eq_some h
    rfl
  · exact absurd h (by simp)

/-- The point at which an operation begins. -/
lemma mainPC_of_call {m : Call} (h : system.next s (.call m) = some t) :
    (∃ e, m = .abort e ∧ t.mainPC = .abort e .removeQueued) ∨
      (m = .abortAll ∧ t.mainPC = .abortAll .clearQueue {}) ∨
      (∃ e, m = .waitForQuery e ∧ t.mainPC = .waiting e .testFinished) ∨
      t.mainPC.served = false := by
  simp only [system] at h
  split at h
  · rename_i hidle
    have hkept : t.mainPC = s.mainPC → t.mainPC.served = false := by
      intro hpc
      rw [hpc, hidle]
      rfl
    cases m with
    | abort e =>
        obtain ⟨-, rfl⟩ := callOn_eq_some h
        exact .inl ⟨e, rfl, rfl⟩
    | abortAll =>
        obtain rfl := Option.some.inj h
        exact .inr (.inl ⟨rfl, rfl⟩)
    | waitForQuery e =>
        obtain ⟨-, rfl⟩ := callOn_eq_some h
        exact .inr (.inr (.inl ⟨e, rfl, rfl⟩))
    | cancel d | swapToFront d =>
        obtain ⟨-, rfl⟩ := callOn_eq_some h
        first
          | exact .inr (.inr (.inr rfl))
          | exact .inr (.inr (.inr (hkept rfl)))
    | disconnect wait =>
        simp only [call] at h
        split at h <;> obtain rfl := Option.some.inj h
        · exact .inr (.inr (.inr rfl))
        · exact .inr (.inr (.inr (hkept rfl)))
    | wait =>
        simp only [call] at h
        split at h
        · obtain rfl := Option.some.inj h
          exact .inr (.inr (.inr (hkept rfl)))
        · exact absurd h (by simp)
    | start | destroy | ping | connect =>
        obtain rfl := Option.some.inj h
        exact .inr (.inr (.inr rfl))
    | takeFinished | takeReconnectEvents | setAutoReconnect =>
        obtain rfl := Option.some.inj h
        exact .inr (.inr (.inr (hkept rfl)))
  · exact absurd h (by simp)

/-- `connect` is begun by no other call. -/
lemma mainPC_ne_connect {m : Call} (h : system.next s (.call m) = some t) (hm : m ≠ .connect)
    (stage : ConnectCallStage) : t.mainPC ≠ .connect stage := by
  simp only [system] at h
  split at h
  · rename_i hidle
    have hkept : t.mainPC = s.mainPC → t.mainPC ≠ .connect stage := by
      intro hpc
      rw [hpc, hidle]
      simp
    cases m with
    | abort e | cancel e | waitForQuery e =>
        obtain ⟨-, rfl⟩ := callOn_eq_some h
        simp
    | swapToFront e =>
        obtain ⟨-, rfl⟩ := callOn_eq_some h
        exact hkept rfl
    | disconnect wait =>
        simp only [call] at h
        split at h <;> obtain rfl := Option.some.inj h
        · simp
        · exact hkept rfl
    | wait =>
        simp only [call] at h
        split at h
        · obtain rfl := Option.some.inj h
          exact hkept rfl
        · exact absurd h (by simp)
    | start | destroy | ping | abortAll =>
        obtain rfl := Option.some.inj h
        simp
    | takeFinished | takeReconnectEvents | setAutoReconnect =>
        obtain rfl := Option.some.inj h
        exact hkept rfl
    | connect => exact absurd rfl hm
  · exact absurd h (by simp)

/-- The worker thread moves by its own steps, once it has been started. -/
lemma workerPC_of_step {a : Action} (h : Step s a t) :
    t.workerPC = s.workerPC ∨ (∃ c, a = .worker c ∧ s.workerPC ≠ .notStarted) ∨
      s.mainPC = .connect .spawn := by
  cases h with
  | @worker c a pc hnext =>
      refine .inr (.inl ⟨c, rfl, fun hpc => ?_⟩)
      rw [hpc] at hnext
      exact absurd hnext (by simp [WorkerPC.next])
  | spawn hpc => exact .inr (.inr hpc)
  | call hidle hcall => cases hcall <;> exact .inl rfl
  | main | join | connectionLost => exact .inl rfl

end State

end GmsvPg.Database
