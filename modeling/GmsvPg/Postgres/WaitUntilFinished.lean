/-
# Waiting for a query

`IQueryData::waitUntilFinished` blocks on `m_finishCondition` under `m_finishMutex`, with
`finished` as its predicate.  `IQueryData::setFinished(true)` stores `finished` and then
calls `notify_all`, without the mutex.  In the model of `Database` the wait is one step that
is enabled when the data is finished; here it is followed through the protocol of the
condition variable, with any number of waiters.  A waiter that returns has seen the data
finished, and a waiter is left behind exactly if `notify_all` comes between its test and its
block.
-/
import GmsvPg.Library.CondVar
import GmsvPg.Library.Machine

namespace GmsvPg

open Library Machine

/-- The points of `setFinished(true)`. -/
inductive SetFinishedPC
  | store
  | notifyAll
  | returned
deriving DecidableEq, Repr

/-- The members of `IQueryData` that the two functions use, and where `setFinished` stands. -/
structure FinishState (ι : Type*) where
  finished : Bool := false
  /-- `m_finishMutex` and `m_finishCondition`, with the points of the waiters -/
  finish : CondVar ι := {}
  setter : SetFinishedPC := .store

/-- The steps: of a waiter in `waitUntilFinished`, a spurious wake-up of a waiter, and of
`setFinished(true)`. -/
inductive FinishAction (ι : Type*)
  | waitUntilFinished (i : ι)
  | wakeUp (i : ι)
  | setFinished
deriving DecidableEq, Repr

namespace FinishState

variable {ι : Type*} [DecidableEq ι]

omit [DecidableEq ι] in
/-- `setFinished(true)`, one access at a time. -/
def setFinished (s : FinishState ι) : Option (FinishState ι) :=
  match s.setter with
  | .store => some { s with finished := true, setter := .notifyAll }
  | .notifyAll => some { s with finish := s.finish.notifyAll, setter := .returned }
  | .returned => none

/-- A step of a waiter in `waitUntilFinished`. -/
def waitUntilFinished (s : FinishState ι) (i : ι) : Option (FinishState ι) :=
  (s.finish.step s.finished i).map fun v => { s with finish := v }

end FinishState

/-- The waiters and the finisher of one data object. -/
def finishing (ι : Type*) [DecidableEq ι] : Machine (FinishState ι) (FinishAction ι) where
  init := {}
  next s
    | .waitUntilFinished i => s.waitUntilFinished i
    | .wakeUp i => (s.finish.wakeUp i).map fun v => { s with finish := v }
    | .setFinished => s.setFinished

namespace FinishState

variable {ι : Type*} [DecidableEq ι] {s t : FinishState ι}

/-- A wake-up is lost: `setFinished` has returned and a waiter is blocked. -/
def Lost (s : FinishState ι) : Prop :=
  s.finished = true ∧ s.setter = .returned ∧ ∃ i, s.finish.point i = .blocked

/-- The next step of `setFinished` is `notify_all`, and the waiter that holds the mutex has
found `finished` false and is about to block. -/
def notifiesEarly (s : FinishState ι) : FinishAction ι → Bool
  | .setFinished =>
      decide (s.setter = .notifyAll) &&
        s.finish.owner.any fun i => decide (s.finish.point i = .sawFalse)
  | _ => false

end FinishState

/-- The condition on a step under which no wake-up is lost. -/
def NotifiesBlocked {ι : Type*} [DecidableEq ι] (s : FinishState ι) (a : FinishAction ι) : Prop :=
  s.notifiesEarly a = false

instance {ι : Type*} [DecidableEq ι] (s : FinishState ι) (a : FinishAction ι) :
    Decidable (NotifiesBlocked s a) :=
  inferInstanceAs (Decidable (_ = false))

namespace FinishState

variable {ι : Type*} [DecidableEq ι] {C : FinishState ι → FinishAction ι → Prop}
  {s t : FinishState ι}

/-- The kinds of steps. -/
lemma step_cases {a : FinishAction ι} (h : (finishing ι).next s a = some t) :
    (∃ i v, a = .waitUntilFinished i ∧ s.finish.step s.finished i = some v ∧
        t = { s with finish := v }) ∨
      (∃ i v, a = .wakeUp i ∧ s.finish.wakeUp i = some v ∧ t = { s with finish := v }) ∨
      (a = .setFinished ∧ s.setter = .store ∧
        t = { s with finished := true, setter := .notifyAll }) ∨
      (a = .setFinished ∧ s.setter = .notifyAll ∧
        t = { s with finish := s.finish.notifyAll, setter := .returned }) := by
  cases a with
  | waitUntilFinished i =>
      obtain ⟨v, hv, rfl⟩ := Option.map_eq_some_iff.1 h
      exact .inl ⟨i, v, rfl, hv, rfl⟩
  | wakeUp i =>
      obtain ⟨v, hv, rfl⟩ := Option.map_eq_some_iff.1 h
      exact .inr (.inl ⟨i, v, rfl, hv, rfl⟩)
  | setFinished =>
      have h : s.setFinished = some t := h
      unfold setFinished at h
      split at h
      · rename_i hset
        exact .inr (.inr (.inl ⟨rfl, hset, (Option.some.inj h).symm⟩))
      · rename_i hset
        exact .inr (.inr (.inr ⟨rfl, hset, (Option.some.inj h).symm⟩))
      · exact absurd h (by simp)

/-- What holds in every run: a waiter inside the mutex owns it, `finished` is true once it was
stored, and a waiter that has seen it true is right. -/
structure Consistent (s : FinishState ι) : Prop where
  exclusive : s.finish.Exclusive
  stored : s.setter ≠ .store → s.finished = true
  sawTrue : ∀ i, s.finish.point i = .sawTrue → s.finished = true

theorem consistent_of_reach (h : (finishing ι).Reach C s) : s.Consistent := by
  refine h.invariant (I := Consistent) ⟨CondVar.exclusive_init, ?_, ?_⟩ ?_
  · intro hset
    exact absurd rfl hset
  · intro i hi
    exact absurd hi (by simp [finishing])
  · intro s t a _ hI _ hnext
    rcases step_cases hnext with ⟨i, v, -, hv, rfl⟩ | ⟨i, v, -, hv, rfl⟩ | ⟨-, -, rfl⟩ |
      ⟨-, hset, rfl⟩
    · refine ⟨hI.exclusive.step hv, hI.stored, ?_⟩
      intro j hj
      obtain ⟨p, o, rfl, -, -, htrue, -⟩ := CondVar.step_cases hv
      by_cases hji : j = i
      · subst hji
        rw [CondVar.move_point_self] at hj
        exact (htrue hj).2
      · rw [CondVar.move_point_of_ne _ _ _ hji] at hj
        exact hI.sawTrue j hj
    · refine ⟨hI.exclusive.wakeUp hv, hI.stored, ?_⟩
      intro j hj
      obtain ⟨-, rfl⟩ := CondVar.wakeUp_cases hv
      by_cases hji : j = i
      · subst hji
        exact absurd hj (by simp)
      · rw [CondVar.move_point_of_ne _ _ _ hji] at hj
        exact hI.sawTrue j hj
    · exact ⟨hI.exclusive, fun _ => rfl, fun _ _ => rfl⟩
    · have hfinished := hI.stored (by simp [hset])
      exact ⟨hI.exclusive.notifyAll, fun _ => hfinished, fun _ _ => hfinished⟩

/-- `waitUntilFinished` returns only when the data is finished. -/
theorem finished_of_sawTrue (h : (finishing ι).Reach C s) {i : ι}
    (hi : s.finish.point i = .sawTrue) : s.finished = true :=
  (consistent_of_reach h).sawTrue i hi

/-- After `notify_all`, nobody is blocked or about to block. -/
theorem settled_of_reach (h : (finishing ι).Reach NotifiesBlocked s)
    (hset : s.setter = .returned) : s.finish.Settled := by
  revert hset
  refine h.invariant (I := fun s => s.setter = .returned → s.finish.Settled) ?_ ?_
  · intro hset
    exact absurd hset (by simp [finishing])
  · intro s t a hr hI hC hnext
    have hconsistent := consistent_of_reach hr
    rcases step_cases hnext with ⟨i, v, -, hv, rfl⟩ | ⟨i, v, -, hv, rfl⟩ | ⟨-, -, rfl⟩ |
      ⟨rfl, hset, rfl⟩
    · intro hset
      have hfinished : s.finished = true := hconsistent.stored (by simp [show s.setter = _ from hset])
      rw [hfinished] at hv
      exact (hI hset).step hv
    · intro hset
      exact (hI hset).wakeUp hv
    · intro hset
      exact absurd hset (by simp)
    · intro _
      refine CondVar.settled_notifyAll fun i hi => ?_
      -- a waiter about to block holds the mutex, and the condition excludes it
      have howner := hconsistent.exclusive i (by rw [hi]; rfl)
      have hearly : s.notifiesEarly .setFinished = true := by
        simp [notifiesEarly, hset, howner, hi]
      exact absurd (hC.symm.trans hearly) (by simp)

end FinishState

/-- **No wake-up is lost** in every run in which `notify_all` never comes between a waiter's test
and its block; and one that does come then leaves the waiter blocked, by its next step. -/
theorem no_lost_wakeup {ι : Type*} [DecidableEq ι] :
    (∀ s, (finishing ι).Reach NotifiesBlocked s → ¬ s.Lost) ∧
      ∀ s, (finishing ι).Reachable s → ¬ NotifiesBlocked s .setFinished →
        ∃ i t u, (finishing ι).next s .setFinished = some t ∧
          (finishing ι).next t (.waitUntilFinished i) = some u ∧ u.Lost := by
  constructor
  · rintro s h ⟨-, hset, i, hi⟩
    exact (FinishState.settled_of_reach h hset i).1 hi
  · intro s h hearly
    have hearly : s.setter = .notifyAll ∧ ∃ i, s.finish.owner = some i ∧
        s.finish.point i = .sawFalse := by
      simpa [NotifiesBlocked, FinishState.notifiesEarly, Option.any_eq_true] using hearly
    obtain ⟨hset, i, -, hi⟩ := hearly
    have hfinished := (FinishState.consistent_of_reach h).stored (by simp [hset])
    have hpoint : s.finish.notifyAll.point i = .sawFalse := by simp [CondVar.notifyAll, hi]
    refine ⟨i, { s with finish := s.finish.notifyAll, setter := .returned },
      { s with finish := s.finish.notifyAll.move i .blocked none, setter := .returned }, ?_, ?_, ?_⟩
    · simp only [finishing, FinishState.setFinished, hset]
    · simp only [finishing, FinishState.waitUntilFinished, CondVar.step, hpoint, Option.map_some]
    · exact ⟨hfinished, rfl, i, by simp⟩

/-- One of two waiters blocks before `setFinished`, and both return after it. -/
def notifiedRun : List (FinishAction (Fin 2)) :=
  List.replicate 3 (.waitUntilFinished 0) ++ [.setFinished, .setFinished] ++
    List.replicate 3 (.waitUntilFinished 0) ++ List.replicate 3 (.waitUntilFinished 1)

/-- `notify_all` comes between the test of the waiter and its block. -/
def forgottenRun : List (FinishAction (Fin 1)) :=
  [.waitUntilFinished 0, .waitUntilFinished 0, .setFinished, .setFinished, .waitUntilFinished 0]

theorem no_lost_wakeup_notifiedRun :
    ∃ s, (finishing (Fin 2)).runIf NotifiesBlocked (finishing (Fin 2)).init notifiedRun = some s ∧
      s.finished = true ∧ s.setter = .returned ∧ ¬ s.Lost := by
  obtain ⟨s, hs⟩ : ∃ s, (finishing (Fin 2)).runIf NotifiesBlocked (finishing (Fin 2)).init
      notifiedRun = some s := ⟨_, rfl⟩
  have hstate : ((finishing (Fin 2)).runIf NotifiesBlocked (finishing (Fin 2)).init
      notifiedRun).map (fun s => (s.finished, s.setter)) = some (true, .returned) := rfl
  obtain ⟨hfinished, hset⟩ : s.finished = true ∧ s.setter = .returned := by
    simpa [hs] using hstate
  exact ⟨s, hs, hfinished, hset, no_lost_wakeup.1 s (reach_of_runIf hs)⟩

/-- Without the condition a waiter can be left blocked. -/
theorem lost_wakeup : ¬ ∀ s, (finishing (Fin 1)).Reachable s → ¬ s.Lost := by
  intro h
  obtain ⟨s, hs⟩ : ∃ s, (finishing (Fin 1)).run (finishing (Fin 1)).init forgottenRun = some s :=
    ⟨_, rfl⟩
  have hstate : ((finishing (Fin 1)).run (finishing (Fin 1)).init forgottenRun).map
      (fun s => (s.finished, s.setter, s.finish.point 0)) = some (true, .returned, .blocked) := rfl
  obtain ⟨hfinished, hset, hpoint⟩ : s.finished = true ∧ s.setter = .returned ∧
      s.finish.point 0 = .blocked := by simpa [hs] using hstate
  exact h s (reachable_of_run hs) ⟨hfinished, hset, 0, hpoint⟩

end GmsvPg
