/-
# What `connectRun` publishes

`connectRun` tells the main thread how far it is through three flags, `m_connectionDone`,
`m_success` and `disconnected`, which nothing else stores to.  This file reads the flags off
the point at which the worker thread stands.
-/
import GmsvPg.Database.Cancel

namespace GmsvPg.Database

open Library

/-- The accesses to the three flags. -/
def Access.ofConnectRun : Access → Bool
  | .setSuccess _ | .setConnectionDone | .setDisconnected _ => true
  | _ => false

/-- The flags at a point of `connectRun`. -/
def ConnectStage.Publishes (done success disconnected : Bool) : ConnectStage → Prop
  | .lockConnect | .attemptConnection | .failSuccess | .storeSuccess | .storeDone =>
      done = false ∧ success = true ∧ disconnected = false
  | .failDone => done = false ∧ success = false ∧ disconnected = false
  | .failStatus | .failDisconnected | .failCanWait | .failClose | .drain _ _ _ _ | .failReturn =>
      done = true ∧ success = false ∧ disconnected = false
  | .storeConnected | .unlockConnect => done = true ∧ success = true ∧ disconnected = false

/-- The flags at a point of the worker thread. -/
def WorkerPC.Publishes (done success disconnected : Bool) : WorkerPC → Prop
  | .notStarted => done = false ∧ success = true ∧ disconnected = false
  | .connecting stage => stage.Publishes done success disconnected
  | .taking | .running _ _ | .leaving .resetSession | .leaving .storeCanWait
  | .leaving .storeDisconnected => done = true ∧ success = true ∧ disconnected = false
  | .leaving .testStatus | .leaving .storeNotConnected =>
      done = true ∧ success = true ∧ disconnected = true
  | .ended => done = true ∧ success = disconnected

lemma Shared.apply_flags {s : Shared} {a : Access} (h : a.ofConnectRun = false) :
    (s.apply a).connectionDone = s.connectionDone ∧ (s.apply a).success = s.success ∧
      (s.apply a).disconnected = s.disconnected := by
  cases a with
  | connectSession error => cases error <;> exact ⟨rfl, rfl, rfl⟩
  | setSuccess | setConnectionDone | setDisconnected =>
      exact absurd h (by simp [Access.ofConnectRun])
  | _ => exact ⟨rfl, rfl, rfl⟩

lemma RunStage.next_ofConnectRun {s : Shared} {c : Choice} {e : Execution} {r : RunStage}
    {a : Access} {pc : WorkerPC} (h : r.next s c e = some (a, pc)) : a.ofConnectRun = false := by
  cases r <;> simp only [RunStage.next] at h
  all_goals repeat' split at h
  all_goals grind [Access.ofConnectRun, ReconnectStage.next_access]

lemma ConnectStage.drainNext_publishes {done success disconnected : Bool} (reason : Text)
    (l : List Execution) (h : done = true ∧ success = false ∧ disconnected = false) :
    (ConnectStage.drainNext reason l).Publishes done success disconnected := by
  cases l <;> exact h

lemma ConnectStage.next_publishes {s : Shared} {c : Choice} {stage : ConnectStage} {a : Access}
    {pc : WorkerPC} (h : stage.next s c = some (a, pc))
    (hs : stage.Publishes s.connectionDone s.success s.disconnected) :
    pc.Publishes (s.apply a).connectionDone (s.apply a).success (s.apply a).disconnected := by
  cases stage with
  | drain e stage rest reason =>
      have hquiet : a.ofConnectRun = false := by
        cases stage <;> simp only [ConnectStage.next, CompleteStage.next] at h
        all_goals grind [Access.ofConnectRun]
      obtain ⟨hdone, hsuccess, hdisconnected⟩ := Shared.apply_flags (s := s) hquiet
      rw [hdone, hsuccess, hdisconnected]
      cases stage <;> simp only [ConnectStage.next, CompleteStage.next] at h
      all_goals obtain ⟨-, rfl⟩ := by simpa using h
      case setFinished => exact ConnectStage.drainNext_publishes reason rest hs
      all_goals exact hs
  | failClose =>
      obtain ⟨rfl, rfl⟩ := by simpa [ConnectStage.next] using h
      exact ConnectStage.drainNext_publishes (connectFailureReason s) s.queue hs
  | attemptConnection =>
      simp only [ConnectStage.next] at h
      split at h
      · obtain ⟨rfl, rfl⟩ : _ = a ∧ _ = pc := by simpa using h
        exact hs
      · obtain ⟨rfl, rfl⟩ : _ = a ∧ _ = pc := by simpa using h
        exact hs
      · exact absurd h (by simp)
  | lockConnect =>
      simp only [ConnectStage.next] at h
      split at h
      · exact absurd h (by simp)
      · obtain ⟨rfl, rfl⟩ := by simpa using h
        exact hs
  | failReturn =>
      obtain ⟨rfl, rfl⟩ := by simpa [ConnectStage.next] using h
      obtain ⟨hdone, hsuccess, hdisconnected⟩ := hs
      exact ⟨hdone, hsuccess.trans hdisconnected.symm⟩
  | failDisconnected =>
      obtain ⟨rfl, rfl⟩ := by simpa [ConnectStage.next] using h
      exact ⟨hs.1, hs.2.1, rfl⟩
  | failSuccess | storeSuccess =>
      obtain ⟨rfl, rfl⟩ := by simpa [ConnectStage.next] using h
      exact ⟨hs.1, rfl, hs.2.2⟩
  | failDone | storeDone =>
      obtain ⟨rfl, rfl⟩ := by simpa [ConnectStage.next] using h
      exact ⟨rfl, hs.2.1, hs.2.2⟩
  | failStatus | failCanWait | storeConnected | unlockConnect =>
      obtain ⟨rfl, rfl⟩ := by simpa [ConnectStage.next] using h
      exact hs

lemma WorkerPC.next_publishes {s : Shared} {c : Choice} {pc pc' : WorkerPC} {a : Access}
    (h : pc.next s c = some (a, pc'))
    (hpc : pc.Publishes s.connectionDone s.success s.disconnected) :
    pc'.Publishes (s.apply a).connectionDone (s.apply a).success (s.apply a).disconnected := by
  cases pc with
  | notStarted | ended => exact absurd h (by simp [WorkerPC.next])
  | connecting stage => exact ConnectStage.next_publishes h hpc
  | taking =>
      simp only [WorkerPC.next] at h
      split at h
      · split at h
        · obtain ⟨rfl, rfl⟩ := by simpa using h
          exact hpc
        · exact absurd h (by simp)
      · obtain ⟨rfl, rfl⟩ := by simpa using h
        exact hpc
  | running e r =>
      obtain ⟨hdone, hsuccess, hdisconnected⟩ := Shared.apply_flags (s := s)
        (RunStage.next_ofConnectRun h)
      rw [hdone, hsuccess, hdisconnected]
      rcases RunStage.next_pc h with rfl | ⟨r', rfl⟩
      · exact hpc
      · exact hpc
  | leaving stage =>
      cases stage with
      | storeDisconnected =>
          obtain ⟨rfl, rfl⟩ := by simpa [WorkerPC.next, LeaveStage.next] using h
          exact ⟨hpc.1, hpc.2.1, rfl⟩
      | storeNotConnected =>
          obtain ⟨rfl, rfl⟩ := by simpa [WorkerPC.next, LeaveStage.next] using h
          exact ⟨hpc.1, hpc.2.1.trans hpc.2.2.symm⟩
      | testStatus =>
          simp only [WorkerPC.next, LeaveStage.next] at h
          split at h <;> obtain ⟨rfl, rfl⟩ := by simpa using h
          · exact hpc
          · exact ⟨hpc.1, hpc.2.1.trans hpc.2.2.symm⟩
      | resetSession =>
          simp only [WorkerPC.next, LeaveStage.next] at h
          split at h
          · obtain ⟨rfl, rfl⟩ := by simpa using h
            exact hpc
          · exact absurd h (by simp)
      | storeCanWait =>
          obtain ⟨rfl, rfl⟩ := by simpa [WorkerPC.next, LeaveStage.next] using h
          exact hpc

lemma MainPC.next_ofConnectRun {s : Shared} {c : Choice} {pc pc' : MainPC} {a : Access}
    (h : pc.next s c = some (a, pc')) : a.ofConnectRun = false := by
  cases pc with
  | enqueue e stage =>
      cases stage <;> simp only [MainPC.next, EnqueueStage.next] at h
      all_goals grind [Access.ofConnectRun]
  | abort e stage =>
      cases stage <;> simp only [MainPC.next, AbortStage.next] at h
      all_goals grind [Access.ofConnectRun]
  | cancel d stage caller =>
      cases stage <;> simp only [MainPC.next, CancelStage.next] at h
      all_goals repeat' split at h
      all_goals grind [Access.ofConnectRun]
  | abortAll stage g =>
      cases stage <;> simp only [MainPC.next, AbortAllStage.next] at h
      all_goals grind [Access.ofConnectRun]
  | shutdown stage join g =>
      cases stage <;> simp only [MainPC.next, ShutdownStage.next] at h
      all_goals grind [Access.ofConnectRun]
  | waiting e stage =>
      cases stage with
      | complete stage =>
          cases stage <;> simp only [MainPC.next, WaitStage.next, CompleteStage.next] at h
          all_goals grind [Access.ofConnectRun]
      | _ =>
          simp only [MainPC.next, WaitStage.next] at h
          grind [Access.ofConnectRun]
  | ping stage =>
      cases stage <;> simp only [MainPC.next, PingStage.next] at h
      all_goals grind [Access.ofConnectRun, ReconnectStage.next_access]
  | connect stage =>
      cases stage <;> simp only [MainPC.next, ConnectCallStage.next] at h
      all_goals grind [Access.ofConnectRun]
  | idle | joining => exact absurd h (by simp [MainPC.next])

lemma WorkerPC.past_of_disconnected {pc : WorkerPC} {done success disconnected : Bool}
    (h : pc.Publishes done success disconnected) (hd : disconnected = true) :
    pc = .leaving .testStatus ∨ pc = .leaving .storeNotConnected ∨ pc = .ended := by
  cases pc with
  | connecting stage =>
      cases stage <;> exact absurd (hd.symm.trans h.2.2) (by simp)
  | leaving stage =>
      cases stage with
      | testStatus => exact .inl rfl
      | storeNotConnected => exact .inr (.inl rfl)
      | _ => exact absurd (hd.symm.trans h.2.2) (by simp)
  | ended => exact .inr (.inr rfl)
  | _ => exact absurd (hd.symm.trans h.2.2) (by simp)

/-- Once set, `m_connectionDone` stays set. -/
lemma Shared.connectionDone_apply {s : Shared} {a : Access} (h : s.connectionDone = true) :
    (s.apply a).connectionDone = true := by
  cases a with
  | connectSession error => cases error <;> exact h
  | setConnectionDone => rfl
  | _ => exact h

lemma WorkerPC.next_setSuccess {s : Shared} {c : Choice} {pc pc' : WorkerPC} {v : Bool}
    (h : pc.next s c = some (.setSuccess v, pc')) :
    pc = .connecting .failSuccess ∨ pc = .connecting .storeSuccess := by
  cases pc with
  | running e r => exact absurd (RunStage.next_ofConnectRun h) (by simp [Access.ofConnectRun])
  | connecting stage =>
      cases stage with
      | failSuccess => exact .inl rfl
      | storeSuccess => exact .inr rfl
      | drain e stage rest reason =>
          cases stage <;> simp only [WorkerPC.next, ConnectStage.next, CompleteStage.next] at h
          all_goals exact absurd h (by simp)
      | _ =>
          simp only [WorkerPC.next, ConnectStage.next] at h
          repeat' split at h
          all_goals exact absurd h (by simp)
  | taking =>
      simp only [WorkerPC.next] at h
      repeat' split at h
      all_goals exact absurd h (by simp)
  | leaving stage =>
      cases stage <;> simp only [WorkerPC.next, LeaveStage.next] at h
      all_goals repeat' split at h
      all_goals exact absurd h (by simp)
  | notStarted | ended => exact absurd h (by simp [WorkerPC.next])

/-- The worker thread reconnects only for an execution. -/
lemma WorkerPC.next_addReconnect {s : Shared} {c : Choice} {pc pc' : WorkerPC} {success : Bool}
    (h : pc.next s c = some (.addReconnect success, pc')) : ∃ e r, pc = .running e r := by
  cases pc with
  | running e r => exact ⟨e, r, rfl⟩
  | connecting stage =>
      cases stage with
      | drain e stage rest reason =>
          cases stage <;> simp only [WorkerPC.next, ConnectStage.next, CompleteStage.next] at h
          all_goals exact absurd h (by simp)
      | _ =>
          simp only [WorkerPC.next, ConnectStage.next] at h
          repeat' split at h
          all_goals exact absurd h (by simp)
  | taking =>
      simp only [WorkerPC.next] at h
      repeat' split at h
      all_goals exact absurd h (by simp)
  | leaving stage =>
      cases stage <;> simp only [WorkerPC.next, LeaveStage.next] at h
      all_goals repeat' split at h
      all_goals exact absurd h (by simp)
  | notStarted | ended => exact absurd h (by simp [WorkerPC.next])

/-- Once `disconnected` is set, the worker thread completes nothing. -/
lemma WorkerPC.next_disconnected {s : Shared} {c : Choice} {pc pc' : WorkerPC} {a : Access}
    (h : pc.next s c = some (a, pc'))
    (hpc : pc.Publishes s.connectionDone s.success s.disconnected)
    (hd : s.disconnected = true) : a = .read ∨ ∃ v, a = .setDatabaseStatus v := by
  rcases WorkerPC.past_of_disconnected hpc hd with rfl | rfl | rfl
  · simp only [WorkerPC.next, LeaveStage.next] at h
    split at h <;> obtain ⟨rfl, -⟩ := by simpa using h
    · exact .inl rfl
    · exact .inl rfl
  · obtain ⟨rfl, -⟩ := by simpa [WorkerPC.next, LeaveStage.next] using h
    exact .inr ⟨_, rfl⟩
  · exact absurd h (by simp [WorkerPC.next])

namespace State

variable {C : State → Action → Prop} {s : State}

/-- The worker thread stands where the flags say. -/
def Publishes (s : State) : Prop :=
  s.workerPC.Publishes s.connectionDone s.success s.disconnected

theorem publishes_of_reach (h : system.Reach C s) : s.Publishes := by
  refine system_invariant (I := Publishes) ⟨rfl, rfl, rfl⟩ (fun s t a hr hI _ hstep => ?_) h
  cases hstep with
  | worker hnext => exact WorkerPC.next_publishes hnext hI
  | @main c a pc hspawn hnext =>
      obtain ⟨hdone, hsuccess, hdisconnected⟩ := Shared.apply_flags (s := s.toShared)
        (MainPC.next_ofConnectRun hnext)
      have hkept : s.workerPC.Publishes (s.stepMain a pc).connectionDone
          (s.stepMain a pc).success (s.stepMain a pc).disconnected := by
        rw [show (s.stepMain a pc).connectionDone = _ from hdone,
          show (s.stepMain a pc).success = _ from hsuccess,
          show (s.stepMain a pc).disconnected = _ from hdisconnected]
        exact hI
      exact hkept
  | spawn hpc =>
      -- the thread is started once, from the initial flags
      have hworker := ((startedOnce hr).connecting _ hpc (by simp) (by simp)).1
      have hI : s.workerPC.Publishes s.connectionDone s.success s.disconnected := hI
      rw [hworker] at hI
      exact hI
  | join hpc hworker => exact hI
  | call hidle hcall => cases hcall <;> exact hI
  | connectionLost => exact hI

/-- Once set, `disconnected` stays set. -/
lemma disconnected_of_step {t : State} {a : Action} (hr : system.Reach C s) (h : Step s a t)
    (hs : s.disconnected = true) : t.disconnected = true := by
  have hpublishes : s.workerPC.Publishes s.connectionDone s.success s.disconnected :=
    publishes_of_reach hr
  cases h with
  | @worker c a pc hnext =>
      by_cases hconnect : a.ofConnectRun = true
      · -- the thread is past every store to the flags
        rcases WorkerPC.past_of_disconnected hpublishes hs with hpc | hpc | hpc
        all_goals
          rw [hpc] at hnext
          simp only [WorkerPC.next, LeaveStage.next] at hnext
          grind [Access.ofConnectRun]
      · exact (Shared.apply_flags (Bool.eq_false_iff.2 hconnect)).2.2.trans hs
  | main hspawn hnext => exact (Shared.apply_flags (MainPC.next_ofConnectRun hnext)).2.2.trans hs
  | spawn hpc => exact hs
  | join hpc hworker => exact hs
  | call hidle hcall => cases hcall <;> exact hs
  | connectionLost => exact hs

/-- Once set, `m_connectionDone` stays set. -/
lemma connectionDone_of_step {t : State} {a : Action} (h : Step s a t)
    (hs : s.connectionDone = true) : t.connectionDone = true := by
  cases h with
  | worker hnext => exact Shared.connectionDone_apply hs
  | main hspawn hnext => exact Shared.connectionDone_apply hs
  | spawn hpc => exact hs
  | join hpc hworker => exact hs
  | call hidle hcall => cases hcall <;> exact hs
  | connectionLost => exact hs

/-- Once `m_connectionDone` is set, `m_success` says whether the connection was made. -/
lemma success_of_step {t : State} {a : Action} (hr : system.Reach C s) (h : Step s a t)
    (hdone : s.connectionDone = true) : t.success = s.success := by
  have hpublishes : s.workerPC.Publishes s.connectionDone s.success s.disconnected :=
    publishes_of_reach hr
  have happly : ∀ b : Access, (∀ v, b ≠ .setSuccess v) →
      (s.toShared.apply b).success = s.success := by
    intro b hb
    cases b with
    | connectSession error => cases error <;> rfl
    | setSuccess v => exact absurd rfl (hb v)
    | _ => rfl
  cases h with
  | @worker c b pc hnext =>
      refine happly b fun v hb => ?_
      subst hb
      rcases WorkerPC.next_setSuccess hnext with hpc | hpc
      all_goals
        rw [hpc] at hpublishes
        exact absurd (hdone.symm.trans hpublishes.1) (by simp)
  | main hspawn hnext =>
      refine happly _ fun v hb => ?_
      subst hb
      exact absurd (MainPC.next_ofConnectRun hnext) (by simp [Access.ofConnectRun])
  | spawn hpc => rfl
  | join hpc hworker => rfl
  | call hidle hcall => cases hcall <;> rfl
  | connectionLost => rfl

end State

end GmsvPg.Database
