/-
# Bulk aborts

`abortAllQueries`, and `shutdown` before it closes the queue, inspect the queue, the in-flight
slot and the active slot one after the other, with no common lock, while the worker thread
moves its execution from one place to the next.  This file states at which points of the two
threads an execution can slip between two inspections, shows that a bulk abort misses nothing
in every run without such a step, and that `abortAllQueries` counts each execution once.
-/
import GmsvPg.Database.Abort
import GmsvPg.Database.Cancel

namespace GmsvPg.Database

open Library Machine

/-! ### What the inspections rest on -/

/-- The points of `run` at which the execution is in the in-flight slot. -/
def RunStage.inFlight : RunStage → Bool
  | .setInFlight | .unlockAborted => false
  | _ => true

lemma RunStage.next_inFlight {s : Shared} {c : Choice} {e : Execution} {r r' : RunStage}
    {a : Access} (h : r.next s c e = some (a, .running e r')) (hr' : r'.inFlight = true) :
    a = .setInFlight e ∨ r.inFlight = true ∧ a ≠ .clearInFlight e := by
  cases r <;> simp only [RunStage.next] at h
  all_goals repeat' split at h
  all_goals grind [RunStage.inFlight, ReconnectStage.next_access]

lemma RunStage.next_enterGuard {s : Shared} {c : Choice} {e x : Execution} {r : RunStage}
    {pc : WorkerPC} (h : r.next s c e = some (.enterGuard x, pc)) : r = .enterGuard := by
  cases r <;> simp only [RunStage.next] at h
  all_goals repeat' split at h
  all_goals grind [ReconnectStage.next_access]

/-- The points of `attemptReconnect` after an attempt that succeeded. -/
def ReconnectStage.connected : ReconnectStage → Bool
  | .storeStatus success | .logEvent success => success
  | .testShuttingDown | .clearActive | .storeNotConnected | .resetSession
  | .attemptConnection => false

/-- The points of `run` and `runQuery` at which the session has a connection: it was tested,
or has just been made. -/
def RunStage.connected : RunStage → Bool
  | .enterGuard => true
  | .reconnectFirst r => r.connected
  | _ => false

/-- The accesses that change the connection of the session. -/
def Access.ofSession : Access → Bool
  | .resetSession | .connectSession _ => true
  | _ => false

lemma RunStage.connected_locked {r : RunStage} (h : r.connected = true) : r.locked = true := by
  cases r <;> first | rfl | exact absurd h (by simp [RunStage.connected])

lemma ReconnectStage.next_connected {s : Shared} {c : Choice} {r : ReconnectStage}
    {a : Access} {z : ReconnectStage ⊕ Bool} (h : r.next s c = some (a, z))
    (hz : z = .inr true ∨ ∃ r', z = .inl r' ∧ r'.connected = true) :
    a = .connectSession none ∨ a.ofSession = false ∧ r.connected = true := by
  cases r with
  | attemptConnection =>
      simp only [ReconnectStage.next] at h
      split at h
      · rename_i error
        cases error <;> grind [ReconnectStage.connected, Access.ofSession]
      · exact absurd h (by simp)
  | _ =>
      simp only [ReconnectStage.next] at h
      grind [ReconnectStage.connected, Access.ofSession]

lemma RunStage.next_connected {s : Shared} {c : Choice} {e : Execution} {r r' : RunStage}
    {a : Access} (h : r.next s c e = some (a, .running e r')) (hr' : r'.connected = true) :
    a = .connectSession none ∨
      a.ofSession = false ∧ (r.connected = true ∨ s.session.isOpen = true) := by
  cases r with
  | reconnectFirst stage =>
      simp only [RunStage.next] at h
      split at h
      · rename_i hstage
        obtain ⟨rfl, rfl⟩ : _ ∧ _ := by simpa using h
        exact (ReconnectStage.next_connected hstage (.inr ⟨_, rfl, hr'⟩)).imp_right
          (And.imp_right Or.inl)
      · rename_i hstage
        obtain ⟨rfl, -⟩ : _ ∧ _ := by simpa using h
        exact (ReconnectStage.next_connected hstage (.inl rfl)).imp_right (And.imp_right Or.inl)
      · obtain ⟨-, rfl⟩ : _ ∧ _ := by simpa using h
        exact absurd hr' (by simp [RunStage.connected])
      · exact absurd h (by simp)
  | testOpen =>
      simp only [RunStage.next] at h
      split at h
      · rename_i hopen
        obtain ⟨rfl, -⟩ : _ ∧ _ := by simpa using h
        exact .inr ⟨rfl, .inr hopen⟩
      · obtain ⟨-, rfl⟩ : _ ∧ _ := by simpa using h
        exact absurd hr' (by simp [RunStage.connected])
  | _ =>
      simp only [RunStage.next] at h
      repeat' split at h
      all_goals grind [RunStage.connected, ReconnectStage.connected]

lemma MainPC.next_ofSession {s : Shared} {c : Choice} {pc pc' : MainPC} {a : Access}
    (h : pc.next s c = some (a, pc')) (ha : a.ofSession = true) : pc.locked = true := by
  cases pc with
  | enqueue e stage =>
      cases stage <;> simp only [MainPC.next, EnqueueStage.next] at h
      all_goals grind [Access.ofSession]
  | abort e stage =>
      cases stage <;> simp only [MainPC.next, AbortStage.next] at h
      all_goals grind [Access.ofSession]
  | cancel d stage caller =>
      cases stage <;> simp only [MainPC.next, CancelStage.next] at h
      all_goals grind [Access.ofSession]
  | abortAll stage g =>
      cases stage <;> simp only [MainPC.next, AbortAllStage.next] at h
      all_goals grind [Access.ofSession]
  | shutdown stage join g =>
      cases stage <;> simp only [MainPC.next, ShutdownStage.next] at h
      all_goals grind [Access.ofSession]
  | waiting e stage =>
      cases stage with
      | complete stage =>
          cases stage <;> simp only [MainPC.next, WaitStage.next, CompleteStage.next] at h
          all_goals grind [Access.ofSession]
      | _ =>
          simp only [MainPC.next, WaitStage.next] at h
          grind [Access.ofSession]
  | ping stage =>
      cases stage <;> simp only [MainPC.next, PingStage.next] at h
      all_goals grind [MainPC.locked, Access.ofSession]
  | connect stage =>
      cases stage <;> simp only [MainPC.next, ConnectCallStage.next] at h
      all_goals grind [Access.ofSession]
  | idle | joining => exact absurd h (by simp [MainPC.next])

namespace Shared

variable {s : Shared} {a : Access} {e : Execution}

lemma apply_inFlight_of_ne (h : s.inFlight = some e) (hset : ∀ x, a ≠ .setInFlight x)
    (hclear : a ≠ .clearInFlight e) : (s.apply a).inFlight = some e := by
  cases a with
  | connectSession error => cases error <;> exact h
  | setInFlight x => exact absurd rfl (hset x)
  | clearInFlight x =>
      have hne : e ≠ x := fun hx => hclear (hx ▸ rfl)
      simp [apply, h, hne]
  | _ => exact h

lemma apply_connectionHandle (h : a.ofSession = false) :
    (s.apply a).session.connectionHandle = s.session.connectionHandle := by
  cases a with
  | resetSession | connectSession => exact absurd h (by simp [Access.ofSession])
  | _ => rfl

lemma apply_activeConnection (h : a.ofActive = false ∨ (∃ d, a = .addAlias d) ∨
    ∃ d, a = .removeAlias d) :
    (s.apply a).activeQuery.activeConnection = s.activeQuery.activeConnection := by
  rcases h with h | ⟨d, rfl⟩ | ⟨d, rfl⟩
  · rw [apply_activeQuery h]
  · rfl
  · rfl

lemma apply_shuttingDown (h : s.shuttingDown = true) : (s.apply a).shuttingDown = true := by
  cases a with
  | connectSession error => cases error <;> exact h
  | setShuttingDown => rfl
  | _ => exact h

end Shared

namespace State

variable {C : State → Action → Prop} {s t : State}

/-- The execution of the worker thread is in the in-flight slot; it is `QUERY_WAITING`, or
already `QUERY_ABORTED`, until `run` has decided about it; and once it is published as active,
it is so with a connection. -/
structure Tracked (s : State) : Prop where
  inFlight : ∀ e r, s.workerPC = .running e r → r.inFlight = true → s.inFlight = some e
  untested : ∀ e r, s.workerPC = .running e r → r.verdict = .untested →
    (s.own e).status = .waiting ∨ (s.own e).status = .aborted
  session : ∀ e r, s.workerPC = .running e r → r.connected = true →
    s.session.connectionHandle.isSome = true
  active : ∀ e r, s.workerPC = .running e r → r.guarded = true →
    s.activeQuery.activeConnection.isSome = true

theorem tracked_of_reach (h : system.Reach C s) : s.Tracked := by
  refine system_invariant (I := Tracked) ⟨by simp, by simp, by simp, by simp⟩
    (fun s t a hr hI _ hstep => ?_) h
  cases hstep with
  | @worker c a pc hnext =>
      refine ⟨fun e r hpc hr' => ?_, fun e r hpc hr' => ?_, fun e r hpc hr' => ?_,
        fun e r hpc hr' => ?_⟩
      all_goals
        obtain rfl : pc = .running e r := hpc
        rcases WorkerPC.next_running hnext with ⟨r₀, hpc, hrun⟩ | ⟨-, rfl, rfl, rest, hrest⟩
      · rcases RunStage.next_inFlight hrun hr' with rfl | ⟨hr₀, hclear⟩
        · rfl
        · refine Shared.apply_inFlight_of_ne (hI.inFlight e r₀ hpc hr₀) (fun x hx => ?_) hclear
          obtain ⟨-, rfl⟩ := RunStage.next_setInFlight (hx ▸ hrun)
          exact absurd hr₀ (by simp [RunStage.inFlight])
      · exact absurd hr' (by simp [RunStage.inFlight])
      · have hr₀ : r₀.verdict = .untested := by
          rcases RunStage.next_verdict hrun with ⟨-, -, -, r₁, hpc₁, hr₁⟩ |
            ⟨-, ⟨hpc₁, -⟩ | ⟨r₁, hpc₁, hr₁ | ⟨hr₀, -⟩⟩⟩
          · obtain ⟨-, rfl⟩ := WorkerPC.running.inj hpc₁
            exact absurd (hr₁.symm.trans hr') (by simp)
          · exact absurd hpc₁ (by simp)
          · obtain ⟨-, rfl⟩ := WorkerPC.running.inj hpc₁
            exact hr₁.symm.trans hr'
          · exact hr₀
        have hstatus : ((s.stepWorker a (.running e r)).own e).status = _ := Shared.apply_status
        rw [hstatus]
        cases hst : a.statusStore e with
        | none => exact hI.untested e r₀ hpc hr₀
        | some v => exact .inr ((RunStage.next_statusStore hrun hst).1 (by simp [hr₀]))
      · exact .inl ((fresh_of_reach hr).queued e (hrest ▸ List.mem_cons_self)).2
      · rcases RunStage.next_connected hrun hr' with rfl | ⟨ha, hr₀ | hopen⟩
        · rfl
        · rw [show (s.stepWorker a (.running e r)).session.connectionHandle = _ from
            Shared.apply_connectionHandle ha]
          exact hI.session e r₀ hpc hr₀
        · rw [show (s.stepWorker a (.running e r)).session.connectionHandle = _ from
            Shared.apply_connectionHandle ha]
          exact (Bool.and_eq_true_iff.1 hopen).1
      · exact absurd hr' (by simp [RunStage.connected])
      · have hactive : (WorkerPC.running e r).active = some e := by simp [WorkerPC.active, hr']
        rcases RunStage.next_active hrun with ⟨rfl, -, -⟩ | ⟨-, hnone⟩ | ⟨i, ha, hr₀, -⟩ |
          ⟨ha, hkeep⟩
        · exact hI.session e r₀ hpc (RunStage.next_enterGuard hrun ▸ rfl)
        · exact absurd (hnone.symm.trans hactive) (by simp)
        · rw [show (s.stepWorker a (.running e r)).activeQuery.activeConnection = _ from
            Shared.apply_activeConnection (.inr (ha.imp (⟨_, ·⟩) (⟨_, ·⟩)))]
          exact hI.active e r₀ hpc hr₀
        · rw [show (s.stepWorker a (.running e r)).activeQuery.activeConnection = _ from
            Shared.apply_activeConnection (.inl ha)]
          refine hI.active e r₀ hpc ?_
          by_contra hr₀
          exact absurd (hkeep.symm.trans hactive) (by simp [WorkerPC.active, hr₀])
      · exact absurd hr' (by simp [RunStage.guarded])
  | @main c a pc hspawn hnext =>
      have hofRun := MainPC.next_ofRun hnext
      -- the worker thread is at none of these points while `ping` reconnects
      have hfree : s.mainPC.locked = true → ∀ e r, s.workerPC = .running e r →
          r.locked = false := by
        intro hlocked e r hpc
        have hworker := not_both_locked hr hlocked
        rw [hpc] at hworker
        exact hworker
      refine ⟨fun e r hpc hr' => ?_, fun e r hpc hr' => ?_, fun e r hpc hr' => ?_,
        fun e r hpc hr' => ?_⟩
      · refine Shared.apply_inFlight_of_ne (hI.inFlight e r hpc hr') (fun x => ?_) ?_
        all_goals
          rintro rfl
          exact absurd hofRun (by simp [Access.ofRun])
      · have hstatus : ((s.stepMain a pc).own e).status = _ := Shared.apply_status
        rw [hstatus]
        cases hst : a.statusStore e with
        | none => exact hI.untested e r hpc hr'
        | some v =>
            obtain ⟨-, rfl⟩ := markAborted_of_store hr hnext
              ((taken_of_reach hr).running e r hpc) (by simp [hst])
            obtain rfl : QueryStatus.aborted = v := by simpa [Access.statusStore] using hst
            exact .inr rfl
      · cases ha : a.ofSession with
        | true =>
            have := hfree (MainPC.next_ofSession hnext ha) e r hpc
            exact absurd (this.symm.trans (RunStage.connected_locked hr')) (by simp)
        | false =>
            rw [show (s.stepMain a pc).session.connectionHandle = _ from
              Shared.apply_connectionHandle ha]
            exact hI.session e r hpc hr'
      · rcases MainPC.next_ofActive hnext with ha | ⟨rfl, hlocked⟩
        · rw [show (s.stepMain a pc).activeQuery.activeConnection = _ from
            Shared.apply_activeConnection (.inl ha)]
          exact hI.active e r hpc hr'
        · have := hfree hlocked e r hpc
          exact absurd (this.symm.trans (RunStage.guarded_locked hr')) (by simp)
  | spawn hpc => exact ⟨by simp, by simp, by simp, by simp⟩
  | join hpc hworker => exact ⟨hI.inFlight, hI.untested, hI.session, hI.active⟩
  | call hidle hcall => cases hcall <;> exact ⟨hI.inFlight, hI.untested, hI.session, hI.active⟩
  | connectionLost => exact ⟨hI.inFlight, hI.untested, hI.session, hI.active⟩

end State

/-! ### Where a bulk abort stands -/

/-- The callers of `cancelRunningQuery` that have cleared the queue. -/
def CancelCaller.cleared : CancelCaller → Bool
  | .abortAll _ => true
  | .abortQuery | .shutdown _ _ => false

/-- The points of a bulk abort after the queue was cleared; it stays empty. -/
def MainPC.cleared : MainPC → Bool
  | .abortAll stage _ => decide (stage ≠ .clearQueue)
  | .shutdown stage _ _ =>
      match stage with
      | .storeRemoved _ _ _ | .setFinished _ _ _ | .finish _ => true
      | .exchange | .storeStatus | .readActive | .readInFlight | .testInFlight _
      | .storeInFlight _ | .closeAndClear | .returnResult => false
  | .cancel _ _ caller => caller.cleared
  | _ => false

/-- The callers of `cancelRunningQuery` that have set `m_shuttingDown`. -/
def CancelCaller.shutting : CancelCaller → Bool
  | .shutdown _ _ => true
  | .abortQuery | .abortAll _ => false

/-- The points of `shutdown` after `m_shuttingDown` was set. -/
def MainPC.shutting : MainPC → Bool
  | .shutdown stage _ _ => decide (stage ≠ .exchange)
  | .cancel _ _ caller => caller.shutting
  | _ => false

/-- The points of a bulk abort after the inspection of the active slot, each with the data it
has dealt with, or is about to: the data found active while the cancellation is under way. -/
def MainPC.targets : MainPC → Option (List DataId)
  | .cancel d .lookup (.abortAll _) | .cancel d (.send _) (.abortAll _)
  | .cancel d .lookup (.shutdown _ _) | .cancel d (.send _) (.shutdown _ _) => some [d]
  | .abortAll .returnResult g => some g.affected
  | .shutdown .readInFlight _ g | .shutdown (.testInFlight _) _ g
  | .shutdown (.storeInFlight _) _ g | .shutdown .closeAndClear _ g
  | .shutdown (.storeRemoved _ _ _) _ g | .shutdown (.setFinished _ _ _) _ g
  | .shutdown (.finish _) _ g => some g.affected
  | _ => none

/-- The points of `shutdown` between the two inspections of what the worker thread has, up to
the store of `QUERY_ABORTED`, that are about the execution `e`. -/
def MainPC.awaits (e : Execution) : MainPC → Bool
  | .cancel _ _ (.shutdown _ _) | .shutdown .readInFlight _ _ => true
  | .shutdown (.testInFlight x) _ _ | .shutdown (.storeInFlight x) _ _ => decide (x = e)
  | _ => false

/-- The callers of `cancelRunningQuery` that abort more than one execution. -/
def CancelCaller.bulk : CancelCaller → Bool
  | .abortQuery => false
  | .abortAll _ | .shutdown _ _ => true

/-- The points of a cancellation by a bulk abort. -/
def MainPC.cancelling : MainPC → Bool
  | .cancel _ _ caller => caller.bulk
  | _ => false

/-- The point of such a cancellation after `PQcancel` failed. -/
def MainPC.cancelFailed : MainPC → Bool
  | .cancel _ stage caller => decide (stage = .clearRequest) && caller.bulk
  | _ => false

/-- A bulk abort has done its work: `abortAllQueries` returns by the next step, and so does
`shutdown`, unless an earlier call has set `m_shuttingDown`. -/
inductive MainPC.Swept : MainPC → BulkResult → Prop
  | abortAll {g : BulkResult} : Swept (.abortAll .returnResult g) g
  | shutdown {join : Bool} {g : BulkResult} : Swept (.shutdown (.finish []) join g) g

/-- The points of `runQuery` before the guard's constructor. -/
def RunStage.unguarded : RunStage → Bool
  | .storeRunning | .testOpen | .testAutoReconnect | .reconnectFirst _ | .enterGuard => true
  | _ => false

/-! ### The condition -/

/-- `PQgetCancel` or `PQcancel` fails for a bulk abort. -/
def State.cancelFails (s : State) : Action → Bool
  | .main c => s.mainPC.cancelling && decide (c = .gotCancel false ∨ c = .cancelSent false)
  | _ => false

/-- The worker thread has let its execution pass and not yet published it as active, and it is
not marked. -/
def State.unpublished (s : State) : Bool :=
  match s.workerPC with
  | .running e r =>
      r.unguarded && decide ((s.own e).status ≠ .aborted ∨ r = .storeRunning)
  | _ => false

/-- The worker thread has not yet decided about its execution, and it is not marked. -/
def State.undecided (s : State) : Bool :=
  match s.workerPC with
  | .running e r => decide (r.verdict = .untested ∧ (s.own e).status ≠ .aborted)
  | _ => false

/-- The worker thread has left the guard of an execution that was not cancelled and has not
yet finished it, or is completing executions after a failed connection attempt. -/
def State.completing (s : State) (g : BulkResult) : Bool :=
  match s.workerPC with
  | .running e r =>
      decide (r.verdict = .passed) && !r.unguarded && !r.guarded && !r.settled &&
        decide ((s.own e).status ≠ .aborted ∧ DataId.own e ∉ g.affected)
  | .connecting (.drain _ _ _ _) => true
  | _ => false

/-- The step lets an execution slip past a bulk abort. -/
def State.slips (s : State) : Action → Bool
  | .main _ =>
      match s.mainPC with
      | .abortAll (.storeInFlight e) _ => decide (e ∈ s.history.passed)
      | .abortAll .readActive _ => s.undecided || s.unpublished
      | .abortAll .returnResult g => s.completing g
      | .shutdown .readActive _ _ => s.unpublished
      | .shutdown (.finish []) _ g => s.undecided || s.completing g
      | _ => false
  | .worker c =>
      match s.workerPC.next s.toShared c with
      | some (.pass e, _) => s.mainPC.awaits e
      | _ => false
  | _ => false

/-- The assumption on a step that `PQgetCancel` and `PQcancel` succeed for a bulk abort. -/
def CancelsSucceed (s : State) (a : Action) : Prop := s.cancelFails a = false

instance (s : State) (a : Action) : Decidable (CancelsSucceed s a) :=
  inferInstanceAs (Decidable (_ = false))

/-- The condition on a step under which a bulk abort misses nothing. -/
structure NothingSlips (s : State) (a : Action) : Prop where
  cancels : CancelsSucceed s a
  slips : s.slips a = false

instance (s : State) (a : Action) : Decidable (NothingSlips s a) :=
  decidable_of_iff (CancelsSucceed s a ∧ s.slips a = false)
    ⟨fun h => ⟨h.1, h.2⟩, fun h => ⟨h.1, h.2⟩⟩

/-! ### What a bulk abort has established -/

lemma CancelCaller.resume_cleared (d : DataId) (requested : Bool) (caller : CancelCaller) :
    (caller.resume d requested).cleared = caller.cleared := by
  cases caller <;> rfl

lemma CancelCaller.resume_shutting (d : DataId) (requested : Bool) (caller : CancelCaller) :
    (caller.resume d requested).shutting = caller.shutting := by
  cases caller <;> rfl

lemma MainPC.next_sweeping {s : Shared} {c : Choice} {pc pc' : MainPC} {a : Access}
    (h : pc.next s c = some (a, pc')) :
    (pc'.cleared = true → (pc.cleared = true ∧ ∀ e, a ≠ .put e) ∨ a = .clearQueue ∨
      a = .closeAndClear) ∧
    (pc'.shutting = true → pc.shutting = true ∨ a = .setShuttingDown ∨ s.shuttingDown = true) := by
  have hsource := MainPC.next_source h
  cases pc with
  | cancel d stage caller =>
      cases stage <;> simp only [MainPC.next, CancelStage.next] at h
      all_goals repeat' split at h
      all_goals grind [MainPC.cleared, MainPC.shutting, CancelCaller.resume_cleared,
        CancelCaller.resume_shutting]
  | abortAll stage g =>
      cases stage <;> simp only [MainPC.next, AbortAllStage.next] at h
      all_goals repeat' split at h
      all_goals grind [MainPC.cleared, MainPC.shutting, CancelCaller.cleared, CancelCaller.shutting]
  | shutdown stage join g =>
      cases stage <;> simp only [MainPC.next, ShutdownStage.next, ShutdownStage.nextQueued] at h
      all_goals repeat' split at h
      all_goals grind [MainPC.cleared, MainPC.shutting, CancelCaller.cleared, CancelCaller.shutting]
  | _ =>
      cases pc' with
      | cancel d stage caller =>
          cases caller <;> simp_all [Source, cleared, shutting, CancelCaller.cleared,
            CancelCaller.shutting]
      | _ => simp_all [Source, cleared, shutting]

namespace State

variable {C : State → Action → Prop} {s t : State}

/-- `shutdown` has set `m_shuttingDown`, and a bulk abort that has cleared the queue finds it
empty from then on. -/
structure Sweeping (s : State) : Prop where
  queue : s.mainPC.cleared = true → s.queue = []
  shuttingDown : s.mainPC.shutting = true → s.shuttingDown = true

theorem sweeping_of_reach (h : system.Reach C s) : s.Sweeping := by
  refine system_invariant (I := Sweeping) ⟨by simp [MainPC.cleared], by simp [MainPC.shutting]⟩
    (fun s t a hr hI _ hstep => ?_) h
  have hempty : ∀ a : Access, s.queue = [] → (∀ e, a ≠ .put e) →
      (s.toShared.apply a).queue = [] := by
    intro a hqueue hput
    refine List.eq_nil_iff_forall_not_mem.2 fun e he => ?_
    rcases Shared.mem_queue_apply he with he | rfl
    · exact absurd (hqueue ▸ he) List.not_mem_nil
    · exact hput e rfl
  cases hstep with
  | @worker c a pc hnext =>
      refine ⟨fun hpc => ?_, fun hpc => ?_⟩
      · exact hempty a (hI.queue hpc) (WorkerPC.next_moves hnext).ne_put
      · exact Shared.apply_shuttingDown (hI.shuttingDown hpc)
  | @main c a pc hspawn hnext =>
      obtain ⟨hcleared, hshutting⟩ := MainPC.next_sweeping hnext
      refine ⟨fun hpc => ?_, fun hpc => ?_⟩
      · rcases hcleared hpc with ⟨hpc, hput⟩ | rfl | rfl
        · exact hempty a (hI.queue hpc) hput
        · rfl
        · rfl
      · rcases hshutting hpc with hpc | rfl | hdown
        · exact Shared.apply_shuttingDown (hI.shuttingDown hpc)
        · rfl
        · exact Shared.apply_shuttingDown hdown
  | spawn hpc => exact ⟨by simp [MainPC.cleared], by simp [MainPC.shutting]⟩
  | join hpc hworker => exact ⟨by simp [MainPC.cleared], by simp [MainPC.shutting]⟩
  | call hidle hcall =>
      cases hcall with
      | start => exact ⟨by simp [MainPC.cleared], by simp [MainPC.shutting]⟩
      | enter hentry =>
          refine ⟨fun hpc => ?_, fun hpc => ?_⟩
          · cases hentry <;> exact absurd hpc (by simp [MainPC.cleared, CancelCaller.cleared])
          · cases hentry <;> exact absurd hpc (by simp [MainPC.shutting, CancelCaller.shutting])
      | swapToFront =>
          refine ⟨fun hpc => absurd (hidle ▸ hpc : MainPC.cleared .idle = true) ?_,
            hI.shuttingDown⟩
          simp [MainPC.cleared]
      | _ => exact ⟨hI.queue, hI.shuttingDown⟩
  | connectionLost => exact ⟨hI.queue, hI.shuttingDown⟩

end State

/-- The points at which a bulk abort inspects the active slot. -/
def MainPC.inspects : MainPC → Bool
  | .abortAll stage _ => decide (stage = .readActive)
  | .shutdown stage _ _ => decide (stage = .readActive)
  | _ => false

/-- What a bulk abort is about to do after its inspection of the active slot, or what it has
dealt with before, it has dealt with in the end. -/
lemma MainPC.next_targets {s : Shared} {c : Choice} {pc pc' : MainPC} {a : Access}
    {T' : List DataId} (h : pc.next s c = some (a, pc')) (hT' : pc'.targets = some T') :
    pc'.shutting = pc.shutting ∧
      ((pc.inspects = true ∧ (∀ d, s.activeQuery.activeData = some d → d ∈ T') ∧
          (pc.shutting = true → ∀ e, pc'.awaits e = true)) ∨
        pc.cancelFailed = true ∨
        ∃ T, pc.targets = some T ∧ ∀ d ∈ T, d ∈ T' ∨
          s.activeQuery.matchesActive d = false ∨ s.activeQuery.activeConnection = none ∨
            c = .gotCancel false ∧ pc.cancelling = true) := by
  have hsource := MainPC.next_source h
  cases pc with
  | cancel d stage caller =>
      cases caller <;> cases stage <;>
        simp only [MainPC.next, CancelStage.next, CancelCaller.resume] at h
      all_goals repeat' split at h
      all_goals simp only [Option.some.injEq, Prod.mk.injEq, reduceCtorEq] at h
      all_goals
        obtain ⟨rfl, rfl⟩ := h
        simp only [targets, Option.some.injEq, reduceCtorEq] at hT'
      all_goals
        subst hT'
        simp_all [targets, shutting, inspects, cancelling, cancelFailed, CancelCaller.shutting,
          CancelCaller.bulk, BulkResult.request]
  | abortAll stage g =>
      cases stage <;> simp only [MainPC.next, AbortAllStage.next, AbortAllStage.nextQueued] at h
      all_goals repeat' split at h
      all_goals grind [MainPC.targets, MainPC.shutting, MainPC.inspects, CancelCaller.shutting]
  | shutdown stage join g =>
      cases stage <;> simp only [MainPC.next, ShutdownStage.next, ShutdownStage.nextQueued] at h
      all_goals repeat' split at h
      all_goals grind [MainPC.targets, MainPC.shutting, MainPC.awaits, MainPC.inspects,
        CancelCaller.shutting, BulkResult.request]
  | _ =>
      cases pc' with
      | cancel d stage caller => cases caller <;> cases stage <;> simp_all [Source, targets]
      | _ => simp_all [Source, targets]

/-- `shutdown` is about to mark an execution until it has done so, unless the execution is not
in flight, or not `QUERY_WAITING`. -/
lemma MainPC.next_awaits {s : Shared} {c : Choice} {pc pc' : MainPC} {a : Access}
    {e : Execution} (h : pc.next s c = some (a, pc')) (hpc : pc.awaits e = true) :
    pc'.awaits e = true ∨ a = .markAborted e ∨ s.inFlight ≠ some e ∨
      (s.own e).status ≠ .waiting := by
  cases pc with
  | cancel d stage caller =>
      cases caller <;> cases stage <;>
        simp only [MainPC.next, CancelStage.next, CancelCaller.resume] at h
      all_goals repeat' split at h
      all_goals grind [MainPC.awaits]
  | shutdown stage join g =>
      cases stage <;> simp only [MainPC.next, ShutdownStage.next] at h
      all_goals repeat' split at h
      all_goals grind [MainPC.awaits]
  | _ => exact absurd hpc (by simp [MainPC.awaits])

lemma MainPC.next_cancelFailed {s : Shared} {c : Choice} {pc pc' : MainPC} {a : Access}
    (h : pc.next s c = some (a, pc')) (hpc' : pc'.cancelFailed = true) :
    c = .cancelSent false ∧ pc.cancelling = true := by
  have hsource := MainPC.next_source h
  cases pc with
  | cancel d stage caller =>
      cases caller <;> cases stage <;>
        simp only [MainPC.next, CancelStage.next, CancelCaller.resume] at h
      all_goals repeat' split at h
      all_goals grind [MainPC.cancelFailed, MainPC.cancelling, CancelCaller.bulk]
  | _ =>
      cases pc' with
      | cancel d stage caller => cases caller <;> simp_all [Source, cancelFailed, CancelCaller.bulk]
      | _ => simp_all [cancelFailed]

lemma RunStage.next_unguarded {s : Shared} {c : Choice} {e : Execution} {r r' : RunStage}
    {a : Access} (h : r.next s c e = some (a, .running e r')) (hr' : r'.unguarded = true) :
    (a = .pass e ∧ r = .testStatusLocked ∧ (s.own e).status ≠ .aborted) ∨
      (r.unguarded = true ∧ r' ≠ .storeRunning ∧
        (r ≠ .storeRunning → a.statusStore e = none)) := by
  cases r <;> simp only [RunStage.next] at h
  all_goals repeat' split at h
  all_goals grind [RunStage.unguarded, Access.statusStore, ReconnectStage.next_access]

lemma RunStage.next_guarded {s : Shared} {c : Choice} {e : Execution} {r r' : RunStage}
    {a : Access} (h : r.next s c e = some (a, .running e r')) (hr' : r'.guarded = true) :
    (r.guarded = true ∨ r.unguarded = true) ∧ a.statusStore e = none := by
  cases r <;> simp only [RunStage.next] at h
  all_goals repeat' split at h
  all_goals grind [RunStage.guarded, RunStage.unguarded, Access.statusStore,
    ReconnectStage.next_access]

lemma RunStage.next_untested {s : Shared} {c : Choice} {e : Execution} {r r' : RunStage}
    {a : Access} (h : r.next s c e = some (a, .running e r')) (hr' : r'.verdict = .untested) :
    r.verdict = .untested ∧ (r' = .testStatusLocked → s.shuttingDown = false) := by
  cases r <;> simp only [RunStage.next] at h
  all_goals repeat' split at h
  all_goals grind [RunStage.verdict, ReconnectStage.next_access]

namespace State

variable {C : State → Action → Prop} {s t : State}

/-- What a bulk abort has established about the execution of the worker thread once it has
inspected the active slot, and dealt with the data in `T`, or is about to. -/
structure Seen (s : State) (T : List DataId) : Prop where
  untested : ∀ e r, s.workerPC = .running e r → r.verdict = .untested →
    (s.own e).status = .aborted ∨
      s.mainPC.shutting = true ∧ (r = .testStatusLocked → s.mainPC.awaits e = true)
  unguarded : ∀ e r, s.workerPC = .running e r → r.unguarded = true →
    (s.own e).status = .aborted ∧ r ≠ .storeRunning
  guarded : ∀ e r, s.workerPC = .running e r → r.guarded = true →
    (s.own e).status = .aborted ∨ .own e ∈ T

lemma Seen.mono {T T' : List DataId} (h : s.Seen T) (hT : ∀ d ∈ T, d ∈ T') : s.Seen T' :=
  ⟨h.untested, h.unguarded, fun e r hpc hr => (h.guarded e r hpc hr).imp_right (hT _)⟩

/-- The bulk abort has missed nothing so far. -/
structure Sees (s : State) : Prop where
  seen : ∀ T, s.mainPC.targets = some T → s.Seen T
  cancelFailed : s.mainPC.cancelFailed = false

lemma cleared_or_shutting {pc : MainPC} {T : List DataId} (h : pc.targets = some T) :
    pc.cleared = true ∨ pc.shutting = true := by
  unfold MainPC.targets at h
  split at h <;> simp_all [MainPC.cleared, MainPC.shutting, CancelCaller.cleared,
    CancelCaller.shutting]

lemma Seen.stepWorker (h : system.Reach C s) {T : List DataId} (hI : s.Seen T)
    (hT : s.mainPC.targets = some T) {c : Choice} {a : Access} {pc : WorkerPC}
    (hnext : s.workerPC.next s.toShared c = some (a, pc))
    (hslips : s.slips (.worker c) = false) : (s.stepWorker a pc).Seen T := by
  refine ⟨fun e r hpc hr => ?_, fun e r hpc hr => ?_, fun e r hpc hr => ?_⟩
  all_goals
    obtain rfl : pc = .running e r := hpc
    rcases WorkerPC.next_running hnext with ⟨r₀, hpc, hrun⟩ | ⟨-, rfl, rfl, rest, hrest⟩
  · obtain ⟨hr₀, hdown⟩ := RunStage.next_untested hrun hr
    rcases hI.untested e r₀ hpc hr₀ with haborted | ⟨hshutting, -⟩
    · have hcondemned : s.Condemned e := by
        refine ⟨(taken_of_reach h).running e r₀ hpc, fun hp => ?_, haborted⟩
        have := ((decided_of_reach h).running e r₀ hpc).1 hp
        exact absurd (this.symm.trans hr₀) (by simp)
      exact .inl (hcondemned.step h (.worker hnext)).aborted
    · refine .inr ⟨hshutting, fun hr' => ?_⟩
      exact absurd ((hdown hr').symm.trans ((sweeping_of_reach h).shuttingDown hshutting)) (by simp)
  · rcases cleared_or_shutting hT with hcleared | hshutting
    · exact absurd (((sweeping_of_reach h).queue hcleared).symm.trans hrest) (by simp)
    · exact .inr ⟨hshutting, by simp⟩
  · rcases RunStage.next_unguarded hrun hr with ⟨rfl, rfl, hne⟩ | ⟨hr₀, hne, hstore⟩
    · rcases hI.untested e _ hpc rfl with haborted | ⟨-, hawaits⟩
      · exact absurd haborted hne
      · have hslip : s.slips (.worker c) = s.mainPC.awaits e := by
          simp only [slips, hnext]
        exact absurd (hslips.symm.trans (hslip.trans (hawaits rfl))) (by simp)
    · obtain ⟨haborted, hne₀⟩ := hI.unguarded e r₀ hpc hr₀
      exact ⟨(Shared.apply_status_of_none (hstore hne₀)).trans haborted, hne⟩
  · exact absurd hr (by simp [RunStage.unguarded])
  · obtain ⟨hr₀, hstore⟩ := RunStage.next_guarded hrun hr
    have hstatus : ((s.stepWorker a (.running e r)).own e).status = _ :=
      Shared.apply_status_of_none hstore
    rw [hstatus]
    rcases hr₀ with hr₀ | hr₀
    · exact hI.guarded e r₀ hpc hr₀
    · exact .inl (hI.unguarded e r₀ hpc hr₀).1
  · exact absurd hr (by simp [RunStage.guarded])

lemma unpublished_of_inspects {c : Choice} (h : s.slips (.main c) = false)
    (hpc : s.mainPC.inspects = true) :
    s.unpublished = false ∧ (s.mainPC.shutting = false → s.undecided = false) := by
  cases hmain : s.mainPC with
  | abortAll stage g =>
      obtain rfl : stage = .readActive := by simpa [hmain, MainPC.inspects] using hpc
      simp only [slips, hmain, Bool.or_eq_false_iff] at h
      exact ⟨h.2, fun _ => h.1⟩
  | shutdown stage join g =>
      obtain rfl : stage = .readActive := by simpa [hmain, MainPC.inspects] using hpc
      simp only [slips, hmain] at h
      exact ⟨h, fun hdown => absurd hdown (by simp [MainPC.shutting])⟩
  | _ => exact absurd hpc (by simp [hmain, MainPC.inspects])

lemma Seen.stepMain (h : system.Reach C s) (hI : s.Sees) {c : Choice} {a : Access} {pc : MainPC}
    (hnext : s.mainPC.next s.toShared c = some (a, pc)) (hC : NothingSlips s (.main c))
    {T : List DataId} (hT : pc.targets = some T) : (s.stepMain a pc).Seen T := by
  have htracked := tracked_of_reach h
  -- the main thread stores nothing but `QUERY_ABORTED` in what the worker thread runs
  have hkeep : ∀ e r, s.workerPC = .running e r → (s.own e).status = .aborted →
      ((s.stepMain a pc).own e).status = .aborted := by
    intro e r hpc haborted
    refine Shared.apply_status.trans ?_
    cases hst : a.statusStore e with
    | none => exact haborted
    | some v =>
        obtain ⟨-, rfl⟩ := markAborted_of_store h hnext ((taken_of_reach h).running e r hpc)
          (by simp [hst])
        obtain rfl : QueryStatus.aborted = v := by simpa [Access.statusStore] using hst
        rfl
  have hpublished : ∀ e r, s.workerPC = .running e r → r.guarded = true →
      s.activeQuery.activeData = some (.own e) := by
    intro e r hpc hr
    exact ((published_of_reach h).some e (by simp [hpc, WorkerPC.active, hr])).1
  obtain ⟨hshutting, ⟨hinspects, hactive, hawaits⟩ | hfailed | ⟨T₀, hT₀, hdealt⟩⟩ :=
    MainPC.next_targets hnext hT
  · obtain ⟨hunpublished, hundecided⟩ := unpublished_of_inspects hC.slips hinspects
    refine ⟨fun e r hpc hr => ?_, fun e r hpc hr => ?_, fun e r hpc hr => ?_⟩
    · cases hdown : s.mainPC.shutting with
      | true => exact .inr ⟨hshutting.trans hdown, fun _ => hawaits hdown e⟩
      | false =>
          have hpc : s.workerPC = .running e r := hpc
          have hundecided := hundecided hdown
          simp only [undecided, hpc, hr] at hundecided
          exact .inl (hkeep e r hpc (by simpa using hundecided))
    · have hpc : s.workerPC = .running e r := hpc
      have haborted : (s.own e).status = .aborted ∧ r ≠ .storeRunning := by
        simpa [unpublished, hpc, hr] using hunpublished
      exact ⟨hkeep e r hpc haborted.1, haborted.2⟩
    · exact .inr (hactive _ (hpublished e r hpc hr))
  · exact absurd (hI.cancelFailed.symm.trans hfailed) (by simp)
  · have hseen := hI.seen T₀ hT₀
    refine ⟨fun e r hpc hr => ?_, fun e r hpc hr => ?_, fun e r hpc hr => ?_⟩
    · rcases hseen.untested e r hpc hr with haborted | ⟨hdown, hawaits⟩
      · exact .inl (hkeep e r hpc haborted)
      · by_cases hlocked : r = .testStatusLocked
        · rcases MainPC.next_awaits hnext (hawaits hlocked) with hawaits | rfl | hflight | hwaiting
          · exact .inr ⟨hshutting.trans hdown, fun _ => hawaits⟩
          · refine .inl (?_ : ((s.toShared.apply (.markAborted e)).own e).status = .aborted)
            rw [Shared.apply_status]
            simp [Access.statusStore]
          · exact absurd (htracked.inFlight e r hpc (hlocked ▸ rfl)) hflight
          · exact .inl (hkeep e r hpc ((htracked.untested e r hpc hr).resolve_left hwaiting))
        · exact .inr ⟨hshutting.trans hdown, fun hr' => absurd hr' hlocked⟩
    · obtain ⟨haborted, hne⟩ := hseen.unguarded e r hpc hr
      exact ⟨hkeep e r hpc haborted, hne⟩
    · rcases hseen.guarded e r hpc hr with haborted | hmem
      · exact .inl (hkeep e r hpc haborted)
      · rcases hdealt _ hmem with hmem | hmatch | hconn | ⟨rfl, hcancelling⟩
        · exact .inr hmem
        · exact absurd (hmatch.symm.trans
            (ActiveQueryState.matchesActive_iff.2 (.inl (hpublished e r hpc hr)))) (by simp)
        · exact absurd (htracked.active e r hpc hr) (by simp [hconn])
        · exact absurd hC.cancels (by simp [CancelsSucceed, cancelFails, hcancelling])

theorem sees_of_reach (h : system.Reach NothingSlips s) : s.Sees := by
  refine system_invariant (I := Sees) ⟨by simp [MainPC.targets], rfl⟩
    (fun s t a hr hI hC hstep => ?_) h
  cases hstep with
  | @worker c a pc hnext =>
      exact ⟨fun T hT => (hI.seen T hT).stepWorker hr hT hnext hC.slips, hI.cancelFailed⟩
  | @main c a pc hspawn hnext =>
      refine ⟨fun T hT => .stepMain hr hI hnext hC hT, ?_⟩
      refine Bool.eq_false_iff.2 fun hfailed => ?_
      obtain ⟨rfl, hcancelling⟩ := MainPC.next_cancelFailed hnext hfailed
      exact absurd hC.cancels (by simp [CancelsSucceed, cancelFails, hcancelling])
  | spawn hpc => exact ⟨by simp [MainPC.targets], rfl⟩
  | join hpc hworker => exact ⟨by simp [MainPC.targets], rfl⟩
  | call hidle hcall =>
      have hnone : ∀ T, s.mainPC.targets ≠ some T := by simp [hidle, MainPC.targets]
      cases hcall with
      | start => exact ⟨by simp [MainPC.targets], rfl⟩
      | enter hentry => cases hentry <;> exact ⟨by simp [MainPC.targets], rfl⟩
      | _ => exact ⟨fun T hT => absurd hT (hnone T), hI.cancelFailed⟩
  | connectionLost =>
      refine ⟨fun T hT => ?_, hI.cancelFailed⟩
      exact ⟨(hI.seen T hT).untested, (hI.seen T hT).unguarded, (hI.seen T hT).guarded⟩

/-- A bulk abort misses nothing. -/
lemma nothing_missed (h : system.Reach NothingSlips s) {c : Choice}
    (hC : NothingSlips s (.main c)) {g : BulkResult} (hg : s.mainPC.Swept g) {e : Execution}
    (he : e ∈ s.history.accepted) :
    (s.own e).finished = true ∨ (s.own e).status = .aborted ∨ .own e ∈ g.affected := by
  have hplace : s.queue = [] ∧ s.mainPC.pending = [] ∧ s.mainPC.targets = some g.affected ∧
      s.completing g = false ∧ (s.mainPC.shutting = true → s.undecided = false) := by
    have hslips := hC.slips
    have hqueue := (sweeping_of_reach h).queue
    cases hpc : s.mainPC with
    | abortAll stage g' =>
        rw [hpc] at hg hqueue
        cases hg
        simp only [slips, hpc] at hslips
        exact ⟨hqueue rfl, rfl, rfl, hslips, by simp [MainPC.shutting]⟩
    | shutdown stage join g' =>
        rw [hpc] at hg hqueue
        cases hg
        simp only [slips, hpc, Bool.or_eq_false_iff] at hslips
        exact ⟨hqueue rfl, rfl, rfl, hslips.2, fun _ => hslips.1⟩
    | _ => exact absurd (hpc ▸ hg) (by rintro ⟨⟩)
  obtain ⟨hqueue, hmain, htargets, hcompleting, hundecided⟩ := hplace
  have hseen := (sees_of_reach h).seen _ htargets
  have hdecided := decided_of_reach h
  rcases unsettled h he with hq | hw | hm | hfinished
  · exact absurd (hqueue ▸ hq) List.not_mem_nil
  · cases hpc : s.workerPC with
    | running x r =>
        rw [hpc] at hw
        obtain ⟨hsettled, rfl⟩ : r.settled = false ∧ e = x := by
          cases hr : r.settled <;> simp_all [WorkerPC.pending]
        refine .inr ?_
        cases hverdict : r.verdict with
        | untested =>
            rcases hseen.untested e r hpc hverdict with haborted | ⟨hdown, -⟩
            · exact .inl haborted
            · have hundecided := hundecided hdown
              exact .inl (by simpa [undecided, hpc, hverdict] using hundecided)
        | refused =>
            have hnot : e ∉ s.history.passed := fun hp =>
              absurd (((hdecided.running e r hpc).1 hp).symm.trans hverdict) (by simp)
            rcases hdecided.refused e ((taken_of_reach h).running e r hpc) hnot with
              ⟨r', hpc', hr'⟩ | haborted
            · obtain ⟨-, rfl⟩ := WorkerPC.running.inj (hpc.symm.trans hpc')
              exact absurd (hverdict.symm.trans hr') (by simp)
            · exact .inl haborted
        | passed =>
            by_cases hu : r.unguarded = true
            · exact .inl (hseen.unguarded e r hpc hu).1
            · by_cases hg' : r.guarded = true
              · exact hseen.guarded e r hpc hg'
              · have : ¬((s.own e).status ≠ .aborted ∧ DataId.own e ∉ g.affected) := by
                  simpa [completing, hpc, hverdict, hu, hg', hsettled] using hcompleting
                tauto
    | connecting stage =>
        cases stage with
        | drain => exact absurd hcompleting (by simp [completing, hpc])
        | _ => exact absurd (hpc ▸ hw) List.not_mem_nil
    | _ => exact absurd (hpc ▸ hw) List.not_mem_nil
  · exact absurd (hmain ▸ hm) List.not_mem_nil
  · exact .inl hfinished

end State

/-! ### What a bulk abort has collected -/

/-- The result a bulk abort has collected so far. -/
def MainPC.collected : MainPC → Option BulkResult
  | .abortAll _ g | .shutdown _ _ g | .cancel _ _ (.abortAll g) | .cancel _ _ (.shutdown _ g) =>
      some g
  | _ => none

/-- The points of `abortAllQueries` before the inspection of the active slot. -/
def AbortAllStage.listing : AbortAllStage → Bool
  | .clearQueue | .storeRemoved _ _ | .setFinished _ _ | .readInFlight | .testInFlight _
  | .storeInFlight _ => true
  | .readActive | .returnResult => false

/-- What an access adds to the result of a bulk abort: an execution removed from the queue and
finished, an execution marked in flight, or a cancellation requested. -/
inductive BulkResult.Extends (pc : MainPC) : Access → BulkResult → BulkResult → Prop
  | keep {a : Access} {g : BulkResult} : Extends pc a g g
  | complete {e : Execution} {g : BulkResult} (h : e ∈ pc.pending) :
      Extends pc (.setFinished e) g (g.complete e)
  | close {e : Execution} {g : BulkResult} (h : e ∈ pc.pending) :
      Extends pc (.setFinished e) g (g.request (.own e))
  | mark {e : Execution} {g : BulkResult} (h : pc.inspected = some e) :
      Extends pc (.markAborted e) g (g.request (.own e))
  | cancel {d : DataId} {connection : ℕ} {g : BulkResult} :
      Extends pc (.sendCancel d connection) g (g.request d)

lemma MainPC.next_collected {s : Shared} {c : Choice} {pc pc' : MainPC} {a : Access}
    {g' : BulkResult} (h : pc.next s c = some (a, pc')) (hg' : pc'.collected = some g') :
    ∃ g, pc.collected = some g ∧ BulkResult.Extends pc a g g' := by
  have hsource := MainPC.next_source h
  cases pc with
  | cancel d stage caller =>
      cases caller <;> cases stage <;>
        simp only [MainPC.next, CancelStage.next, CancelCaller.resume] at h
      all_goals repeat' split at h
      all_goals simp only [Option.some.injEq, Prod.mk.injEq, reduceCtorEq] at h
      all_goals
        obtain ⟨rfl, rfl⟩ := h
        simp only [collected, Option.some.injEq, reduceCtorEq] at hg'
      all_goals
        subst hg'
        first
          | exact ⟨_, rfl, .keep⟩
          | exact ⟨_, rfl, .cancel⟩
          | contradiction
  | abortAll stage g =>
      refine ⟨g, rfl, ?_⟩
      cases stage <;> simp only [MainPC.next, AbortAllStage.next] at h
      all_goals repeat' split at h
      all_goals grind [MainPC.collected, MainPC.pending, MainPC.inspected, BulkResult.Extends]
  | shutdown stage join g =>
      refine ⟨g, rfl, ?_⟩
      cases stage <;> simp only [MainPC.next, ShutdownStage.next] at h
      all_goals repeat' split at h
      all_goals grind [MainPC.collected, MainPC.pending, MainPC.inspected, BulkResult.Extends]
  | _ =>
      cases pc' with
      | cancel d stage caller => cases caller <;> simp_all [Source, collected]
      | _ => simp_all [Source, collected]

lemma MainPC.next_listing {s : Shared} {c : Choice} {pc : MainPC} {a : Access}
    {stage : AbortAllStage} {g : BulkResult}
    (h : pc.next s c = some (a, .abortAll stage g)) (hstage : stage.listing = true) :
    ∃ stage₀ g₀, pc = .abortAll stage₀ g₀ ∧ stage₀.listing = true ∧
      (g = g₀ ∨ ∃ e, g = g₀.complete e) := by
  rcases MainPC.next_source h with ⟨stage₀, g₀, rfl⟩ | ⟨d, stage₀, g₀, rfl⟩
  · refine ⟨stage₀, g₀, rfl, ?_⟩
    cases stage₀ <;> simp only [MainPC.next, AbortAllStage.next] at h
    all_goals repeat' split at h
    all_goals grind [AbortAllStage.listing]
  · cases stage₀ <;> simp only [MainPC.next, CancelStage.next, CancelCaller.resume] at h
    all_goals repeat' split at h
    all_goals grind [AbortAllStage.listing]

lemma MainPC.next_readActive {s : Shared} {c : Choice} {pc : MainPC} {a : Access}
    {g : BulkResult} (h : pc.next s c = some (a, .abortAll .readActive g)) :
    ∃ stage₀ g₀, pc = .abortAll stage₀ g₀ ∧ stage₀.listing = true ∧
      (g = g₀ ∨ ∃ e, stage₀ = .storeInFlight e ∧ a = .markAborted e ∧
        g = g₀.request (.own e)) := by
  rcases MainPC.next_source h with ⟨stage₀, g₀, rfl⟩ | ⟨d, stage₀, g₀, rfl⟩
  · refine ⟨stage₀, g₀, rfl, ?_⟩
    cases stage₀ <;> simp only [MainPC.next, AbortAllStage.next, AbortAllStage.nextQueued] at h
    all_goals repeat' split at h
    all_goals grind [AbortAllStage.listing]
  · cases stage₀ <;> simp only [MainPC.next, CancelStage.next, CancelCaller.resume] at h
    all_goals repeat' split at h
    all_goals grind

lemma MainPC.next_cancelling {s : Shared} {c : Choice} {pc : MainPC} {a : Access}
    {d : DataId} {stage : CancelStage} {g : BulkResult}
    (h : pc.next s c = some (a, .cancel d stage (.abortAll g))) :
    (∃ stage₀, pc = .cancel d stage₀ (.abortAll g)) ∨
      pc = .abortAll .readActive g ∧ s.activeQuery.activeData = some d := by
  rcases MainPC.next_source h with ⟨stage₀, rfl⟩ |
    ⟨rfl, ⟨e, hcaller, -⟩ | ⟨g', hcaller, rfl⟩ | ⟨join, g', hcaller, -⟩⟩
  · exact .inl ⟨stage₀, rfl⟩
  · exact absurd hcaller (by simp)
  · obtain rfl := CancelCaller.abortAll.inj hcaller
    refine .inr ⟨rfl, ?_⟩
    simp only [MainPC.next, AbortAllStage.next] at h
    grind
  · exact absurd hcaller (by simp)

lemma MainPC.next_bulkTarget {s : Shared} {c : Choice} {pc : MainPC} {a : Access}
    {d : DataId} {stage : CancelStage} {caller : CancelCaller}
    (h : pc.next s c = some (a, .cancel d stage caller)) (hcaller : caller.bulk = true) :
    (∃ stage₀, pc = .cancel d stage₀ caller) ∨ s.activeQuery.activeData = some d := by
  rcases MainPC.next_source h with ⟨stage₀, rfl⟩ |
    ⟨rfl, ⟨e, rfl, -⟩ | ⟨g, rfl, rfl⟩ | ⟨join, g, rfl, rfl⟩⟩
  · exact .inl ⟨stage₀, rfl⟩
  · exact absurd hcaller (by simp [CancelCaller.bulk])
  · simp only [MainPC.next, AbortAllStage.next] at h
    grind
  · simp only [MainPC.next, ShutdownStage.next] at h
    grind

lemma MainPC.next_returnResult {s : Shared} {c : Choice} {pc : MainPC} {a : Access}
    {g : BulkResult} (h : pc.next s c = some (a, .abortAll .returnResult g)) :
    pc = .abortAll .readActive g ∨
      ∃ d stage g₀, pc = .cancel d stage (.abortAll g₀) ∧ (g = g₀ ∨ g = g₀.request d) := by
  rcases MainPC.next_source h with ⟨stage₀, g₀, rfl⟩ | ⟨d, stage₀, g₀, rfl⟩
  · left
    cases stage₀ <;> simp only [MainPC.next, AbortAllStage.next, AbortAllStage.nextQueued] at h
    all_goals repeat' split at h
    all_goals grind
  · refine .inr ⟨d, stage₀, g₀, rfl, ?_⟩
    cases stage₀ <;> simp only [MainPC.next, CancelStage.next, CancelCaller.resume] at h
    all_goals repeat' split at h
    all_goals grind

namespace Shared

variable {s : Shared} {a : Access}

lemma mem_marked_of_mem {e : Execution} (h : e ∈ s.history.marked) :
    e ∈ (s.apply a).history.marked := by
  cases a with
  | connectSession error => cases error <;> exact h
  | markAborted x =>
      by_cases hx : x ∈ s.history.taken
      · simp [apply, record, modifyData, hx, h]
      · simpa [apply, record, modifyData, hx] using h
  | _ => exact h

lemma mem_cancels_of_mem {call : CancelCall} (h : call ∈ s.history.cancels) :
    call ∈ (s.apply a).history.cancels := by
  cases a with
  | connectSession error => cases error <;> exact h
  | sendCancel d connection => exact List.mem_append_left _ h
  | _ => exact h

end Shared

namespace State

variable {C : State → Action → Prop} {s t : State}

/-- An execution was removed from the queue and finished, or marked `QUERY_ABORTED` after it was
taken, or a cancellation was requested for it. -/
def Affected (s : State) (d : DataId) : Prop :=
  ∃ e, d = .own e ∧ ((s.own e).finished = true ∧ e ∉ s.history.taken ∨ e ∈ s.history.marked ∨
    ∃ call ∈ s.history.cancels, call.target = .own e)

lemma Affected.step (h : system.Reach C s) {d : DataId} (hd : s.Affected d) {a : Action}
    (hstep : Step s a t) : t.Affected d := by
  -- what is finished is not in the queue, so it is not taken later
  have happly : ∀ (b : Access) (u : State), u.toShared = s.toShared.apply b →
      (∀ e, b = .take e → e ∈ s.queue) → u.Affected d := by
    intro b u hu htake
    obtain ⟨e, rfl, he⟩ := hd
    refine ⟨e, rfl, ?_⟩
    rw [hu]
    refine he.imp (fun ⟨hfinished, htaken⟩ => ⟨Shared.apply_finished_mono hfinished, fun ht => ?_⟩)
      (Or.imp Shared.mem_marked_of_mem fun ⟨call, hcall, htarget⟩ =>
        ⟨call, Shared.mem_cancels_of_mem hcall, htarget⟩)
    rcases Shared.mem_of_mem_taken_apply ht with ht | rfl
    · exact htaken ht
    · have := ((fresh_of_reach h).queued e (htake e rfl)).1
      exact absurd (this.symm.trans hfinished) (by simp)
  cases hstep with
  | @worker c b pc hnext =>
      refine happly b _ rfl fun e hb => ?_
      obtain ⟨-, -, rest, hrest⟩ := WorkerPC.next_take (hb ▸ hnext)
      exact hrest ▸ List.mem_cons_self
  | @main c b pc hspawn hnext =>
      refine happly b _ rfl fun e hb => ?_
      exact absurd (hb ▸ MainPC.next_ofRun hnext) (by simp [Access.ofRun])
  | call hidle hcall => cases hcall <;> exact hd
  | _ => exact hd

/-- What a bulk abort has collected: it counts what it has affected, and nothing twice. -/
structure Counted (s : State) : Prop where
  affected : ∀ g, s.mainPC.collected = some g →
    g.requestedCount = g.affected.length ∧ ∀ d ∈ g.affected, s.Affected d
  target : ∀ d stage caller, s.mainPC = .cancel d stage caller → caller.bulk = true →
    d = .own d.execution
  listed : ∀ stage g, s.mainPC = .abortAll stage g → stage.listing = true →
    g.affected = g.completed.map .own
  marked : ∀ g, s.mainPC = .abortAll .readActive g → g.affected = g.completed.map .own ∨
    ∃ e, g.affected = g.completed.map .own ++ [.own e] ∧ s.Condemned e
  cancelling : ∀ d stage g, s.mainPC = .cancel d stage (.abortAll g) →
    g.affected.Nodup ∧ d ∉ g.affected
  returning : ∀ g, s.mainPC = .abortAll .returnResult g → g.affected.Nodup

/-- `abortAllQueries` holds what it has completed, each once, and nothing of it was taken. -/
lemma completed_nodup (h : system.Reach C s) {g : BulkResult}
    (hpc : s.mainPC = .abortAll .readActive g) :
    g.completed.Nodup ∧ ∀ e ∈ g.completed, e ∉ s.history.taken := by
  have hholds : s.mainPC.holds = g.completed := by rw [hpc]; rfl
  refine ⟨List.nodup_iff_count_le_one.2 fun e => ?_, fun e he ht => ?_⟩
  · have hplace := accounting h e
    have hnodup := List.nodup_iff_count_le_one.1 (numbered h).nodup e
    rw [hholds] at hplace
    omega
  · exact ((taken_of_reach h).main e ht).1 (hholds ▸ he)

/-- When `abortAllQueries` inspects the active slot, it has affected nothing twice, and nothing
that `run` has let pass. -/
lemma affected_nodup (h : system.Reach C s) {g : BulkResult}
    (hpc : s.mainPC = .abortAll .readActive g)
    (hmarked : g.affected = g.completed.map .own ∨
      ∃ e, g.affected = g.completed.map .own ++ [.own e] ∧ s.Condemned e) :
    g.affected.Nodup ∧ ∀ e ∈ s.history.passed, DataId.own e ∉ g.affected := by
  obtain ⟨hnodup, htaken⟩ := completed_nodup h hpc
  have hinj : Function.Injective DataId.own := fun e e' heq => DataId.own.inj heq
  have hpassed : ∀ e ∈ s.history.passed, DataId.own e ∉ g.completed.map DataId.own := by
    intro e he hmem
    obtain ⟨e', he', heq⟩ := List.mem_map.1 hmem
    obtain rfl := DataId.own.inj heq
    exact htaken _ he' ((decided_of_reach h).passed _ he)
  rcases hmarked with heq | ⟨x, heq, hcondemned⟩
  · rw [heq]
    exact ⟨hnodup.map hinj, hpassed⟩
  · rw [heq]
    refine ⟨List.nodup_append.2 ⟨hnodup.map hinj, List.nodup_singleton _, ?_⟩, fun e he hmem => ?_⟩
    · rintro d hd d' hd' rfl
      rw [List.mem_singleton.1 hd'] at hd
      obtain ⟨e', he', heq⟩ := List.mem_map.1 hd
      obtain rfl := DataId.own.inj heq
      exact htaken _ he' hcondemned.taken
    · rcases List.mem_append.1 hmem with hmem | hmem
      · exact hpassed e he hmem
      · obtain rfl := DataId.own.inj (List.mem_singleton.1 hmem)
        exact hcondemned.notMem_passed he

/-- What is published as active was let pass. -/
lemma passed_of_active (h : system.Reach C s) {e : Execution}
    (he : s.workerPC.active = some e) : e ∈ s.history.passed := by
  cases hpc : s.workerPC with
  | running x r =>
      have he : (WorkerPC.running x r).active = some e := hpc ▸ he
      by_cases hr : r.guarded = true
      · obtain rfl : x = e := by simpa [WorkerPC.active, hr] using he
        refine ((decided_of_reach h).running x r hpc).2 ?_
        cases r <;> simp_all [RunStage.guarded, RunStage.verdict]
      · exact absurd he (by simp [WorkerPC.active, hr])
  | _ => exact absurd (hpc ▸ he) (by simp [WorkerPC.active])

theorem counted_of_reach (h : system.Reach NothingSlips s) : s.Counted := by
  refine system_invariant (I := Counted) ⟨by simp [MainPC.collected], by simp, by simp, by simp,
    by simp, by simp⟩ (fun s t a hr hI hC hstep => ?_) h
  cases hstep with
  | @worker c a pc hnext =>
      have hstep : Step s (.worker c) (s.stepWorker a pc) := .worker hnext
      refine ⟨fun g hg => ?_, hI.target, hI.listed, fun g hpc => ?_, hI.cancelling, hI.returning⟩
      · exact ⟨(hI.affected g hg).1, fun d hd => ((hI.affected g hg).2 d hd).step hr hstep⟩
      · exact (hI.marked g hpc).imp_right fun ⟨e, heq, he⟩ => ⟨e, heq, he.step hr hstep⟩
  | @main c a pc hspawn hnext =>
      have hstep : Step s (.main c) (s.stepMain a pc) := .main hspawn hnext
      refine ⟨fun g hg => ?_, fun d stage caller hpc hcaller => ?_,
        fun stage g hpc hstage => ?_, fun g hpc => ?_, fun d stage g hpc => ?_, fun g hpc => ?_⟩
      · obtain ⟨g₀, hg₀, hextends⟩ := MainPC.next_collected hnext hg
        obtain ⟨hcount, haffected⟩ := hI.affected g₀ hg₀
        have hold : ∀ d ∈ g₀.affected, (s.stepMain a pc).Affected d := fun d hd =>
          (haffected d hd).step hr hstep
        -- one more is counted, and it is affected by the access
        have hnew : ∀ d, (s.stepMain a pc).Affected d →
            (g₀.request d).requestedCount = (g₀.request d).affected.length ∧
              ∀ d' ∈ (g₀.request d).affected, (s.stepMain a pc).Affected d' := by
          intro d hd
          refine ⟨by simp [BulkResult.request, hcount], fun d' hd' => ?_⟩
          rcases List.mem_append.1 hd' with hd' | hd'
          · exact hold d' hd'
          · exact List.mem_singleton.1 hd' ▸ hd
        have hfinished : ∀ e, a = .setFinished e → e ∈ s.mainPC.pending →
            (s.stepMain a pc).Affected (.own e) := by
          rintro e rfl he
          refine ⟨e, rfl, .inl ⟨Shared.apply_finished.2 (.inr rfl), fun ht => ?_⟩⟩
          exact ((taken_of_reach hr).main e ht).2 he
        cases hextends with
        | keep => exact ⟨hcount, hold⟩
        | complete he => exact hnew _ (hfinished _ rfl he)
        | close he => exact hnew _ (hfinished _ rfl he)
        | @mark e _ he =>
            refine hnew _ ⟨e, rfl, .inr (.inl ?_)⟩
            show e ∈ (if e ∈ s.history.taken then s.history.marked ++ [e] else s.history.marked)
            rw [if_pos ((taken_of_reach hr).inspected e he)]
            exact List.mem_append_right _ (List.mem_singleton_self e)
        | @cancel d connection _ =>
            obtain ⟨caller, hpc⟩ := MainPC.next_sendCancel hnext
            have hd : d = .own d.execution := by
              refine hI.target d _ caller hpc ?_
              cases caller <;> simp_all [MainPC.collected, CancelCaller.bulk]
            refine hnew d ⟨d.execution, hd, .inr (.inr ⟨⟨d, connection, s.activeQuery⟩, ?_, hd⟩)⟩
            exact List.mem_append_right _ (List.mem_singleton_self _)
      · obtain rfl : pc = .cancel d stage caller := hpc
        rcases MainPC.next_bulkTarget hnext hcaller with ⟨stage₀, hpc⟩ | hactive
        · exact hI.target d stage₀ caller hpc hcaller
        · have hdata :=
            (active_of_matches hr (ActiveQueryState.matchesActive_iff.2 (.inl hactive))).2
          exact Option.some.inj (hactive.symm.trans hdata)
      · obtain rfl : pc = .abortAll stage g := hpc
        obtain ⟨stage₀, g₀, hpc, hstage₀, rfl | ⟨e, rfl⟩⟩ := MainPC.next_listing hnext hstage
        · exact hI.listed stage₀ g hpc hstage₀
        · simp [BulkResult.complete, BulkResult.request, hI.listed stage₀ g₀ hpc hstage₀]
      · obtain rfl : pc = .abortAll .readActive g := hpc
        obtain ⟨stage₀, g₀, hpc, hstage₀, rfl | ⟨e, rfl, rfl, rfl⟩⟩ := MainPC.next_readActive hnext
        · exact .inl (hI.listed stage₀ g hpc hstage₀)
        · have hpassed : e ∉ s.history.passed := by
            have := hC.slips
            simpa [slips, hpc] using this
          refine .inr ⟨e, ?_, Shared.mem_taken_apply ?_, fun hp => ?_, ?_⟩
          · simp [BulkResult.request, hI.listed _ g₀ hpc hstage₀]
          · exact (taken_of_reach hr).inspected e (by rw [hpc]; rfl)
          · exact hpassed ((Shared.mem_passed_apply.1 hp).resolve_right (by simp))
          · show ((s.toShared.apply (.markAborted e)).own e).status = .aborted
            rw [Shared.apply_status]
            simp [Access.statusStore]
      · obtain rfl : pc = .cancel d stage (.abortAll g) := hpc
        rcases MainPC.next_cancelling hnext with ⟨stage₀, hpc⟩ | ⟨hpc, hactive⟩
        · exact hI.cancelling d stage₀ g hpc
        · obtain ⟨hnodup, hpassed⟩ := affected_nodup hr hpc (hI.marked g hpc)
          refine ⟨hnodup, ?_⟩
          obtain ⟨hworker, hdata⟩ :=
            active_of_matches hr (ActiveQueryState.matchesActive_iff.2 (.inl hactive))
          have heq : d = .own d.execution := Option.some.inj (hactive.symm.trans hdata)
          rw [heq]
          exact hpassed _ (passed_of_active hr hworker)
      · obtain rfl : pc = .abortAll .returnResult g := hpc
        rcases MainPC.next_returnResult hnext with hpc | ⟨d, stage, g₀, hpc, rfl | rfl⟩
        · exact (affected_nodup hr hpc (hI.marked g hpc)).1
        · exact (hI.cancelling d stage g hpc).1
        · obtain ⟨hnodup, hd⟩ := hI.cancelling d stage g₀ hpc
          refine List.nodup_append.2 ⟨hnodup, List.nodup_singleton _, ?_⟩
          rintro x hx y hy rfl
          exact hd (List.mem_singleton.1 hy ▸ hx)
  | spawn hpc => exact ⟨by simp [MainPC.collected], by simp, by simp, by simp, by simp, by simp⟩
  | join hpc hworker => exact ⟨by simp [MainPC.collected], by simp, by simp, by simp, by simp, by simp⟩
  | call hidle hcall =>
      cases hcall with
      | start => exact ⟨by simp [MainPC.collected], by simp, by simp, by simp, by simp, by simp⟩
      | enter hentry =>
          cases hentry with
          | abortAll =>
              refine ⟨fun g hg => ?_, by simp, fun stage g hpc _ => ?_, by simp, by simp, by simp⟩
              · obtain rfl : ({} : BulkResult) = g := Option.some.inj hg
                exact ⟨rfl, by simp⟩
              · obtain ⟨-, rfl⟩ := MainPC.abortAll.inj hpc
                rfl
          | shutdown =>
              refine ⟨fun g hg => ?_, by simp, by simp, by simp, by simp, by simp⟩
              obtain rfl : ({} : BulkResult) = g := Option.some.inj hg
              exact ⟨rfl, by simp⟩
          | cancel =>
              refine ⟨by simp [MainPC.collected], fun d stage caller hpc hcaller => ?_, by simp,
                by simp, by simp, by simp⟩
              obtain ⟨-, -, rfl⟩ := MainPC.cancel.inj hpc
              exact absurd hcaller (by simp [CancelCaller.bulk])
          | _ => exact ⟨by simp [MainPC.collected], by simp, by simp, by simp, by simp, by simp⟩
      | _ =>
          refine ⟨fun g hg => ?_, fun _ _ _ hpc => ?_, fun _ _ hpc => ?_, fun _ hpc => ?_,
            fun _ _ _ hpc => ?_, fun _ hpc => ?_⟩
          · exact absurd (hidle ▸ hg : MainPC.collected .idle = some g) (by simp [MainPC.collected])
          all_goals exact absurd (hidle.symm.trans hpc) (by simp)
  | connectionLost =>
      exact ⟨hI.affected, hI.target, hI.listed,
        fun g hpc => (hI.marked g hpc).imp_right fun ⟨e, heq, he⟩ =>
          ⟨e, heq, he.step hr .connectionLost⟩, hI.cancelling, hI.returning⟩

end State

/-- **A bulk abort misses nothing and counts each execution once** in every run in which no
execution slips between its inspections: when `abortAllQueries` returns, or `shutdown` after its
abort sequence, each accepted execution is finished, aborted, or affected by the call, which
removed it, marked it, or requested its cancellation; and `requestedCount` is the number of
executions that `abortAllQueries` affected. -/
theorem bulk_abort_complete {s : State} (h : system.Reach NothingSlips s) {c : Choice}
    (hC : NothingSlips s (.main c)) {g : BulkResult} (hg : s.mainPC.Swept g) :
    (∀ e ∈ s.history.accepted, (s.own e).finished = true ∨ (s.own e).status = .aborted ∨
      .own e ∈ g.affected) ∧
    (∀ d ∈ g.affected, s.Affected d) ∧
    (s.mainPC = .abortAll .returnResult g →
      g.requestedCount = (g.affected.map DataId.execution).toFinset.card) := by
  have hcounted := State.counted_of_reach h
  have hcollected : s.mainPC.collected = some g := by
    revert hg
    cases s.mainPC <;> rintro ⟨⟩ <;> rfl
  obtain ⟨hcount, haffected⟩ := hcounted.affected g hcollected
  refine ⟨fun e he => State.nothing_missed h hC hg he, haffected, fun hpc => ?_⟩
  have hnodup : (g.affected.map DataId.execution).Nodup := by
    refine (hcounted.returning g hpc).map_on fun d hd d' hd' heq => ?_
    obtain ⟨e, rfl, -⟩ := haffected d hd
    obtain ⟨e', rfl, -⟩ := haffected d' hd'
    exact congrArg DataId.own heq
  rw [hcount, List.toFinset_card_of_nodup hnodup, List.length_map]

/-- One execution is running and one is queued when `abortAllQueries` is called. -/
def abortAllRun : List Action :=
  connectSteps ++ connectedSteps ++ startSteps 0 0 ++ startSteps 1 0 ++ workerSteps 10 ++
    .call .abortAll :: mainSteps 6 ++ [.main (.gotCancel true), .main (.cancelSent true)]

theorem bulk_abort_complete_abortAllRun :
    ∃ s g, system.runIf NothingSlips system.init abortAllRun = some s ∧
      s.mainPC = .abortAll .returnResult g ∧ g.requestedCount = 2 ∧
      (∀ e ∈ s.history.accepted, (s.own e).finished = true ∨ (s.own e).status = .aborted ∨
        .own e ∈ g.affected) ∧
      (∀ d ∈ g.affected, s.Affected d) ∧
      (s.mainPC = .abortAll .returnResult g →
        g.requestedCount = (g.affected.map DataId.execution).toFinset.card) := by
  obtain ⟨s, hs⟩ : ∃ s, system.runIf NothingSlips system.init abortAllRun = some s := ⟨_, rfl⟩
  have hstate : (system.runIf NothingSlips system.init abortAllRun).map
      (fun s => (s.mainPC, decide (NothingSlips s (.main .go)))) =
        some (.abortAll .returnResult
          ⟨2, [⟨1, 1, 0⟩], [.own ⟨1, 1, 0⟩, .own ⟨0, 0, 0⟩]⟩, true) := rfl
  rw [hs, Option.map_some, Option.some.injEq, Prod.mk.injEq, decide_eq_true_eq] at hstate
  obtain ⟨hpc, hC⟩ := hstate
  exact ⟨s, _, hs, hpc, rfl, bulk_abort_complete (reach_of_runIf hs) hC (hpc ▸ .abortAll)⟩

/-- `abortAllQueries` inspects the slots while the worker thread is between the store of
`QUERY_RUNNING` and the guard. -/
def missedRun : List Action :=
  connectSteps ++ connectedSteps ++ startSteps 0 0 ++ workerSteps 7 ++
    .call .abortAll :: mainSteps 4

/-- `abortAllQueries` reads `QUERY_WAITING` in the in-flight slot, the worker thread lets the
execution pass and enters it, and it is marked and then cancelled. -/
def countedTwiceRun : List Action :=
  connectSteps ++ connectedSteps ++ startSteps 0 0 ++ workerSteps 5 ++
    .call .abortAll :: mainSteps 3 ++ workerSteps 4 ++ mainSteps 2 ++
    [.main (.gotCancel true), .main (.cancelSent true)]

/-- Without the condition a bulk abort can miss an execution, and count one twice. -/
theorem bulk_abort_incomplete :
    ¬ (∀ s, system.Reach CancelsSucceed s → ∀ g, s.mainPC.Swept g → ∀ e ∈ s.history.accepted,
        (s.own e).finished = true ∨ (s.own e).status = .aborted ∨ .own e ∈ g.affected) ∧
      ¬ ∀ s, system.Reach CancelsSucceed s → ∀ g, s.mainPC = .abortAll .returnResult g →
        g.requestedCount = (g.affected.map DataId.execution).toFinset.card := by
  refine ⟨fun h => ?_, fun h => ?_⟩
  · obtain ⟨s, hs⟩ : ∃ s, system.runIf CancelsSucceed system.init missedRun = some s := ⟨_, rfl⟩
    have hstate : (system.runIf CancelsSucceed system.init missedRun).map
        (fun s => (s.mainPC, s.history.accepted, (s.own ⟨0, 0, 0⟩).finished,
          (s.own ⟨0, 0, 0⟩).status)) =
          some (.abortAll .returnResult {}, [⟨0, 0, 0⟩], false, .running) := rfl
    obtain ⟨hpc, haccepted, hfinished, hstatus⟩ : s.mainPC = .abortAll .returnResult {} ∧
        s.history.accepted = [⟨0, 0, 0⟩] ∧ (s.own ⟨0, 0, 0⟩).finished = false ∧
        (s.own ⟨0, 0, 0⟩).status = .running := by simpa [hs] using hstate
    rcases h s (reach_of_runIf hs) {} (hpc ▸ .abortAll) ⟨0, 0, 0⟩
      (haccepted ▸ List.mem_singleton_self _) with hf | ha | hmem
    · exact absurd (hfinished.symm.trans hf) (by simp)
    · exact absurd (hstatus.symm.trans ha) (by simp)
    · exact absurd hmem List.not_mem_nil
  · obtain ⟨s, hs⟩ : ∃ s, system.runIf CancelsSucceed system.init countedTwiceRun = some s :=
      ⟨_, rfl⟩
    have hpc : (system.runIf CancelsSucceed system.init countedTwiceRun).map (·.mainPC) =
        some (.abortAll .returnResult ⟨2, [], [.own ⟨0, 0, 0⟩, .own ⟨0, 0, 0⟩]⟩) := rfl
    have hpc : s.mainPC = .abortAll .returnResult
        ⟨2, [], [.own ⟨0, 0, 0⟩, .own ⟨0, 0, 0⟩]⟩ := by simpa [hs] using hpc
    exact absurd (h s (reach_of_runIf hs) _ hpc) (by decide)

end GmsvPg.Database
