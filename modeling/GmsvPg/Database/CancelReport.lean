/-
# A cancellation that was requested

A single flag in each data object records that its cancellation was requested.
`ActiveQueryState::cancel` sets it before it sends the request, and clears it again when the
request could not be sent; the outer handler of `Transaction::executeStatement` copies it from
the children to the transaction; and the handlers of `runQuery` read it when they decide
whether an error is the cancellation that was asked for.  Here one execution is followed from
the point at which it is made active, with the calls of `cancel` that the main thread makes
one after the other, at any time.

The state also records, for no access to read, which calls have returned what, with which error
the execution has failed, and which flags carry a request that was granted.
-/
import GmsvPg.Database.System

namespace GmsvPg.Database

open Library

/-- Where the worker thread stands: in `runQuery`, or in the first loop of the outer handler of
`Transaction::executeStatement`, which reads the flag of a child and then stores into that of
the transaction.  What comes after in that handler only reads flags.  A plain query has no
children, and goes through the loop at once. -/
inductive ActivePC
  | run (r : RunStage)
  | collect (i : ℕ) (error : PGException)
  | request (i : ℕ) (error : PGException)
deriving DecidableEq, Repr

/-- The worker thread, up to the point at which `run` unlocks `m_queryMutex`. -/
def ActivePC.next (s : Shared) (c : Choice) (e : Execution) : ActivePC → Option (Access × ActivePC)
  | .run .unlock => none
  | .run r =>
      match r.next s c e with
      -- `executeStatement` throws
      | some (.endExecution _, .running _ (.leaveGuard (some error))) =>
          some (.read, .collect 0 error)
      | some (a, .running _ r') => some (a, .run r')
      | _ => none
  | .collect i error =>
      if i < e.children then
        some (.read, if (s.data (.child e i)).cancellationRequested then .request i error
          else .collect (i + 1) error)
      else some (.endExecution e, .run (.leaveGuard (some error)))
  | .request i error => some (.setCancellationRequested (.own e) true, .collect (i + 1) error)

/-- Inside `runQuery` the worker thread makes the accesses of `RunStage.next`, except that the
outer handler comes before the end of an `executeStatement` that throws. -/
lemma ActivePC.next_run {s : Shared} {c : Choice} {e : Execution} {r : RunStage} {a : Access}
    {pc : ActivePC} (h : (ActivePC.run r).next s c e = some (a, pc)) :
    (∃ e' r', pc = .run r' ∧ r.next s c e = some (a, .running e' r') ∧
        ∀ e'' error, a = .endExecution e'' → r' ≠ .leaveGuard (some error)) ∨
      ∃ e' e'' error, pc = .collect 0 error ∧ a = .read ∧
        r.next s c e = some (.endExecution e', .running e'' (.leaveGuard (some error))) := by
  unfold ActivePC.next at h
  split at h
  · cases h
  · rename_i r' _ heq
    obtain rfl := ActivePC.run.inj heq
    split at h
    · rename_i hnext
      obtain ⟨rfl, rfl⟩ := Prod.mk.inj (Option.some.inj h)
      exact .inr ⟨_, _, _, rfl, rfl, hnext⟩
    · rename_i hnot hnext
      obtain ⟨rfl, rfl⟩ := Prod.mk.inj (Option.some.inj h)
      exact .inl ⟨_, _, rfl, hnext, hnot⟩
    · cases h
  · rename_i heq
    cases heq
  · rename_i heq
    cases heq

/-- Only `executeStatement` throws. -/
lemma RunStage.next_endExecution {s : Shared} {c : Choice} {e e' : Execution} {r : RunStage}
    {pc : WorkerPC} (h : r.next s c e = some (.endExecution e', pc)) :
    ∃ todo current, r = .executing todo current := by
  cases r with
  | executing todo current => exact ⟨todo, current, rfl⟩
  | _ =>
      simp only [RunStage.next] at h
      repeat' split at h
      all_goals grind [ReconnectStage.next_access]

lemma ActivePC.next_run_of_ne {s : Shared} {c : Choice} {e : Execution} {r : RunStage} {a : Access}
    {pc : ActivePC} (h : (ActivePC.run r).next s c e = some (a, pc))
    (hr : ∀ todo current, r ≠ .executing todo current) :
    ∃ e' r', pc = .run r' ∧ r.next s c e = some (a, .running e' r') := by
  rcases ActivePC.next_run h with ⟨e', r', hpc, hnext, -⟩ | ⟨_, _, _, -, -, hnext⟩
  · exact ⟨e', r', hpc, hnext⟩
  · obtain ⟨todo, current, hexecuting⟩ := RunStage.next_endExecution hnext
    exact absurd hexecuting (hr todo current)

/-- A state of the active execution. -/
structure ActiveState extends Shared where
  pc : ActivePC := .run .enterGuard
  /-- the call of `cancel` that the main thread is in -/
  cancel : Option (DataId × CancelStage) := none
  /-- the calls that have returned, with what they returned -/
  returned : List (DataId × Bool) := []
  /-- the flag carries the request of a call that has returned `true` -/
  granted : DataId → Bool := fun _ => false
  /-- the error that `executeStatement` has thrown, and the calls that had returned by then -/
  failure : Option (PGException × List (DataId × Bool)) := none

/-- A step. -/
inductive ActiveAction
  | worker (c : Choice)
  | main (c : Choice)
  /-- the main thread calls `cancel` -/
  | cancel (d : DataId)
deriving DecidableEq, Repr

/-- `cancel` returns `true`. -/
def CancelStage.succeeds (c : Choice) : CancelStage → Bool
  | .send _ => decide (c = .cancelSent true)
  | _ => false

/-- `cancel` clears the flag that it has set, because the request could not be sent. -/
def CancelStage.clears (s : Shared) (c : Choice) (d : DataId) : CancelStage → Bool
  | .lookup =>
      s.activeQuery.matchesActive d && s.activeQuery.activeConnection.isSome &&
        decide (c = .gotCancel false)
  | .send _ => false
  | .clearRequest => true

namespace ActiveState

variable (e : Execution) (s : ActiveState)

/-- The state after an access by the worker thread. -/
def stepWorker (a : Access) (pc : ActivePC) : ActiveState :=
  { s with
    toShared := s.toShared.apply a
    pc := pc
    granted :=
      match s.pc with
      | .request i _ =>
          Function.update s.granted (.own e) (s.granted (.own e) || s.granted (.child e i))
      | _ => s.granted
    failure :=
      match s.pc, pc with
      | .run _, .collect _ error => some (error, s.returned)
      | _, _ => s.failure }

/-- The state when a call of `cancel` goes on. -/
def goOn (d : DataId) (stage : CancelStage) (a : Access) : ActiveState :=
  { s with toShared := s.toShared.apply a, cancel := some (d, stage) }

/-- The state when a call of `cancel` has returned. -/
def giveBack (d : DataId) (result : Bool) (a : Access) : ActiveState :=
  { s with
    toShared := s.toShared.apply a
    cancel := none
    returned := s.returned ++ [(d, result)]
    granted := if result then Function.update s.granted d true else s.granted }

/-- A step of the main thread in a call of `cancel`. -/
def continueCancel (c : Choice) : Option ActiveState :=
  match s.cancel with
  | none => none
  | some (d, stage) =>
      (stage.next s.toShared c d .abortQuery).map fun z =>
        match z.2 with
        | .cancel _ stage' _ => s.goOn d stage' z.1
        | _ => s.giveBack d (stage.succeeds c) z.1

end ActiveState

/-- The state in which the guard is about to be entered: nothing is active, and no cancellation
of the execution or of its children was requested. -/
structure Prepared (e : Execution) where
  shared : Shared
  inactive : shared.activeQuery = {}
  fresh : ∀ d, d.execution = e → (shared.data d).cancellationRequested = false

/-- The active execution, with the calls of `cancel`. -/
def activeMachine (e : Execution) (start : Prepared e) : Machine ActiveState ActiveAction where
  init := { toShared := start.shared }
  next s
    | .worker c => (s.pc.next s.toShared c e).map fun z => s.stepWorker e z.1 z.2
    | .main c => s.continueCancel c
    | .cancel d => if s.cancel = none then some { s with cancel := some (d, .lookup) } else none

/-- The condition on a step under which no call of `cancel` that fails clears a flag that
carries the request of another. -/
def KeepsGranted (s : ActiveState) : ActiveAction → Prop
  | .main c =>
      match s.cancel with
      | some (d, stage) => stage.clears s.toShared c d = true → s.granted d = false
      | none => True
  | _ => True

instance (s : ActiveState) (a : ActiveAction) : Decidable (KeepsGranted s a) := by
  unfold KeepsGranted
  split
  · split <;> infer_instance
  · infer_instance

/-! ### The steps of the main thread -/

/-- A step of the main thread in a call of `cancel`, by what becomes of the call. -/
inductive CancelStep (s : ActiveState) : Choice → ActiveState → Prop
  /-- the data is not active -/
  | unmatched {d : DataId} {c : Choice} (h : s.cancel = some (d, .lookup)) :
      CancelStep s c (s.giveBack d false .read)
  | set {d : DataId} {connection : ℕ} (h : s.cancel = some (d, .lookup))
      (hmatch : s.activeQuery.matchesActive d = true) :
      CancelStep s (.gotCancel true)
        (s.goOn d (.send connection) (.setCancellationRequested d true))
  /-- `PQgetCancel` has returned null, or `PQcancel` has failed -/
  | cleared {d : DataId} {stage : CancelStage} {c : Choice} (h : s.cancel = some (d, stage))
      (hclears : stage.clears s.toShared c d = true) :
      CancelStep s c (s.giveBack d false (.setCancellationRequested d false))
  | sent {d : DataId} {connection : ℕ} (h : s.cancel = some (d, .send connection)) :
      CancelStep s (.cancelSent true) (s.giveBack d true (.sendCancel d connection))
  | notSent {d : DataId} {connection : ℕ} (h : s.cancel = some (d, .send connection)) :
      CancelStep s (.cancelSent false) (s.goOn d .clearRequest (.sendCancel d connection))

lemma cancelStep_of_continueCancel {s t : ActiveState} {c : Choice}
    (h : s.continueCancel c = some t) : CancelStep s c t := by
  unfold ActiveState.continueCancel at h
  cases hcancel : s.cancel with
  | none =>
      rw [hcancel] at h
      cases h
  | some z =>
      obtain ⟨d, stage⟩ := z
      rw [hcancel] at h
      obtain ⟨⟨a, pc⟩, hnext, rfl⟩ := Option.map_eq_some_iff.1 h
      cases stage with
      | lookup =>
          simp only [CancelStage.next] at hnext
          split at hnext
          · rename_i hmatch
            split at hnext
            · obtain ⟨rfl, rfl⟩ := Prod.mk.inj (Option.some.inj hnext)
              exact .set hcancel hmatch
            · rename_i connection hconnection
              obtain ⟨rfl, rfl⟩ := Prod.mk.inj (Option.some.inj hnext)
              refine .cleared hcancel ?_
              simp [CancelStage.clears, hmatch, hconnection]
            · exact absurd hnext (by simp)
            · obtain ⟨rfl, rfl⟩ := Prod.mk.inj (Option.some.inj hnext)
              exact .unmatched hcancel
          · obtain ⟨rfl, rfl⟩ := Prod.mk.inj (Option.some.inj hnext)
            exact .unmatched hcancel
      | send connection =>
          simp only [CancelStage.next] at hnext
          split at hnext
          · obtain ⟨rfl, rfl⟩ := Prod.mk.inj (Option.some.inj hnext)
            exact .sent hcancel
          · obtain ⟨rfl, rfl⟩ := Prod.mk.inj (Option.some.inj hnext)
            exact .notSent hcancel
          · exact absurd hnext (by simp)
      | clearRequest =>
          obtain ⟨rfl, rfl⟩ := Prod.mk.inj (Option.some.inj hnext)
          exact .cleared hcancel rfl

/-! ### What was requested -/

namespace ActiveState

variable {e : Execution} {s : ActiveState}

/-- The flag of a data object. -/
def flag (s : ActiveState) (d : DataId) : Bool := (s.data d).cancellationRequested

/-- The data of the execution, or of one of its children. -/
def Belongs (e : Execution) (d : DataId) : Prop := d = .own e ∨ ∃ i < e.children, d = .child e i

/-- What the calls of `cancel` refer to. -/
structure Targets (e : Execution) (s : ActiveState) : Prop where
  active : ∀ d, s.activeQuery.matchesActive d = true → Belongs e d
  executing : ∀ todo current, s.pc = .run (.executing todo current) → ∀ i ∈ todo, i < e.children
  sending : ∀ d connection, s.cancel = some (d, .send connection) → Belongs e d
  returned : ∀ d, (d, true) ∈ s.returned → Belongs e d ∧ s.granted d = true

/-- The flags carry what was granted, and what is being sent. -/
structure Carried (s : ActiveState) : Prop where
  granted : ∀ d, s.granted d = true → s.flag d = true
  sending : ∀ d connection, s.cancel = some (d, .send connection) → s.flag d = true

/-- The execution has failed, and the requests that were granted by then are carried by the
flag of the execution or by that of a child from the `i`th on. -/
structure Failing (e : Execution) (s : ActiveState) (error : PGException) (i : ℕ) : Prop where
  carried : s.Carried
  failure : ∃ calls, s.failure = some (error, calls) ∧ ((∃ d, (d, true) ∈ calls) →
    s.granted (.own e) = true ∨
      ∃ j, i ≤ j ∧ j < e.children ∧ s.granted (.child e j) = true)

/-- The server has ended the execution with a user cancellation, after a call of `cancel` had
returned `true`. -/
def Owed (s : ActiveState) : Prop :=
  ∃ error calls, s.failure = some (error, calls) ∧ error.cls ≠ .other ∧
    error.sqlstate = "57014".toList ∧ ∃ d, (d, true) ∈ calls

/-- The execution is reported as aborted, and not as an error. -/
def Reported (e : Execution) (s : ActiveState) : Prop :=
  (s.own e).status = .aborted ∧ (s.own e).resultStatus ≠ .error

/-- What holds at each point of the worker thread. -/
def Sound (e : Execution) (s : ActiveState) : ActivePC → Prop
  | .run .enterGuard | .run .execute | .run (.executing _ _) => s.failure = none ∧ s.Carried
  | .collect i error | .request i error => s.Failing e error i
  | .run (.leaveGuard (some error)) | .run (.testCancellation error) =>
      s.Failing e error e.children
  | .run .clearCancellation | .run .storeSuccess | .run (.leaveGuard none) => s.failure = none
  | .run .storeCancelled => True
  | .run .storeResultNone => (s.own e).status = .aborted
  | .run .testAborted | .run .unlock => s.Owed → s.Reported e
  | .run (.clearCancellationThrown _) | .run (.testRetry _) | .run (.reconnectAgain _ _)
  | .run (.storeError _) | .run (.testErrorText _) | .run (.setErrorText _)
  | .run .storeComplete => ¬ s.Owed
  | .run _ => False

/-! ### The main thread -/

lemma flag_set (s : Shared) (d d' : DataId) (v : Bool) :
    ((s.apply (.setCancellationRequested d v)).data d').cancellationRequested =
      if d' = d then v else (s.data d').cancellationRequested := by
  by_cases h : d' = d
  · subst h
    simp [Shared.apply, Shared.modifyData]
  · simp [Shared.apply, Shared.modifyData, h]

lemma status_set (s : Shared) (d : DataId) (v : Bool) (e : Execution) :
    ((s.apply (.setCancellationRequested d v)).own e).status = (s.own e).status ∧
      ((s.apply (.setCancellationRequested d v)).own e).resultStatus =
        (s.own e).resultStatus := by
  simp only [Shared.apply, Shared.own_modifyData]
  split <;> exact ⟨rfl, rfl⟩

/-- Where a call of `cancel` clears a flag, it carries no request. -/
lemma granted_of_clears {d : DataId} {stage : CancelStage} {c : Choice}
    (hC : KeepsGranted s (.main c)) (h : s.cancel = some (d, stage))
    (hclears : stage.clears s.toShared c d = true) : s.granted d = false := by
  simp only [KeepsGranted, h] at hC
  exact hC hclears

/-- The calls of `cancel` keep the flags. -/
lemma Carried.cancelStep {c : Choice} {t : ActiveState} (h : s.Carried)
    (hC : KeepsGranted s (.main c)) (hstep : CancelStep s c t) : t.Carried := by
  cases hstep with
  | unmatched hcancel => exact ⟨h.granted, fun d' k hk => nomatch hk⟩
  | @set d connection hcancel hmatch =>
      refine ⟨fun d' hgranted => ?_, fun d' k hk => ?_⟩
      · rw [flag, goOn, flag_set]
        split
        · rfl
        · exact h.granted d' hgranted
      · obtain ⟨rfl, -⟩ : d = d' ∧ _ := by simpa [goOn] using hk
        rw [flag, goOn, flag_set, if_pos rfl]
  | @cleared d stage c hcancel hclears =>
      refine ⟨fun d' hgranted => ?_, fun d' k hk => nomatch hk⟩
      have hfree := granted_of_clears hC hcancel hclears
      have hne : d' ≠ d := by
        rintro rfl
        exact absurd (hfree.symm.trans hgranted) (by simp)
      rw [flag, giveBack, flag_set, if_neg hne]
      exact h.granted d' hgranted
  | @sent d connection hcancel =>
      refine ⟨fun d' hgranted => ?_, fun d' k hk => nomatch hk⟩
      by_cases hd : d' = d
      · subst hd
        exact h.sending d' connection hcancel
      · refine h.granted d' ?_
        simpa [giveBack, Function.update_of_ne hd] using hgranted
  | notSent hcancel =>
      refine ⟨h.granted, fun d' k hk => ?_⟩
      simp [goOn] at hk

lemma granted_cancelStep {c : Choice} {t : ActiveState} (hstep : CancelStep s c t) {d : DataId}
    (h : s.granted d = true) : t.granted d = true := by
  cases hstep with
  | @sent d' connection hcancel =>
      by_cases hd : d = d'
      · subst hd
        simp [giveBack]
      · simpa [giveBack, Function.update_of_ne hd] using h
  | unmatched | set | cleared | notSent => exact h

/-- A call of `cancel` changes nothing that is reported. -/
lemma cancelStep_keeps {c : Choice} {t : ActiveState} (hstep : CancelStep s c t) :
    t.pc = s.pc ∧ t.failure = s.failure ∧ t.activeQuery = s.activeQuery ∧
      (t.own e).status = (s.own e).status ∧ (t.own e).resultStatus = (s.own e).resultStatus := by
  cases hstep with
  | @set d connection hcancel hmatch => exact ⟨rfl, rfl, rfl, status_set s.toShared d true e⟩
  | @cleared d stage c hcancel hclears => exact ⟨rfl, rfl, rfl, status_set s.toShared d false e⟩
  | unmatched | sent | notSent => exact ⟨rfl, rfl, rfl, rfl, rfl⟩

/-- A step of the main thread, as far as the worker thread is concerned. -/
structure Undisturbed (e : Execution) (s t : ActiveState) : Prop where
  carried : s.Carried → t.Carried
  granted : ∀ d, s.granted d = true → t.granted d = true
  failure : t.failure = s.failure
  status : (t.own e).status = (s.own e).status
  resultStatus : (t.own e).resultStatus = (s.own e).resultStatus

lemma Failing.undisturbed {t : ActiveState} {error : PGException} {i : ℕ}
    (h : s.Failing e error i) (ht : Undisturbed e s t) : t.Failing e error i := by
  obtain ⟨calls, hfailure, hcarries⟩ := h.failure
  refine ⟨ht.carried h.carried, calls, ht.failure.trans hfailure, fun hcall => ?_⟩
  rcases hcarries hcall with hown | ⟨j, hle, hlt, hchild⟩
  · exact .inl (ht.granted _ hown)
  · exact .inr ⟨j, hle, hlt, ht.granted _ hchild⟩

lemma Sound.undisturbed {t : ActiveState} {pc : ActivePC} (h : s.Sound e pc)
    (ht : Undisturbed e s t) : t.Sound e pc := by
  have howed : t.Owed ↔ s.Owed := by rw [Owed, Owed, ht.failure]
  have hreported : t.Reported e ↔ s.Reported e := by
    rw [Reported, Reported, ht.status, ht.resultStatus]
  cases pc with
  | collect i error => exact Failing.undisturbed h ht
  | request i error => exact Failing.undisturbed h ht
  | run r =>
      cases r with
      | enterGuard | execute | executing => exact ⟨ht.failure.trans h.1, ht.carried h.2⟩
      | leaveGuard thrown =>
          cases thrown with
          | none => exact ht.failure.trans h
          | some error => exact Failing.undisturbed h ht
      | testCancellation error => exact Failing.undisturbed h ht
      | clearCancellation | storeSuccess => exact ht.failure.trans h
      | storeCancelled => trivial
      | storeResultNone => exact ht.status.trans h
      | testAborted | unlock => exact fun hnow => hreported.2 (h (howed.1 hnow))
      | clearCancellationThrown | testRetry | reconnectAgain | storeError | testErrorText
      | setErrorText | storeComplete => exact fun hnow => h (howed.1 hnow)
      | _ => exact absurd h id

/-- A call of `cancel` that begins. -/
lemma undisturbed_begin (d : DataId) : Undisturbed e s { s with cancel := some (d, .lookup) } :=
  ⟨fun h => ⟨h.granted, fun _ _ h => nomatch h⟩, fun _ h => h, rfl, rfl, rfl⟩

lemma undisturbed_cancelStep {c : Choice} {t : ActiveState} (hC : KeepsGranted s (.main c))
    (hstep : CancelStep s c t) : Undisturbed e s t := by
  obtain ⟨-, hfailure, -, hstatus, hresult⟩ := cancelStep_keeps (e := e) hstep
  exact ⟨fun h => h.cancelStep hC hstep, fun _ => granted_cancelStep hstep, hfailure, hstatus,
    hresult⟩

/-! ### The worker thread -/

/-- Flags that stay as they are carry what they carried. -/
lemma Carried.congr {t : ActiveState} (h : s.Carried) (hdata : t.data = s.data)
    (hgranted : t.granted = s.granted) (hcancel : t.cancel = s.cancel) : t.Carried := by
  refine ⟨fun d hd => ?_, fun d connection hd => ?_⟩
  · rw [flag, hdata]
    exact h.granted d (hgranted ▸ hd)
  · rw [flag, hdata]
    exact h.sending d connection (hcancel ▸ hd)

lemma flag_stepWorker (a : Access) (pc : ActivePC) (d : DataId) :
    (s.stepWorker e a pc).flag d = ((s.toShared.apply a).data d).cancellationRequested := rfl

/-- A step of the worker thread inside `runQuery`. -/
lemma stepWorker_run {a : Access} {r r' : RunStage} (hpc : s.pc = .run r) :
    (s.stepWorker e a (.run r')).failure = s.failure ∧
      (s.stepWorker e a (.run r')).granted = s.granted := by
  simp only [stepWorker, hpc, and_self]

lemma Sound.run {c : Choice} {a : Access} {pc : ActivePC} {r : RunStage} (hpc : s.pc = .run r)
    (h : s.Sound e (.run r)) (hT : s.Targets e)
    (hnext : (ActivePC.run r).next s.toShared c e = some (a, pc)) :
    (s.stepWorker e a pc).Sound e pc := by
  -- what is recorded changes in no step inside `runQuery`
  have hkeeps (r' : RunStage) := @stepWorker_run e s a r r' hpc
  have howed (r' : RunStage) : (s.stepWorker e a (.run r')).Owed ↔ s.Owed := by
    rw [Owed, Owed, (hkeeps r').1]
  cases r with
  | enterGuard | execute =>
      obtain ⟨rfl, rfl⟩ := by simpa [ActivePC.next, RunStage.next] using hnext
      exact ⟨(hkeeps _).1.trans h.1, h.2.congr rfl (hkeeps _).2 rfl⟩
  | executing todo current =>
      rcases ActivePC.next_run hnext with ⟨e', r', rfl, hr, hnot⟩ | ⟨e', e'', error, rfl, rfl, hr⟩
      · -- a child is registered or removed, or `executeStatement` has returned
        simp only [RunStage.next] at hr
        split at hr
        · cases hr
          exact ⟨(hkeeps _).1.trans h.1, h.2.congr rfl (hkeeps _).2 rfl⟩
        · cases hr
          exact ⟨(hkeeps _).1.trans h.1, h.2.congr rfl (hkeeps _).2 rfl⟩
        · cases hr
          exact (hkeeps _).1.trans h.1
        · cases hr
          exact absurd rfl (hnot _ _ rfl)
        · cases hr
      · -- it has thrown
        have hgranted : (s.stepWorker e .read (.collect 0 error)).granted = s.granted := by
          simp only [stepWorker, hpc]
        have hfailure : (s.stepWorker e .read (.collect 0 error)).failure =
            some (error, s.returned) := by
          simp only [stepWorker, hpc]
        refine ⟨h.2.congr rfl hgranted rfl, s.returned, hfailure, ?_⟩
        rintro ⟨d, hd⟩
        rw [hgranted]
        obtain ⟨hbelongs, hd⟩ := hT.returned d hd
        rcases hbelongs with rfl | ⟨j, hj, rfl⟩
        · exact .inl hd
        · exact .inr ⟨j, Nat.zero_le j, hj, hd⟩
  | clearCancellation | storeSuccess =>
      obtain ⟨rfl, rfl⟩ := by simpa [ActivePC.next, RunStage.next] using hnext
      exact (hkeeps _).1.trans h
  | leaveGuard thrown =>
      cases thrown with
      | none =>
          obtain ⟨rfl, rfl⟩ := by simpa [ActivePC.next, RunStage.next] using hnext
          rintro ⟨error, calls, hfailure, -⟩
          rw [(hkeeps _).1, show s.failure = none from h] at hfailure
          cases hfailure
      | some error =>
          obtain ⟨e', r', rfl, hr⟩ := ActivePC.next_run_of_ne hnext (by simp)
          cases hr
          split
          · -- the exception is no error of the server
            rename_i hcls
            intro ht
            obtain ⟨error', calls, hfailure, hne, -⟩ := (howed _).1 ht
            obtain ⟨calls', hfailure', -⟩ := h.failure
            rw [hfailure'] at hfailure
            cases hfailure
            exact hne hcls
          · obtain ⟨calls, hfailure, hcarries⟩ := h.failure
            refine ⟨h.carried.congr rfl (hkeeps _).2 rfl, calls, (hkeeps _).1.trans hfailure, ?_⟩
            rw [(hkeeps _).2]
            exact hcarries
  | testCancellation error =>
      obtain ⟨e', r', rfl, hr⟩ := ActivePC.next_run_of_ne hnext (by simp)
      simp only [RunStage.next] at hr
      split at hr
      · cases hr
        trivial
      · rename_i hnot
        cases hr
        intro ht
        obtain ⟨error', calls, hfailure, -, hsqlstate, hcall⟩ := (howed _).1 ht
        obtain ⟨calls', hfailure', hcarries⟩ := h.failure
        rw [hfailure'] at hfailure
        cases hfailure
        have hgranted : s.granted (.own e) = true := by
          rcases hcarries hcall with hown | ⟨j, hle, hlt, -⟩
          · exact hown
          · omega
        refine hnot ?_
        rw [show (s.own e).cancellationRequested = true from h.carried.granted _ hgranted,
          isUserCancellationError, hsqlstate]
        rfl
  | storeCancelled =>
      obtain ⟨rfl, rfl⟩ := by simpa [ActivePC.next, RunStage.next] using hnext
      simp [Sound, stepWorker, Shared.apply]
  | storeResultNone =>
      obtain ⟨rfl, rfl⟩ := by simpa [ActivePC.next, RunStage.next] using hnext
      intro _
      refine ⟨?_, ?_⟩
      · simpa [Sound, stepWorker, Shared.apply] using h
      · simp [stepWorker, Shared.apply]
  | testAborted =>
      obtain ⟨e', r', rfl, hr⟩ := ActivePC.next_run_of_ne hnext (by simp)
      simp only [RunStage.next] at hr
      split at hr
      · cases hr
        exact fun ht => h ((howed _).1 ht)
      · rename_i hstatus
        cases hr
        exact fun ht => hstatus (h ((howed _).1 ht)).1
  | clearCancellationThrown error =>
      obtain ⟨rfl, rfl⟩ := by simpa [ActivePC.next, RunStage.next] using hnext
      split
      · exact fun ht => h ((howed _).1 ht)
      · exact fun ht => h ((howed _).1 ht)
  | testRetry error | reconnectAgain error r =>
      obtain ⟨e', r', rfl, hr⟩ := ActivePC.next_run_of_ne hnext (by simp)
      simp only [RunStage.next] at hr
      repeat' split at hr
      all_goals cases hr
      all_goals exact fun ht => h ((howed _).1 ht)
  | storeError error =>
      obtain ⟨rfl, rfl⟩ := by simpa [ActivePC.next, RunStage.next] using hnext
      exact fun ht => h ((howed _).1 ht)
  | testErrorText error =>
      obtain ⟨e', r', rfl, hr⟩ := ActivePC.next_run_of_ne hnext (by simp)
      simp only [RunStage.next] at hr
      split at hr
      · cases hr
        exact fun ht => h ((howed _).1 ht)
      · cases hr
        exact fun ht => absurd ((howed _).1 ht) h
  | setErrorText error =>
      obtain ⟨rfl, rfl⟩ := by simpa [ActivePC.next, RunStage.next] using hnext
      exact fun ht => absurd ((howed _).1 ht) h
  | storeComplete =>
      obtain ⟨rfl, rfl⟩ := by simpa [ActivePC.next, RunStage.next] using hnext
      exact fun ht => absurd ((howed _).1 ht) h
  | unlock => exact absurd hnext (by simp [ActivePC.next])
  | _ => exact absurd h id

/-- The loop over the children hands what they carry to the transaction. -/
lemma Sound.collect {c : Choice} {a : Access} {pc : ActivePC} {i : ℕ} {error : PGException}
    (hpc : s.pc = .collect i error) (h : s.Failing e error i)
    (hnext : (ActivePC.collect i error).next s.toShared c e = some (a, pc)) :
    (s.stepWorker e a pc).Sound e pc := by
  have hgranted : (s.stepWorker e a pc).granted = s.granted := by
    simp only [stepWorker, hpc]
  have hfailure' : (s.stepWorker e a pc).failure = s.failure := by
    simp only [stepWorker, hpc]
  obtain ⟨calls, hfailure, hcarries⟩ := h.failure
  simp only [ActivePC.next] at hnext
  split at hnext
  · rename_i hlt
    split at hnext
    · cases hnext
      exact ⟨h.carried.congr rfl hgranted rfl, calls, hfailure'.trans hfailure, hgranted ▸ hcarries⟩
    · rename_i hflag
      cases hnext
      refine ⟨h.carried.congr rfl hgranted rfl, calls, hfailure'.trans hfailure, fun hcall => ?_⟩
      rw [hgranted]
      rcases hcarries hcall with hown | ⟨j, hle, hj, hchild⟩
      · exact .inl hown
      · refine .inr ⟨j, ?_, hj, hchild⟩
        have hne : j ≠ i := by
          rintro rfl
          exact hflag (h.carried.granted _ hchild)
        omega
  · rename_i hlt
    cases hnext
    refine ⟨h.carried.congr rfl hgranted rfl, calls, hfailure'.trans hfailure, fun hcall => ?_⟩
    rw [hgranted]
    rcases hcarries hcall with hown | ⟨j, hle, hj, hchild⟩
    · exact .inl hown
    · omega

lemma Sound.request {c : Choice} {a : Access} {pc : ActivePC} {i : ℕ} {error : PGException}
    (hpc : s.pc = .request i error) (h : s.Failing e error i)
    (hnext : (ActivePC.request i error).next s.toShared c e = some (a, pc)) :
    (s.stepWorker e a pc).Sound e pc := by
  cases hnext
  have hgranted : (s.stepWorker e (.setCancellationRequested (.own e) true)
      (.collect (i + 1) error)).granted =
        Function.update s.granted (.own e) (s.granted (.own e) || s.granted (.child e i)) := by
    simp only [stepWorker, hpc]
  have hfailure' : (s.stepWorker e (.setCancellationRequested (.own e) true)
      (.collect (i + 1) error)).failure = s.failure := by
    simp only [stepWorker, hpc]
  obtain ⟨calls, hfailure, hcarries⟩ := h.failure
  refine ⟨⟨fun d hd => ?_, fun d connection hd => ?_⟩, calls, hfailure'.trans hfailure, fun hcall => ?_⟩
  · rw [flag_stepWorker, flag_set]
    split
    · rfl
    · rename_i hne
      rw [hgranted, Function.update_of_ne hne] at hd
      exact h.carried.granted d hd
  · rw [flag_stepWorker, flag_set]
    split
    · rfl
    · exact h.carried.sending d connection hd
  · rw [hgranted, Function.update_self]
    rcases hcarries hcall with hown | ⟨j, hle, hj, hchild⟩
    · exact .inl (by rw [hown, Bool.true_or])
    · rcases Nat.eq_or_lt_of_le hle with rfl | hlt
      · exact .inl (by rw [hchild, Bool.or_true])
      · refine .inr ⟨j, hlt, hj, ?_⟩
        rw [Function.update_of_ne (by simp)]
        exact hchild

lemma Sound.worker {c : Choice} {a : Access} {pc : ActivePC} (h : s.Sound e s.pc)
    (hT : s.Targets e) (hnext : s.pc.next s.toShared c e = some (a, pc)) :
    (s.stepWorker e a pc).Sound e pc := by
  cases hpc : s.pc with
  | run r =>
      rw [hpc] at h hnext
      exact Sound.run hpc h hT hnext
  | collect i error =>
      rw [hpc] at h hnext
      exact Sound.collect hpc h hnext
  | request i error =>
      rw [hpc] at h hnext
      exact Sound.request hpc h hnext

/-! ### What is active -/

lemma matchesActive_apply {s : Shared} {a : Access} {d : DataId}
    (h : (s.apply a).activeQuery.matchesActive d = true) :
    s.activeQuery.matchesActive d = true ∨ a = .addAlias d ∨ ∃ e', a = .enterGuard e' ∧ d = .own e' := by
  rw [ActiveQueryState.matchesActive_iff] at h ⊢
  cases a with
  | connectSession error => cases error <;> exact .inl h
  | enterGuard e' =>
      rcases h with hdata | halias
      · exact .inr (.inr ⟨e', rfl, (Option.some.inj hdata).symm⟩)
      · exact .inl (.inr halias)
  | clearActive => exact absurd h (by simp [Shared.apply])
  | addAlias d' =>
      rcases h with hdata | halias
      · exact .inl (.inl hdata)
      · simp only [Shared.apply] at halias
        split at halias
        · rcases List.mem_append.1 halias with halias | halias
          · exact .inl (.inr halias)
          · exact .inr (.inl (by rw [List.mem_singleton.1 halias]))
        · exact .inl (.inr halias)
  | removeAlias d' =>
      rcases h with hdata | halias
      · exact .inl (.inl hdata)
      · exact .inl (.inr (List.mem_filter.1 halias).1)
  | _ => exact .inl h

/-- The worker thread registers the data of the execution and of its children. -/
lemma next_registers {s : Shared} {c : Choice} {pc pc' : ActivePC} {a : Access}
    (h : pc.next s c e = some (a, pc')) :
    (∀ e', a = .enterGuard e' → e' = e) ∧
      ∀ d, a = .addAlias d → ∃ i rest, pc = .run (.executing (i :: rest) none) ∧ d = .child e i := by
  cases pc with
  | run r =>
      rcases ActivePC.next_run h with ⟨e', r', -, hr, -⟩ | ⟨_, _, _, -, rfl, -⟩
      · cases r with
        | executing todo current =>
            simp only [RunStage.next] at hr
            split at hr
            · cases hr
              refine ⟨fun _ h => (by cases h), fun d hd => ⟨_, _, rfl, ?_⟩⟩
              cases hd
              rfl
            all_goals cases hr
            all_goals exact ⟨fun _ h => (by cases h), fun _ h => (by cases h)⟩
        | enterGuard =>
            cases hr
            refine ⟨fun e'' h => ?_, fun _ h => (by cases h)⟩
            cases h
            rfl
        | _ =>
            simp only [RunStage.next] at hr
            repeat' split at hr
            all_goals grind [ReconnectStage.next_access]
      · exact ⟨fun _ h => (by cases h), fun _ h => (by cases h)⟩
  | collect i error =>
      simp only [ActivePC.next] at h
      split at h
      · cases h
        exact ⟨fun _ h => (by cases h), fun _ h => (by cases h)⟩
      · cases h
        exact ⟨fun _ h => (by cases h), fun _ h => (by cases h)⟩
  | request i error =>
      cases h
      exact ⟨fun _ h => (by cases h), fun _ h => (by cases h)⟩

/-- The children that are still to come are among those of the execution. -/
lemma next_executing {s : Shared} {c : Choice} {pc : ActivePC} {a : Access} {todo : List ℕ}
    {current : Option ℕ} (h : pc.next s c e = some (a, .run (.executing todo current))) :
    todo = List.range e.children ∨
      ∃ todo' current', pc = .run (.executing todo' current') ∧ ∀ i ∈ todo, i ∈ todo' := by
  cases pc with
  | run r =>
      rcases ActivePC.next_run h with ⟨e', r', hpc, hr, -⟩ | ⟨_, _, _, hpc, -, -⟩
      · cases hpc
        cases r with
        | execute =>
            cases hr
            exact .inl rfl
        | executing todo' current' =>
            refine .inr ⟨todo', current', rfl, ?_⟩
            simp only [RunStage.next] at hr
            split at hr
            · cases hr
              exact fun i hi => List.mem_cons_of_mem _ hi
            · cases hr
              exact fun i hi => hi
            all_goals cases hr
        | _ =>
            simp only [RunStage.next] at hr
            repeat' split at hr
            all_goals grind
      · cases hpc
  | collect i error =>
      simp only [ActivePC.next] at h
      split at h
      · split at h
        · cases h
        · cases h
      · cases h
  | request i error => cases h

lemma Targets.worker {c : Choice} {a : Access} {pc : ActivePC} (h : s.Targets e)
    (hnext : s.pc.next s.toShared c e = some (a, pc)) : (s.stepWorker e a pc).Targets e := by
  obtain ⟨henter, halias⟩ := next_registers hnext
  refine ⟨fun d hd => ?_, fun todo current hpc i hi => ?_, h.sending, fun d hd => ?_⟩
  · rcases matchesActive_apply hd with hbefore | rfl | ⟨e', rfl, rfl⟩
    · exact h.active d hbefore
    · obtain ⟨i, rest, hpc, rfl⟩ := halias d rfl
      exact .inr ⟨i, h.executing _ _ hpc i List.mem_cons_self, rfl⟩
    · exact .inl (by rw [henter e' rfl])
  · obtain rfl : pc = .run (.executing todo current) := hpc
    rcases next_executing hnext with rfl | ⟨todo', current', hbefore, hsub⟩
    · exact List.mem_range.1 hi
    · exact h.executing todo' current' hbefore i (hsub i hi)
  · obtain ⟨hbelongs, hgranted⟩ := h.returned d hd
    refine ⟨hbelongs, ?_⟩
    cases hpc : s.pc with
    | request i error =>
        simp only [stepWorker, hpc]
        by_cases hown : d = .own e
        · subst hown
          rw [Function.update_self, hgranted, Bool.true_or]
        · rw [Function.update_of_ne hown]
          exact hgranted
    | run r =>
        simp only [stepWorker, hpc]
        exact hgranted
    | collect i error =>
        simp only [stepWorker, hpc]
        exact hgranted

lemma Targets.cancelStep {c : Choice} {t : ActiveState} (h : s.Targets e)
    (hstep : CancelStep s c t) : t.Targets e := by
  obtain ⟨hpc, -, hactive, -, -⟩ := cancelStep_keeps (e := e) hstep
  refine ⟨fun d hd => h.active d (hactive ▸ hd), fun todo current h' => h.executing _ _ (hpc ▸ h'),
    fun d connection hd => ?_, fun d hd => ?_⟩
  · cases hstep with
    | set hcancel hmatch =>
        cases hd
        exact h.active _ hmatch
    | unmatched | cleared | sent | notSent => cases hd
  · cases hstep with
    | set | notSent => exact h.returned d hd
    | unmatched | cleared =>
        rcases List.mem_append.1 hd with hd | hd
        · exact h.returned d hd
        · simp at hd
    | @sent d' connection hcancel =>
        rcases List.mem_append.1 hd with hbefore | hnow
        · obtain ⟨hbelongs, hgranted⟩ := h.returned d hbefore
          exact ⟨hbelongs, granted_cancelStep (.sent hcancel) hgranted⟩
        · obtain rfl : d = d' := by simpa using hnow
          exact ⟨h.sending d connection hcancel, by simp [giveBack]⟩

/-! ### What is reported -/

lemma sound_init (start : Prepared e) :
    (activeMachine e start).init.Targets e ∧
      (activeMachine e start).init.Sound e (activeMachine e start).init.pc := by
  refine ⟨⟨fun d hd => ?_, ?_, ?_, ?_⟩, rfl, ?_, ?_⟩
  · have hd : start.shared.activeQuery.matchesActive d = true := hd
    rw [start.inactive] at hd
    exact absurd hd (by simp [ActiveQueryState.matchesActive])
  · intro _ _ hpc
    cases hpc
  · intro _ _ hcancel
    cases hcancel
  · exact fun _ hmem => absurd hmem List.not_mem_nil
  · intro _ hgranted
    cases hgranted
  · intro _ _ hcancel
    cases hcancel

theorem sound_of_reach {start : Prepared e} (h : (activeMachine e start).Reach KeepsGranted s) :
    s.Targets e ∧ s.Sound e s.pc := by
  refine h.invariant (I := fun s => s.Targets e ∧ s.Sound e s.pc) (sound_init start)
    fun s t a _ hI hC hnext => ?_
  obtain ⟨hT, hS⟩ := hI
  cases a with
  | worker c =>
      obtain ⟨⟨b, pc⟩, hstep, rfl⟩ := Option.map_eq_some_iff.1 hnext
      exact ⟨hT.worker hstep, hS.worker hT hstep⟩
  | main c =>
      have hstep := cancelStep_of_continueCancel hnext
      refine ⟨hT.cancelStep hstep, ?_⟩
      rw [(cancelStep_keeps (e := e) hstep).1]
      exact hS.undisturbed (undisturbed_cancelStep hC hstep)
  | cancel d =>
      simp only [activeMachine] at hnext
      split at hnext
      · cases hnext
        refine ⟨⟨hT.active, hT.executing, fun _ _ h => (nomatch h), hT.returned⟩, ?_⟩
        exact Sound.undisturbed hS (undisturbed_begin d)
      · cases hnext

/-- **A requested cancellation is reported as an abort**, as long as no call of `cancel` that
fails clears a flag that carries the request of another: an execution that the server has ended
with a user cancellation, after a call of `cancel` had returned `true`, leaves `runQuery` with
the status `QUERY_ABORTED`, and not as an error. -/
theorem cancelled_reported {start : Prepared e} {error : PGException}
    {calls : List (DataId × Bool)} {d : DataId}
    (h : (activeMachine e start).Reach KeepsGranted s) (hpc : s.pc = .run .unlock)
    (hfailure : s.failure = some (error, calls)) (hcls : error.cls ≠ .other)
    (hsqlstate : error.sqlstate = "57014".toList) (hcall : (d, true) ∈ calls) :
    (s.own e).status = .aborted ∧ (s.own e).resultStatus ≠ .error := by
  have hsound := (sound_of_reach h).2
  rw [hpc] at hsound
  exact hsound ⟨error, calls, hfailure, hcls, hsqlstate, d, hcall⟩

/-! ### Two runs -/

/-- An open session and data that is running. -/
def preparedRunning (e : Execution) : Prepared e where
  shared := { data := fun _ => { status := .running }, session := ⟨some 0, true, []⟩ }
  inactive := rfl
  fresh _ _ := rfl

/-- The error of a statement that was cancelled. -/
def canceling : PGException :=
  ⟨.pg, "ERROR:  canceling statement due to user request\n".toList, "57014".toList⟩

/-- The worker thread goes on by `n` steps that leave nothing to decide. -/
def goSteps (n : ℕ) : List ActiveAction := List.replicate n (.worker .go)

/-- A transaction with one child.  The call that names the transaction fails, and the next one,
which names the child, succeeds. -/
def childCancelRun : List ActiveAction :=
  goSteps 2 ++ [.worker .nextChild, .cancel (.own ⟨0, 0, 1⟩), .main (.gotCancel false),
    .cancel (.child ⟨0, 0, 1⟩ 0), .main (.gotCancel true), .main (.cancelSent true),
    .worker .nextChild, .worker (.left (some canceling))] ++ goSteps 8

theorem cancelled_reported_childCancelRun :
    ∃ s, (activeMachine ⟨0, 0, 1⟩ (preparedRunning _)).runIf KeepsGranted
        (activeMachine ⟨0, 0, 1⟩ (preparedRunning _)).init childCancelRun = some s ∧
      (s.own ⟨0, 0, 1⟩).status = .aborted ∧ (s.own ⟨0, 0, 1⟩).resultStatus ≠ .error := by
  obtain ⟨s, hs⟩ : ∃ s, (activeMachine ⟨0, 0, 1⟩ (preparedRunning _)).runIf KeepsGranted
    (activeMachine ⟨0, 0, 1⟩ (preparedRunning _)).init childCancelRun = some s := ⟨_, rfl⟩
  have hend : ((activeMachine ⟨0, 0, 1⟩ (preparedRunning _)).runIf KeepsGranted
      (activeMachine ⟨0, 0, 1⟩ (preparedRunning _)).init childCancelRun).map (fun s =>
        (s.pc, s.failure)) = some (.run .unlock, some (canceling,
          [(.own ⟨0, 0, 1⟩, false), (.child ⟨0, 0, 1⟩ 0, true)])) := rfl
  rw [hs] at hend
  obtain ⟨hpc, hfailure⟩ : s.pc = .run .unlock ∧ s.failure = some (canceling,
      [(.own ⟨0, 0, 1⟩, false), (.child ⟨0, 0, 1⟩ 0, true)]) := by simpa using hend
  exact ⟨s, hs, cancelled_reported (Machine.reach_of_runIf hs) hpc hfailure (by decide) rfl
    (List.mem_cons_of_mem _ List.mem_cons_self)⟩

/-- Of two calls that name a running query the first succeeds and the second fails. -/
def secondCancelRun : List ActiveAction :=
  goSteps 2 ++ [.cancel (.own ⟨0, 0, 0⟩), .main (.gotCancel true), .main (.cancelSent true),
    .cancel (.own ⟨0, 0, 0⟩), .main (.gotCancel true), .main (.cancelSent false), .main .go,
    .worker (.left (some canceling))] ++ goSteps 9

/-- The cancellation is then reported as an error. -/
theorem cancelled_not_reported :
    ¬ ∀ (e : Execution) (start : Prepared e) (s : ActiveState) (error : PGException)
        (calls : List (DataId × Bool)) (d : DataId), (activeMachine e start).Reachable s →
      s.pc = .run .unlock → s.failure = some (error, calls) → error.cls ≠ .other →
      error.sqlstate = "57014".toList → (d, true) ∈ calls →
        (s.own e).status = .aborted ∧ (s.own e).resultStatus ≠ .error := by
  intro h
  obtain ⟨s, hs⟩ : ∃ s, (activeMachine ⟨0, 0, 0⟩ (preparedRunning _)).run
    (activeMachine ⟨0, 0, 0⟩ (preparedRunning _)).init secondCancelRun = some s := ⟨_, rfl⟩
  have hend : ((activeMachine ⟨0, 0, 0⟩ (preparedRunning _)).run
      (activeMachine ⟨0, 0, 0⟩ (preparedRunning _)).init secondCancelRun).map (fun s =>
        (s.pc, s.failure, (s.own ⟨0, 0, 0⟩).resultStatus)) = some (.run .unlock, some (canceling,
          [(.own ⟨0, 0, 0⟩, true), (.own ⟨0, 0, 0⟩, false)]), .error) := rfl
  rw [hs] at hend
  obtain ⟨hpc, hfailure, hresult⟩ : s.pc = .run .unlock ∧ s.failure = some (canceling,
      [(.own ⟨0, 0, 0⟩, true), (.own ⟨0, 0, 0⟩, false)]) ∧
        (s.own ⟨0, 0, 0⟩).resultStatus = .error := by simpa using hend
  exact (h _ _ s _ _ _ (Machine.reachable_of_run hs) hpc hfailure (by decide) rfl
    List.mem_cons_self).2 hresult

end ActiveState

end GmsvPg.Database
