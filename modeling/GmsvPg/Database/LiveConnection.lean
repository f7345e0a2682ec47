/-
# The published connection

`ActiveQueryState` holds the connection that `PQgetCancel` is applied to.  The handle itself
belongs to `ConnectionSession`, is protected by `m_queryMutex`, and is passed to `PQfinish` by
a reset and by every attempt to connect.  A ledger of these calls is kept beside the state.
What is published is never in the ledger: it is the present handle of the session, and the
worker thread holds `m_queryMutex` as long as it is published.
-/
import GmsvPg.Database.BulkAbort

namespace GmsvPg.Database

open Library Machine

/-! ### The ledger -/

/-- The connection that an access passes to `PQfinish`; `ConnectionSession::connect` begins
with a `reset`. -/
def Access.finishes (s : Shared) : Access → Option ℕ
  | .resetSession | .connectSession _ => s.session.connectionHandle
  | _ => none

/-- The connection that a step passes to `PQfinish`. -/
def State.finishes (s : State) : Action → Option ℕ
  | .worker c => (s.workerPC.next s.toShared c).bind fun z => z.1.finishes s.toShared
  | .main c => (s.mainPC.next s.toShared c).bind fun z => z.1.finishes s.toShared
  | _ => none

/-- The system with the connections that have been passed to `PQfinish`. -/
def ledgered : Machine (State × List ℕ) Action where
  init := (system.init, [])
  next p a := (system.next p.1 a).map fun t => (t, p.2 ++ (p.1.finishes a).toList)

lemma reachable_of_ledgered {p : State × List ℕ} (h : ledgered.Reachable p) :
    system.Reachable p.1 := by
  induction h with
  | init => exact .init
  | @step p q a _ _ hnext ih =>
      obtain ⟨t, ht, rfl⟩ := Option.map_eq_some_iff.1 hnext
      exact .step ih trivial ht

lemma Shared.apply_connections {s : Shared} {a : Access} (h : a.ofSession = false) :
    (s.apply a).connections = s.connections := by
  cases a with
  | resetSession | connectSession => exact absurd h (by simp [Access.ofSession])
  | _ => rfl

lemma Access.finishes_of_not_ofSession {s : Shared} {a : Access} (h : a.ofSession = false) :
    a.finishes s = none := by
  cases a with
  | resetSession | connectSession => exact absurd h (by simp [ofSession])
  | _ => rfl

/-- The handle of the session is the newest connection or none, and what has been passed to
`PQfinish` is neither the present handle nor to be allocated again. -/
structure Ledger (s : Shared) (finished : List ℕ) : Prop where
  allocated : ∀ n, s.session.connectionHandle = some n → n < s.connections
  finished : ∀ n ∈ finished, n < s.connections ∧ s.session.connectionHandle ≠ some n

/-- A state that agrees on the session. -/
lemma Ledger.of_eq {s t : Shared} {finished : List ℕ} (h : Ledger s finished)
    (hhandle : t.session.connectionHandle = s.session.connectionHandle)
    (hcount : t.connections = s.connections) : Ledger t finished := by
  refine ⟨?_, ?_⟩
  · rw [hhandle, hcount]
    exact h.allocated
  · rw [hhandle, hcount]
    exact h.finished

lemma Ledger.apply {s : Shared} {finished : List ℕ} (h : Ledger s finished) (a : Access) :
    Ledger (s.apply a) (finished ++ (a.finishes s).toList) := by
  have hmem {n : ℕ} (hn : n ∈ finished ++ s.session.connectionHandle.toList) :
      n < s.connections := by
    rcases List.mem_append.1 hn with hn | hn
    · exact (h.finished n hn).1
    · exact h.allocated n (Option.mem_toList.1 hn)
  cases hsession : a.ofSession with
  | false =>
      rw [Access.finishes_of_not_ofSession hsession, Option.toList_none, List.append_nil]
      exact h.of_eq (Shared.apply_connectionHandle hsession) (Shared.apply_connections hsession)
  | true =>
      cases a with
      | resetSession => exact ⟨by simp [Shared.apply], fun n hn => ⟨hmem hn, by simp [Shared.apply]⟩⟩
      | connectSession error =>
          cases error with
          | some error =>
              exact ⟨by simp [Shared.apply], fun n hn => ⟨hmem hn, by simp [Shared.apply]⟩⟩
          | none =>
              refine ⟨fun n hn => ?_, fun n hn => ⟨Nat.lt_succ_of_lt (hmem hn), fun heq => ?_⟩⟩
              · obtain rfl : s.connections = n := Option.some.inj hn
                exact Nat.lt_succ_self s.connections
              · -- what is finished was allocated earlier
                obtain rfl : s.connections = n := Option.some.inj heq
                exact absurd (hmem hn) (Nat.lt_irrefl _)
      | _ => exact absurd hsession (by simp [Access.ofSession])

theorem ledger_of_reachable {p : State × List ℕ} (h : ledgered.Reachable p) :
    Ledger p.1.toShared p.2 := by
  induction h with
  | init => exact ⟨by simp [ledgered, system], by simp [ledgered]⟩
  | @step p q a hr _ hnext ih =>
      obtain ⟨t, ht, rfl⟩ := Option.map_eq_some_iff.1 hnext
      cases step_of_next ht with
      | @worker c b pc hpc =>
          have hfinishes : p.1.finishes (.worker c) = b.finishes p.1.toShared := by
            simp [State.finishes, hpc]
          rw [hfinishes]
          exact ih.apply b
      | @main c b pc hspawn hpc =>
          have hfinishes : p.1.finishes (.main c) = b.finishes p.1.toShared := by
            simp [State.finishes, hpc]
          rw [hfinishes]
          exact ih.apply b
      | spawn hpc =>
          have hfinishes {c : Choice} : p.1.finishes (.main c) = none := by
            simp [State.finishes, hpc, MainPC.next, ConnectCallStage.next, Access.finishes]
          rw [hfinishes, Option.toList_none, List.append_nil]
          exact ih.of_eq rfl rfl
      | join hpc hworker =>
          have hfinishes {c : Choice} : p.1.finishes (.main c) = none := by
            simp [State.finishes, hpc, MainPC.next]
          rw [hfinishes, Option.toList_none, List.append_nil]
          exact ih.of_eq rfl rfl
      | call hidle hcall =>
          rw [show p.1.finishes (.call _) = none from rfl, Option.toList_none, List.append_nil]
          cases hcall <;> exact ih.of_eq rfl rfl
      | connectionLost =>
          rw [show p.1.finishes .connectionLost = none from rfl, Option.toList_none,
            List.append_nil]
          exact ih.of_eq rfl rfl

/-! ### The published connection -/

lemma ReconnectStage.next_ofSession {s : Shared} {c : Choice} {r : ReconnectStage} {a : Access}
    {z : ReconnectStage ⊕ Bool} (h : r.next s c = some (a, z)) (ha : a.ofSession = true) :
    ∃ r', z = .inl r' := by
  cases r <;> simp only [ReconnectStage.next] at h
  all_goals grind [Access.ofSession]

/-- The worker thread connects and resets outside every guard. -/
lemma WorkerPC.next_ofSession {s : Shared} {c : Choice} {pc pc' : WorkerPC} {a : Access}
    (h : pc.next s c = some (a, pc')) (ha : a.ofSession = true) : pc.active = none := by
  cases pc with
  | running e r =>
      cases r <;> simp only [WorkerPC.next, RunStage.next] at h
      all_goals grind [WorkerPC.active, RunStage.guarded, Access.ofSession]
  | _ => rfl

/-- Without `m_queryMutex` the worker thread is not inside a guard. -/
lemma WorkerPC.active_of_not_locked {pc : WorkerPC} (h : pc.locked = false) :
    pc.active = none := by
  cases pc with
  | running e r =>
      by_cases hg : r.guarded = true
      · exact absurd (h.symm.trans (RunStage.guarded_locked hg)) (by simp)
      · simp [active, hg]
  | _ => rfl

/-- The children that remain inside `executeStatement`, and the present one, are children of
the execution. -/
def RunStage.ChildrenIn (e : Execution) : RunStage → Prop
  | .executing todo current => (∀ i ∈ todo, i < e.children) ∧ ∀ i ∈ current, i < e.children
  | _ => True

/-- `RunStage.ChildrenIn` at the point where the worker thread stands. -/
def WorkerPC.ChildrenIn : WorkerPC → Prop
  | .running e r => r.ChildrenIn e
  | _ => True

lemma WorkerPC.next_childrenIn {s : Shared} {c : Choice} {pc pc' : WorkerPC} {a : Access}
    (h : pc.next s c = some (a, pc')) (hpc : pc.ChildrenIn) :
    pc'.ChildrenIn ∧ ∀ e i, a = .addAlias (.child e i) → i < e.children := by
  cases pc with
  | running e r =>
      cases r with
      | execute =>
          obtain ⟨rfl, rfl⟩ : Access.execute e = a ∧ _ = pc' := by
            simpa [WorkerPC.next, RunStage.next] using h
          exact ⟨⟨fun i hi => List.mem_range.1 hi, by simp⟩, by simp⟩
      | executing todo current =>
          obtain ⟨htodo, hcurrent⟩ := hpc
          simp only [WorkerPC.next, RunStage.next] at h
          split at h
          · rename_i i rest
            -- the next child is registered
            obtain ⟨rfl, rfl⟩ : Access.addAlias (.child e i) = a ∧ _ = pc' := by simpa using h
            have hi : i < e.children := htodo i List.mem_cons_self
            refine ⟨⟨fun j hj => htodo j (List.mem_cons_of_mem i hj), fun j hj => ?_⟩, ?_⟩
            · obtain rfl : i = j := Option.some.inj hj
              exact hi
            · rintro e' j heq
              obtain ⟨rfl, rfl⟩ : e = e' ∧ i = j := by simpa using heq
              exact hi
          · obtain ⟨rfl, rfl⟩ := by simpa using h
            exact ⟨⟨htodo, by simp⟩, by simp⟩
          · obtain ⟨rfl, rfl⟩ := by simpa using h
            exact ⟨trivial, by simp⟩
          · obtain ⟨rfl, rfl⟩ := by simpa using h
            exact ⟨trivial, by simp⟩
          · exact absurd h (by simp)
      | _ =>
          simp only [WorkerPC.next, RunStage.next] at h
          repeat' split at h
          all_goals grind [WorkerPC.ChildrenIn, RunStage.ChildrenIn, ReconnectStage.next_access]
  | connecting stage =>
      cases stage with
      | drain e' stage rest reason =>
          cases stage <;> simp only [WorkerPC.next, ConnectStage.next, CompleteStage.next] at h
          all_goals grind [WorkerPC.ChildrenIn]
      | _ =>
          simp only [WorkerPC.next, ConnectStage.next] at h
          repeat' split at h
          all_goals grind [WorkerPC.ChildrenIn]
  | taking =>
      simp only [WorkerPC.next] at h
      grind [WorkerPC.ChildrenIn, RunStage.ChildrenIn]
  | leaving stage =>
      cases stage <;> simp only [WorkerPC.next, LeaveStage.next] at h
      all_goals grind [WorkerPC.ChildrenIn]
  | notStarted | ended => exact absurd h (by simp [WorkerPC.next])

namespace State

variable {C : State → Action → Prop} {s t : State}

/-- What is published is the present connection of the session, with the execution the
worker thread is in and children of it. -/
structure Live (s : State) : Prop where
  connection : ∀ n, s.activeQuery.activeConnection = some n → s.session.connectionHandle = some n
  aliases : ∀ d ∈ s.activeQuery.activeAliases, ∃ e, ∃ i < e.children, d = .child e i
  children : s.workerPC.ChildrenIn

/-- An access that concerns neither the session nor what is published. -/
lemma Live.keep {u : Shared} {pc : WorkerPC} {mpc : MainPC} {n : ℕ} (h : s.Live)
    (hactive : u.activeQuery = s.activeQuery)
    (hsession : s.activeQuery.activeConnection = none ∨
      u.session.connectionHandle = s.session.connectionHandle) (hpc : pc.ChildrenIn) :
    State.Live { toShared := u, started := n, workerPC := pc, mainPC := mpc } := by
  refine ⟨fun n hn => ?_, ?_, hpc⟩
  · rcases hsession with hnone | hsession
    · exact absurd ((hactive ▸ hn).symm.trans hnone) (by simp)
    · exact hsession.trans (h.connection n (hactive ▸ hn))
  · exact hactive ▸ h.aliases

theorem live_of_reach (h : system.Reach C s) : s.Live := by
  refine system_invariant (I := Live) ⟨by simp, by simp, trivial⟩
    (fun s t a hr hI _ hstep => ?_) h
  have hpublished := published_of_reach hr
  cases hstep with
  | @worker c a pc hnext =>
      obtain ⟨hchildren, hadd⟩ := WorkerPC.next_childrenIn hnext hI.children
      rcases WorkerPC.next_active hnext with ⟨e, rfl, -, -⟩ | ⟨rfl, -⟩ | ⟨e, i, ha, -, -⟩ | ⟨ha, -⟩
      · -- the guard publishes the handle of the session
        exact ⟨fun n hn => hn, hI.aliases, hchildren⟩
      · exact ⟨by simp [stepWorker, Shared.apply], by simp [stepWorker, Shared.apply], hchildren⟩
      · rcases ha with rfl | rfl
        · refine ⟨hI.connection, fun d hd => ?_, hchildren⟩
          have hd : d ∈ s.activeQuery.activeAliases ++ [.child e i] := by
            by_cases hconn : s.activeQuery.activeConnection.isSome = true
            · simpa [stepWorker, Shared.apply, hconn] using hd
            · exact List.mem_append_left _ (by simpa [stepWorker, Shared.apply, hconn] using hd)
          rcases List.mem_append.1 hd with hd | hd
          · exact hI.aliases d hd
          · exact ⟨e, i, hadd e i rfl, List.mem_singleton.1 hd⟩
        · exact ⟨hI.connection, fun d hd => hI.aliases d (List.mem_of_mem_filter hd), hchildren⟩
      · refine hI.keep (Shared.apply_activeQuery ha) ?_ hchildren
        cases hsession : a.ofSession with
        | false => exact .inr (Shared.apply_connectionHandle hsession)
        | true =>
            rw [hpublished.none (WorkerPC.next_ofSession hnext hsession)]
            exact .inl rfl
  | @main c a pc hspawn hnext =>
      rcases MainPC.next_ofActive hnext with ha | ⟨rfl, -⟩
      · refine hI.keep (Shared.apply_activeQuery ha) ?_ hI.children
        cases hsession : a.ofSession with
        | false => exact .inr (Shared.apply_connectionHandle hsession)
        | true =>
            -- `ping` holds `m_queryMutex`, so the worker thread is not inside a guard
            have hworker := not_both_locked hr (MainPC.next_ofSession hnext hsession)
            rw [hpublished.none (WorkerPC.active_of_not_locked hworker)]
            exact .inl rfl
      · exact ⟨by simp [stepMain, Shared.apply], by simp [stepMain, Shared.apply], hI.children⟩
  | spawn hpc => exact ⟨hI.connection, hI.aliases, trivial⟩
  | join hpc hworker => exact ⟨hI.connection, hI.aliases, hI.children⟩
  | call hidle hcall => cases hcall <;> exact ⟨hI.connection, hI.aliases, hI.children⟩
  | connectionLost => exact ⟨hI.connection, hI.aliases, hI.children⟩

end State

/-- The connection that a step applies `PQgetCancel` to. -/
def State.getsCancel (s : State) : Action → Option ℕ
  | .main (.gotCancel _) =>
      match s.mainPC with
      | .cancel d .lookup _ =>
          if s.activeQuery.matchesActive d then s.activeQuery.activeConnection else none
      | _ => none
  | _ => none

lemma State.getsCancel_published {s : State} {a : Action} {n : ℕ} (h : s.getsCancel a = some n) :
    s.activeQuery.activeConnection = some n := by
  unfold getsCancel at h
  split at h
  · split at h
    · split at h
      · exact h
      · exact absurd h (by simp)
    · exact absurd h (by simp)
  · exact absurd h (by simp)

/-- **The published connection is live.**  In every reachable state, a connection that is
published as active is the present one of the session and has not been passed to `PQfinish`,
the worker thread holds `m_queryMutex`, and what is published are an execution and children of
it.  `PQgetCancel` is never applied to a connection that has been passed to `PQfinish`. -/
theorem published_connection_live {p : State × List ℕ} (h : ledgered.Reachable p) :
    (∀ n, p.1.activeQuery.activeConnection = some n →
      p.1.session.connectionHandle = some n ∧ n ∉ p.2 ∧ p.1.queryMutex = some .worker ∧
        ∃ e, p.1.activeQuery.activeData = some (.own e) ∧
          ∀ d ∈ p.1.activeQuery.activeAliases, ∃ i < e.children, d = .child e i) ∧
      ∀ a n, p.1.getsCancel a = some n → n ∉ p.2 := by
  have hreach := reachable_of_ledgered h
  have hlive := State.live_of_reach hreach
  have hpublished := State.published_of_reach hreach
  have hledger := ledger_of_reachable h
  have hfresh {n : ℕ} (hn : p.1.activeQuery.activeConnection = some n) : n ∉ p.2 :=
    fun hmem => (hledger.finished n hmem).2 (hlive.connection n hn)
  refine ⟨fun n hn => ⟨hlive.connection n hn, hfresh hn, ?_⟩, fun a n ha =>
    hfresh (State.getsCancel_published ha)⟩
  cases hactive : p.1.workerPC.active with
  | none =>
      rw [hpublished.none hactive] at hn
      exact absurd hn (by simp)
  | some e =>
      obtain ⟨hdata, haliases⟩ := hpublished.some e hactive
      have hlocked : p.1.workerPC.locked = true := by
        refine Bool.not_eq_false _ ▸ fun hnot => ?_
        exact absurd (hactive.symm.trans (WorkerPC.active_of_not_locked hnot)) (by simp)
      refine ⟨(State.locked_of_reach hreach).worker hlocked, e, hdata, fun d hd => ?_⟩
      obtain ⟨e', i, hi, rfl⟩ := hlive.aliases d hd
      obtain rfl : e' = e := haliases _ hd
      exact ⟨i, hi, rfl⟩

/-- The connection is lost, a transaction with two children connects again and registers its
first child, and the main thread is about to look the transaction up for a cancellation. -/
def reconnectedRun : List Action :=
  connectSteps ++ connectedSteps ++ [.connectionLost] ++ startSteps 0 2 ++ workerSteps 13 ++
    [.worker (.connected none)] ++ workerSteps 4 ++ [.worker .nextChild, .call (.abort ⟨0, 0, 2⟩)] ++
    mainSteps 3

theorem published_connection_live_reconnectedRun :
    ∃ p, ledgered.run ledgered.init reconnectedRun = some p ∧
      (∀ n, p.1.activeQuery.activeConnection = some n →
        p.1.session.connectionHandle = some n ∧ n ∉ p.2 ∧ p.1.queryMutex = some .worker ∧
          ∃ e, p.1.activeQuery.activeData = some (.own e) ∧
            ∀ d ∈ p.1.activeQuery.activeAliases, ∃ i < e.children, d = .child e i) ∧
      (∀ a n, p.1.getsCancel a = some n → n ∉ p.2) ∧
      p.1.activeQuery = ⟨some (.own ⟨0, 0, 2⟩), [.child ⟨0, 0, 2⟩ 0], some 1⟩ ∧ p.2 = [0] ∧
      p.1.getsCancel (.main (.gotCancel true)) = some 1 := by
  obtain ⟨p, hp⟩ : ∃ p, ledgered.run ledgered.init reconnectedRun = some p := ⟨_, rfl⟩
  have hends : (ledgered.run ledgered.init reconnectedRun).map
      (fun p => (p.1.activeQuery, p.2, p.1.getsCancel (.main (.gotCancel true)))) =
        some (⟨some (.own ⟨0, 0, 2⟩), [.child ⟨0, 0, 2⟩ 0], some 1⟩, [0], some 1) := rfl
  obtain ⟨hactive, hfinished, hgets⟩ : p.1.activeQuery =
      ⟨some (.own ⟨0, 0, 2⟩), [.child ⟨0, 0, 2⟩ 0], some 1⟩ ∧ p.2 = [0] ∧
        p.1.getsCancel (.main (.gotCancel true)) = some 1 := by
    simpa [hp] using hends
  obtain ⟨hlive, hcancel⟩ := published_connection_live (reachable_of_run hp)
  exact ⟨p, hp, hlive, hcancel, hactive, hfinished, hgets⟩

end GmsvPg.Database
