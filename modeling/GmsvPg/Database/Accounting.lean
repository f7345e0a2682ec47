/-
# The accounting of executions

The system of the two threads is an instance of the hand-off protocol of the library: every
step is a step of the protocol.  Three facts about all runs follow, which the properties of
the `Database` rest on: each accepted execution is in exactly one place, what a thread has
yet to mark finished is in its hands alone, and an accepted execution that is neither queued
nor in the hands of a thread is finished.
-/
import GmsvPg.Library.Handoff
import GmsvPg.Database.Custody

namespace GmsvPg.Database

open Library

/-- Past the exchange of `startedConnecting`, the main thread has come through it. -/
lemma MainPC.next_connect {s : Shared} {c : Choice} {pc : MainPC} {a : Access}
    {stage : ConnectCallStage} (h : pc.next s c = some (a, .connect stage)) :
    ∃ stage', pc = .connect stage' ∧
      (stage' = .testStatus ∧ stage = .exchange ∨
        stage' = .exchange ∧ s.startedConnecting = false ∧ a = .setStartedConnecting ∨
        stage' ≠ .testStatus ∧ stage' ≠ .exchange) := by
  obtain ⟨stage', rfl⟩ := MainPC.next_source h
  refine ⟨stage', rfl, ?_⟩
  cases stage' <;> simp only [MainPC.next, ConnectCallStage.next] at h <;> grind

lemma Shared.startedConnecting_of_apply {s : Shared} {a : Access}
    (h : (s.apply a).startedConnecting = false) : s.startedConnecting = false := by
  cases a with
  | connectSession error => cases error <;> exact h
  | setStartedConnecting => exact absurd h (by simp [apply])
  | _ => exact h

namespace State

variable {C : State → Action → Prop} {s t : State}

/-! ### Numbers of executions, and the start of the worker thread -/

/-- The numbering of executions: what `enqueueQuery` has accepted was built before, and what
it is about to accept is newer than everything accepted. -/
structure Numbered (s : State) : Prop where
  built : ∀ e ∈ s.history.accepted, s.built e
  enqueuing : ∀ e stage, s.mainPC = .enqueue e stage →
    s.built e ∧ ∀ x ∈ s.history.accepted, x.data < e.data
  nodup : s.history.accepted.Nodup

/-- The worker thread is started once. -/
structure StartedOnce (s : State) : Prop where
  before : s.startedConnecting = false → s.workerPC = .notStarted
  connecting : ∀ stage, s.mainPC = .connect stage → stage ≠ .testStatus → stage ≠ .exchange →
    s.workerPC = .notStarted ∧ s.startedConnecting = true

lemma callStep_accepted {m : Call} (h : CallStep s m t) :
    t.history.accepted = s.history.accepted := by
  cases h <;> rfl

lemma callStep_started {m : Call} (h : CallStep s m t) : s.started ≤ t.started := by
  cases h with
  | start => exact Nat.le_succ _
  | _ => exact le_rfl

theorem numbered (h : system.Reach C s) : s.Numbered := by
  refine system_invariant ⟨by simp, by simp, List.nodup_nil⟩ (fun s t a _ hI _ hstep => ?_) h
  have hkeep : ∀ u : State, u.history.accepted = s.history.accepted → s.started ≤ u.started →
      (∀ e stage, u.mainPC = .enqueue e stage →
        u.built e ∧ ∀ x ∈ s.history.accepted, x.data < e.data) → u.Numbered := by
    intro u haccepted hstarted henqueue
    refine ⟨fun e he => (hI.built e (haccepted ▸ he)).trans_le hstarted, ?_, haccepted ▸ hI.nodup⟩
    exact fun e stage hpc => haccepted ▸ henqueue e stage hpc
  cases hstep with
  | worker hnext =>
      exact hkeep _ (Shared.apply_accepted (WorkerPC.next_moves hnext)) le_rfl hI.enqueuing
  | @main c a pc hspawn hnext =>
      rcases MainPC.next_moves hnext with hmoves | ⟨e, hpc, rfl, hclosed, rfl⟩
      · refine hkeep _ (Shared.apply_accepted hmoves) le_rfl fun e stage hpc => ?_
        obtain rfl : pc = .enqueue e stage := hpc
        obtain ⟨stage', hpc'⟩ := MainPC.next_source hnext
        exact hI.enqueuing e stage' hpc'
      · obtain ⟨hb, hlt⟩ := hI.enqueuing e _ hpc
        refine ⟨fun x hx => ?_, fun x stage hx => absurd hx (by simp [stepMain]), ?_⟩
        · rcases List.mem_append.1 hx with hx | hx
          · exact hI.built x hx
          · exact List.mem_singleton.1 hx ▸ hb
        · refine List.nodup_append.2 ⟨hI.nodup, List.nodup_singleton e, ?_⟩
          rintro x hx y hy rfl
          exact absurd (hlt x hx) (List.mem_singleton.1 hy ▸ lt_irrefl _)
  | spawn hpc => exact hkeep _ rfl le_rfl fun e stage hx => absurd hx (by simp)
  | join hpc hworker => exact hkeep _ rfl le_rfl fun e stage hx => absurd hx (by simp)
  | call hidle hcall =>
      refine hkeep _ (callStep_accepted hcall) (callStep_started hcall) fun e stage hpc => ?_
      cases hcall with
      | @start query children =>
          obtain ⟨rfl, -⟩ : s.newExecution query children = e ∧ _ := by simpa using hpc
          exact ⟨Nat.lt_succ_self _, hI.built⟩
      | enter h => cases h <;> exact absurd hpc (by simp)
      | _ => exact absurd (hidle.symm.trans hpc) (by simp)
  | connectionLost => exact hkeep _ rfl le_rfl hI.enqueuing

theorem startedOnce (h : system.Reach C s) : s.StartedOnce := by
  refine system_invariant ⟨fun _ => rfl, by simp⟩ (fun s t a _ hI _ hstep => ?_) h
  cases hstep with
  | @worker c a pc hnext =>
      have hstarted : s.workerPC ≠ .notStarted := by
        intro hpc
        rw [hpc] at hnext
        exact absurd hnext (by simp [WorkerPC.next])
      refine ⟨fun hfalse => absurd (hI.before ?_) hstarted,
        fun stage hpc h1 h2 => absurd (hI.connecting stage hpc h1 h2).1 hstarted⟩
      exact Shared.startedConnecting_of_apply hfalse
  | @main c a pc hspawn hnext =>
      refine ⟨fun hfalse => hI.before (Shared.startedConnecting_of_apply hfalse), ?_⟩
      intro stage hpc h1 h2
      obtain rfl : pc = .connect stage := hpc
      obtain ⟨stage', hpc', ⟨-, rfl⟩ | ⟨-, hfalse, rfl⟩ | ⟨h1', h2'⟩⟩ := MainPC.next_connect hnext
      · exact absurd rfl h2
      · exact ⟨hI.before hfalse, rfl⟩
      · obtain ⟨hworker, htrue⟩ := hI.connecting stage' hpc' h1' h2'
        refine ⟨hworker, ?_⟩
        cases hstarted : (s.toShared.apply a).startedConnecting with
        | true => exact hstarted
        | false => exact absurd (Shared.startedConnecting_of_apply hstarted) (by simp [htrue])
  | spawn hpc => 
      refine ⟨fun hfalse => ?_, fun stage hpc => absurd hpc (by simp)⟩
      obtain ⟨-, htrue⟩ := hI.connecting _ hpc (by simp) (by simp)
      exact absurd (htrue.symm.trans hfalse) (by simp)
  | join hpc hworker => exact ⟨hI.before, fun stage hpc => absurd hpc (by simp)⟩
  | call hidle hcall =>
      cases hcall with
      | start => exact ⟨hI.before, fun stage hpc => absurd hpc (by simp)⟩
      | enter h =>
          refine ⟨hI.before, fun stage hpc h1 => ?_⟩
          cases h with
          | connect => exact absurd (by simpa using hpc.symm) h1
          | _ => exact absurd hpc (by simp)
      | takeFinished => exact ⟨hI.before, hI.connecting⟩
      | _ => exact ⟨hI.before, hI.connecting⟩
  | connectionLost => exact ⟨hI.before, hI.connecting⟩

/-! ### The hand-off protocol -/

instance : Fintype Thread := ⟨{.main, .worker}, fun t => by cases t <;> simp⟩

/-- What each thread has in its hands. -/
def custody (s : State) : Thread → Custody Execution
  | .main => ⟨s.mainPC.holds, s.mainPC.pending⟩
  | .worker => ⟨s.workerPC.holds, s.workerPC.pending⟩

/-- The state of the hand-off protocol that a state of the system stands for. -/
def handoff (s : State) : Handoff Thread Execution where
  queue := s.queue
  custody := s.custody
  handed := s.history.finished + s.history.returned
  settled := {e | (s.own e).finished = true}
  accepted := s.history.accepted

lemma custody_stepWorker (s : State) (a : Access) (pc : WorkerPC) :
    (s.stepWorker a pc).custody =
      Function.update s.custody .worker ⟨pc.holds, pc.pending⟩ := by
  funext i
  cases i <;> rfl

lemma custody_stepMain (s : State) (a : Access) (pc : MainPC) :
    (s.stepMain a pc).custody = Function.update s.custody .main ⟨pc.holds, pc.pending⟩ := by
  funext i
  cases i <;> rfl

/-- Moving executions is a step of the protocol, whichever thread does it. -/
lemma handoff_step_of_moves {s t : State} (i : Thread) {a : Access}
    {l p l' p' : List Execution} (hnodup : s.queue.Nodup)
    (hshared : t.toShared = s.toShared.apply a) (hi : s.custody i = ⟨l, p⟩)
    (hcustody : t.custody = Function.update s.custody i ⟨l', p'⟩)
    (h : a.Moves s.queue l p l' p') : Handoff.Step s.handoff t.handoff := by
  have hholds : (s.handoff.custody i).holds = l := by rw [show s.handoff.custody i = _ from hi]
  have hpending : (s.handoff.custody i).pending = p := by
    rw [show s.handoff.custody i = _ from hi]
  cases h with
  | keep hquiet =>
      obtain ⟨hqueue, haccepted, hfinished, hreturned⟩ := s.toShared.apply_quiet hquiet
      have hsettled : s.handoff.settled ⊆ t.handoff.settled := by
        intro e he
        show (t.toShared.own e).finished = true
        rw [hshared]
        exact Shared.apply_finished_mono he
      refine (Handoff.Step.keep hsettled).congr ?_ ?_ ?_ rfl ?_
      · simp only [handoff, hshared, Shared.queue, hqueue]
      · rw [show t.handoff.custody = t.custody from rfl, hcustody]
        exact hi ▸ Function.update_eq_self i _
      · simp only [handoff, hshared, hfinished, hreturned]
      · simp only [handoff, hshared, haccepted]
  | @take e rest hqueue =>
      refine (Handoff.Step.claim i (m := {e}) (q := rest) ?_).congr ?_ ?_ ?_ ?_ ?_
      · simp [handoff, hqueue]
      · have htail : s.queue.tail = rest := by rw [hqueue, List.tail_cons]
        simp only [handoff, hshared]
        exact congrArg _ htail
      · rw [hholds, hpending]
        exact hcustody
      all_goals
        simp only [handoff, hshared]
        rfl
  | @remove e hmem =>
      refine (Handoff.Step.claim i (m := {e}) (q := s.queue.erase e) ?_).congr ?_ ?_ ?_ ?_ ?_
      · exact Multiset.coe_eq_coe.2 (List.perm_cons_erase hmem)
      · have hfilter : s.queue.erase e = (s.toShared.apply (.removeQueued e)).queue := by
          rw [hnodup.erase_eq_filter]
          exact List.filter_congr fun x _ => by simp [bne, beq_eq_decide]
        simp only [handoff, hshared, hfilter]
      · rw [hholds, hpending]
        exact hcustody
      all_goals
        simp only [handoff, hshared]
        rfl
  | clear =>
      refine (Handoff.Step.claim i (m := s.queue) (q := 0) ?_).congr ?_ ?_ ?_ ?_ ?_
      · exact (add_zero _).symm
      · simp only [handoff, hshared]
        rfl
      · rw [hholds, hpending, show t.handoff.custody = t.custody from rfl, hcustody]
        simp [add_comm]
        rfl
      all_goals
        simp only [handoff, hshared]
        rfl
  | close =>
      refine (Handoff.Step.claim i (m := s.queue) (q := 0) ?_).congr ?_ ?_ ?_ ?_ ?_
      · exact (add_zero _).symm
      · simp only [handoff, hshared]
        rfl
      · rw [hholds, hpending, show t.handoff.custody = t.custody from rfl, hcustody]
        simp [add_comm]
        rfl
      all_goals
        simp only [handoff, hshared]
        rfl
  | @finish e =>
      refine (Handoff.Step.handOver i (m := {e}) (l := l') ?_).congr ?_ ?_ ?_ ?_ ?_
      · rw [hholds]
        rfl
      · simp only [handoff, hshared]
        rfl
      · rw [hpending]
        exact hcustody
      · simp only [handoff, hshared, Shared.apply, Shared.record, ← Multiset.coe_add,
          Shared.putFinished]
        rw [show (([e] : List Execution) : Multiset Execution) = {e} from rfl]
        ac_rfl
      all_goals
        simp only [handoff, hshared]
        rfl
  | @settle e =>
      refine (Handoff.Step.settle i (x := e) (p := p') ?_).congr ?_ ?_ ?_ ?_ ?_
      · rw [hpending]
        rfl
      · simp only [handoff, hshared]
        rfl
      · rw [hholds]
        exact hcustody
      · simp only [handoff, hshared]
        rfl
      · ext x
        simp [handoff, hshared, Shared.apply]
        grind
      · simp only [handoff, hshared]
        rfl
  | give =>
      refine (Handoff.Step.handOver i (m := l) (l := 0) ?_).congr ?_ ?_ ?_ ?_ ?_
      · rw [hholds, add_zero]
      · simp only [handoff, hshared]
        rfl
      · rw [hpending]
        exact hcustody
      · simp only [handoff, hshared, Shared.apply, Shared.record, ← Multiset.coe_add]
        ac_rfl
      all_goals
        simp only [handoff, hshared]
        rfl

/-- Beginning an operation moves no execution. -/
lemma callStep_handoff {m : Call} (hidle : s.mainPC = .idle) (h : CallStep s m t) :
    t.handoff = s.handoff := by
  have hcustody : ∀ pc : MainPC, pc.holds = [] → pc.pending = [] →
      ({ s with mainPC := pc } : State).custody = s.custody := by
    intro pc hholds hpending
    funext i
    cases i with
    | main =>
        simp only [custody, hholds, hpending, hidle]
        rfl
    | worker => rfl
  cases h with
  | start => exact Handoff.ext rfl (hcustody _ rfl rfl) rfl rfl rfl
  | enter h => cases h <;> exact Handoff.ext rfl (hcustody _ rfl rfl) rfl rfl rfl
  | swapToFront =>
      exact Handoff.ext (Multiset.coe_eq_coe.2 (BlockingQueue.swapToFrontIf_perm _ _))
        rfl rfl rfl rfl
  | takeFinished | takeReconnectEvents | setAutoReconnect | none => rfl

/-- **Simulation.**  Every step of the system is a step of the hand-off protocol. -/
theorem handoff_step {a : Action} (hs : s.StartedOnce) (hnodup : s.queue.Nodup)
    (h : Step s a t) : Handoff.Step s.handoff t.handoff := by
  cases h with
  | worker hnext =>
      exact handoff_step_of_moves .worker hnodup rfl rfl (custody_stepWorker ..)
        (WorkerPC.next_moves hnext)
  | main hspawn hnext =>
      rcases MainPC.next_moves hnext with hmoves | ⟨e, hpc, rfl, hclosed, rfl⟩
      · exact handoff_step_of_moves .main hnodup rfl rfl (custody_stepMain ..) hmoves
      · have hput : (s.stepMain (.put e) .idle).queue = s.queue ++ [e] := Shared.queue_put hclosed
        refine (Handoff.Step.accept e).congr ?_ ?_ rfl ?_ ?_
        · exact (congrArg _ hput).trans (Multiset.coe_eq_coe.2 (List.perm_append_singleton e _))
        · rw [show (s.stepMain (.put e) .idle).handoff.custody = _ from custody_stepMain ..]
          refine (Function.update_eq_self_iff).2 ?_
          simp only [custody, hpc]
          rfl
        · ext x
          simp [handoff, stepMain, Shared.apply]
        · exact Multiset.coe_eq_coe.2 (List.perm_append_singleton e _)
  | spawn hpc =>
      have hworker : s.workerPC = .notStarted := (hs.connecting _ hpc (by simp) (by simp)).1
      refine (Handoff.Step.keep le_rfl).congr rfl ?_ rfl rfl rfl
      funext i
      cases i <;> simp only [handoff, custody, hpc, hworker] <;> rfl
  | join hpc hworker =>
      refine (Handoff.Step.keep le_rfl).congr rfl ?_ rfl rfl rfl
      funext i
      cases i <;> simp only [custody, hpc, handoff]
      rfl
  | call hidle hcall =>
      rw [callStep_handoff hidle hcall]
      exact .keep le_rfl
  | connectionLost => exact .keep le_rfl

/-- In every state of every run the promises of the protocol hold. -/
theorem handoff_valid (h : system.Reach C s) : s.handoff.Valid := by
  refine system_invariant (I := fun s => s.handoff.Valid) ⟨?_, ?_, ?_⟩
    (fun s t a hr hI _ hstep => ?_) h
  · rfl
  · exact Multiset.zero_le _
  · exact fun x hx => absurd hx (Multiset.notMem_zero x)
  · have hnodup : s.handoff.accepted.Nodup := Multiset.coe_nodup.2 (numbered hr).nodup
    have hqueue : s.queue.Nodup := Multiset.coe_nodup.1 (hI.queue_nodup hnodup)
    exact hI.step (handoff_step (startedOnce hr) hqueue hstep)

/-! ### What follows for every run -/

lemma sum_thread (f : Thread → Multiset Execution) : ∑ i, f i = f .main + f .worker := by
  rw [show (Finset.univ : Finset Thread) = {.main, .worker} from rfl,
    Finset.sum_pair (by simp)]

/-- **Accounting.**  Every accepted execution is in exactly one of five places: the queue, the
hands of one of the two threads, `finishedQueries` as filled by the thread that held it, and
the `completed` lists returned to the caller. -/
theorem accounting (h : system.Reach C s) (e : Execution) :
    s.queue.count e + s.workerPC.holds.count e + s.mainPC.holds.count e +
      s.history.finished.count e + s.history.returned.count e = s.history.accepted.count e := by
  have hplace := congrArg (Multiset.count e) (handoff_valid h).place
  rw [Handoff.holds, sum_thread] at hplace
  simp only [handoff, custody, Multiset.count_add, Multiset.coe_count] at hplace
  omega

/-- **Exclusion.**  What a thread has yet to mark finished is in its hands alone. -/
theorem exclusion (h : system.Reach C s) (e : Execution) :
    s.queue.count e + s.workerPC.pending.count e + s.mainPC.pending.count e ≤ 1 := by
  have hle := Multiset.le_iff_count.1 (handoff_valid h).exclusive e
  rw [Handoff.pending, sum_thread] at hle
  simp only [handoff, custody, Multiset.count_add, Multiset.coe_count] at hle
  have := List.nodup_iff_count_le_one.1 (numbered h).nodup e
  omega

/-- An accepted execution is in the queue, or to be marked finished by the thread that took
it, or finished. -/
theorem unsettled (h : system.Reach C s) {e : Execution} (he : e ∈ s.history.accepted) :
    e ∈ s.queue ∨ e ∈ s.workerPC.pending ∨ e ∈ s.mainPC.pending ∨
      (s.own e).finished = true := by
  have hmem := (handoff_valid h).unsettled e he
  rw [Handoff.pending, sum_thread] at hmem
  simp only [handoff, custody, Multiset.mem_add, Multiset.mem_coe, Set.mem_ofPred_eq] at hmem
  tauto

/-- What is in the queue or in the hands of a thread was accepted. -/
lemma mem_accepted (h : system.Reach C s) {e : Execution}
    (he : e ∈ s.queue ∨ e ∈ s.workerPC.holds ∨ e ∈ s.mainPC.holds) :
    e ∈ s.history.accepted := by
  have hcount := accounting h e
  have hpos : 0 < s.queue.count e + s.workerPC.holds.count e + s.mainPC.holds.count e := by
    rcases he with he | he | he <;> have := List.count_pos_iff.2 he <;> omega
  exact List.count_pos_iff.1 (by omega)

end State
end GmsvPg.Database
