/-
# What was answered

An execution is answered once its terminal callback was invoked.  Seen from the objects that
keep a database alive, three facts matter: only what was handed over is answered; when a
function removes an execution from `runningQueryData`, its callback has been invoked; and once
everything that was accepted is answered, and nothing new comes, the threads have nothing left
to hand over and nothing left to ask of the server.
-/
import GmsvPg.Database.AtRest
import GmsvPg.Database.Finality
import GmsvPg.Lua.Ledger
import GmsvPg.Lua.Causality

namespace GmsvPg.Database

open Library

namespace State

variable {C : State → Action → Prop} {s t : State}

/-! ### What `enqueueQuery` knows -/

/-- `enqueueQuery` has accepted the execution, or is at work on it. -/
def Knows (s : State) (e : Execution) : Prop :=
  e ∈ s.history.accepted ∨ ∃ stage, s.mainPC = .enqueue e stage

/-- Only `start` begins to enqueue. -/
lemma enqueuing_of_step {a : Action} (h : Step s a t)
    (ha : ∀ query children, a ≠ .call (.start query children)) {e : Execution}
    {stage : EnqueueStage} (hpc : t.mainPC = .enqueue e stage) :
    ∃ stage', s.mainPC = .enqueue e stage' := by
  cases h with
  | worker | connectionLost => exact ⟨stage, hpc⟩
  | @main c b pc hspawn hnext =>
      obtain rfl : pc = .enqueue e stage := hpc
      exact MainPC.next_source hnext
  | spawn | join => cases hpc
  | @call m t hidle hcall =>
      cases hcall with
      | start => exact absurd rfl (ha _ _)
      | enter hentry => cases hentry <;> cases hpc
      | swapToFront | takeFinished | takeReconnectEvents | setAutoReconnect | none =>
          exact ⟨stage, hpc⟩

/-- What was accepted is numbered in its order. -/
theorem accepted_sorted (h : system.Reach C s) :
    s.history.accepted.Pairwise fun e e' => e.data < e'.data := by
  refine system_invariant (I := fun s => s.history.accepted.Pairwise fun e e' => e.data < e'.data)
    List.Pairwise.nil (fun s t a hr hI _ hstep => ?_) h
  cases hstep with
  | worker hnext =>
      show (s.toShared.apply _).history.accepted.Pairwise _
      rwa [Shared.apply_accepted (WorkerPC.next_moves hnext)]
  | @main c a pc hspawn hnext =>
      show (s.toShared.apply a).history.accepted.Pairwise _
      rcases MainPC.next_moves hnext with hmoves | ⟨e, hpc, rfl, -, -⟩
      · rwa [Shared.apply_accepted hmoves]
      · refine List.pairwise_append.2 ⟨hI, List.pairwise_singleton _ _, fun x hx y hy => ?_⟩
        rw [List.mem_singleton.1 hy]
        exact ((numbered hr).enqueuing e _ hpc).2 x hx
  | call hidle hcall => exact callStep_accepted hcall ▸ hI
  | spawn | join | connectionLost => exact hI

/-- The number says which of the known executions it is. -/
lemma Knows.eq (h : system.Reach C s) {e e' : Execution} (he : s.Knows e) (he' : s.Knows e')
    (hdata : e.data = e'.data) : e = e' := by
  have hnumbered := numbered h
  rcases he with he | ⟨stage, hpc⟩
  · rcases he' with he' | ⟨stage', hpc'⟩
    · by_contra hne
      obtain ⟨i, hi, rfl⟩ := List.getElem_of_mem he
      obtain ⟨j, hj, rfl⟩ := List.getElem_of_mem he'
      have hsorted := List.pairwise_iff_getElem.1 (accepted_sorted h)
      rcases Nat.lt_trichotomy i j with hij | rfl | hij
      · have := hsorted i j hi hj hij
        omega
      · exact hne rfl
      · have := hsorted j i hj hi hij
        omega
    · have := (hnumbered.enqueuing e' stage' hpc').2 e he
      omega
  · rcases he' with he' | ⟨stage', hpc'⟩
    · have := (hnumbered.enqueuing e stage hpc).2 e' he'
      omega
    · rw [hpc] at hpc'
      cases hpc'
      rfl

/-- What `enqueueQuery` refuses is forgotten. -/
lemma not_knows_of_refused (h : system.Reach C s) {c : Choice} (hstep : Step s (.main c) t)
    {e : Execution} (hpc : s.mainPC = .enqueue e .setFinished) : ¬ t.Knows e := by
  have hnew := ((numbered h).enqueuing e _ hpc).2
  rintro (he | ⟨stage, hpc'⟩)
  · rcases accepted_of_step hstep he with hbefore | hput
    · exact Nat.lt_irrefl _ (hnew e hbefore)
    · rw [hpc] at hput
      cases hput
  · cases hstep with
    | @main c b pc hspawn hnext =>
        rw [hpc] at hnext
        cases Option.some.inj hnext
        cases hpc'
    | spawn | join => cases hpc'

/-- Only `waitForQuery` forces. -/
lemma forced_of_step {a : Action} (h : Step s a t) {e : Execution} (he : e ∈ t.history.forced) :
    e ∈ s.history.forced ∨ s.mainPC = .waiting e .forcePut := by
  cases h with
  | worker hnext =>
      refine .inl ((Shared.mem_forced_apply he).resolve_right ?_)
      rintro rfl
      cases WorkerPC.next_ofMain hnext
  | main hspawn hnext =>
      refine (Shared.mem_forced_apply he).imp_right ?_
      rintro rfl
      exact MainPC.next_forceFinish hnext
  | call hidle hcall => cases hcall <;> exact .inl he
  | spawn | join | connectionLost => exact .inl he

/-! ### Nothing is left -/

/-- Everything accepted was handed over, nothing new is being enqueued, and the attempt to
connect is over, if there was one. -/
structure Drained (s : State) : Prop where
  enqueuing : ∀ e stage, s.mainPC ≠ .enqueue e stage
  connecting : ∀ stage, s.mainPC ≠ .connect stage
  handed : ∀ e ∈ s.history.accepted, e ∈ s.history.finished ∨ e ∈ s.history.returned
  connected : s.startedConnecting = true → s.connectionDone = true

end State

lemma Shared.mem_returned_of_mem {s : Shared} {a : Access} {e : Execution}
    (h : e ∈ s.history.returned) : e ∈ (s.apply a).history.returned := by
  cases a with
  | connectSession error => cases error <;> exact h
  | returnCompleted es => exact List.mem_append_left _ h
  | _ => exact h

lemma Shared.startedConnecting_of_set {s : Shared} {a : Access}
    (h : (s.apply a).startedConnecting = true) :
    a = .setStartedConnecting ∨ s.startedConnecting = true := by
  cases a with
  | connectSession error => cases error <;> exact .inr h
  | setStartedConnecting => exact .inl rfl
  | _ => exact .inr h

/-- Only `connect` starts the worker thread. -/
lemma State.startedConnecting_before {s t : State} {a : Action} (h : Step s a t)
    (hconnecting : ∀ stage, s.mainPC ≠ .connect stage) (ht : t.startedConnecting = true) :
    s.startedConnecting = true := by
  cases h with
  | worker hnext =>
      refine (Shared.startedConnecting_of_set ht).resolve_left ?_
      rintro rfl
      cases WorkerPC.next_ofMain hnext
  | @main c a pc hspawn hnext =>
      refine (Shared.startedConnecting_of_set ht).resolve_left fun ha => ?_
      have hstarting := (MainPC.next_course hnext).started ha
      cases pc with
      | connect stage =>
          obtain ⟨stage', hpc⟩ := MainPC.next_source hnext
          exact hconnecting stage' hpc
      | _ => cases hstarting
  | call hidle hcall => cases hcall <;> exact ht
  | spawn | join | connectionLost => exact ht

namespace State

variable {C : State → Action → Prop} {s t : State}

lemma connecting_of_next {a : Action} (h : system.next s a = some t) (ha : a ≠ .call .connect)
    {stage : ConnectCallStage} (hpc : t.mainPC = .connect stage) :
    ∃ stage', s.mainPC = .connect stage' := by
  cases step_of_next h with
  | worker | connectionLost => exact ⟨stage, hpc⟩
  | @main c b pc hspawn hnext =>
      obtain rfl : pc = .connect stage := hpc
      exact MainPC.next_source hnext
  | spawn | join => cases hpc
  | @call m t hidle hcall =>
      exact absurd hpc (mainPC_ne_connect h (fun hm => ha (hm ▸ rfl)) stage)

/-- It stays so, whatever is called but `start` and `connect`. -/
lemma Drained.step {a : Action} (hI : s.Drained) (h : system.next s a = some t)
    (hstart : ∀ query children, a ≠ .call (.start query children)) (hconnect : a ≠ .call .connect) :
    t.Drained where
  enqueuing e stage hpc := by
    obtain ⟨stage', hpc'⟩ := enqueuing_of_step (step_of_next h) hstart hpc
    exact hI.enqueuing e stage' hpc'
  connecting stage hpc := by
    obtain ⟨stage', hpc'⟩ := connecting_of_next h hconnect hpc
    exact hI.connecting stage' hpc'
  handed e he := by
    have he := (accepted_of_step (step_of_next h) he).resolve_right (hI.enqueuing e _)
    have hkept := hI.handed e he
    cases step_of_next h with
    | worker | main =>
        exact hkept.imp (fun hmem => Shared.mem_finished_apply (.inl hmem))
          Shared.mem_returned_of_mem
    | call hidle hcall => cases hcall <;> exact hkept
    | spawn | join | connectionLost => exact hkept
  connected hstarted :=
    have hbefore := startedConnecting_before (step_of_next h) hI.connecting hstarted
    connectionDone_of_step (step_of_next h) (hI.connected hbefore)

/-- Then the threads have nothing in their hands. -/
lemma Drained.empty (hI : s.Drained) (h : system.Reach C s) :
    s.queue = [] ∧ s.workerPC.holds = [] ∧ s.mainPC.holds = [] := by
  have hnone : ∀ e, s.queue.count e + s.workerPC.holds.count e + s.mainPC.holds.count e = 0 := by
    intro e
    have hplace := accounting h e
    by_cases he : e ∈ s.history.accepted
    · have haccepted := List.count_eq_one_of_mem (numbered h).nodup he
      have hhanded : 0 < s.history.finished.count e + s.history.returned.count e := by
        rcases hI.handed e he with hmem | hmem <;> have := List.count_pos_iff.2 hmem <;> omega
      omega
    · have haccepted := List.count_eq_zero.2 he
      omega
  have hnil : ∀ l : List Execution, (∀ e, l.count e = 0) → l = [] := fun l hl =>
    List.eq_nil_iff_forall_not_mem.2 fun e => List.count_eq_zero.1 (hl e)
  refine ⟨hnil _ fun e => ?_, hnil _ fun e => ?_, hnil _ fun e => ?_⟩ <;>
    have := hnone e <;> omega

/-- Then the worker thread does not wait for the server any more. -/
lemma Drained.prompt (hI : s.Drained) (h : system.Reach C s) (c : Choice) :
    s.workerPC.next s.toShared c = s.workerPC.next s.toShared .go := by
  have hholds := (hI.empty h).2.1
  have hpublishes : s.workerPC.Publishes s.connectionDone s.success s.disconnected :=
    publishes_of_reach h
  cases hpc : s.workerPC with
  | running e r =>
      rw [hpc] at hholds
      cases r with
      | setFinishedAborted | clearInFlightAborted | unlockAborted | setFinished | clearInFlight =>
          rfl
      | _ => cases hholds
  | connecting stage =>
      rw [hpc] at hpublishes
      have hdone : s.connectionDone = true := by
        refine hI.connected ?_
        cases hstarted : s.startedConnecting with
        | true => rfl
        | false =>
            have hbefore := (startedOnce h).before hstarted
            rw [hpc] at hbefore
            cases hbefore
      cases stage with
      | attemptConnection => exact absurd (hdone.symm.trans hpublishes.1) (by simp)
      | _ => rfl
  | notStarted | taking | leaving | ended => rfl

end State

end GmsvPg.Database

namespace GmsvPg.Lua

open Library Machine
open Database (Execution Choice MainPC Access system)

namespace State

variable {C : State → Action → Prop} {s t : State}

lemma mem_answered {e : Execution} : e ∈ s.answered ↔ s.Told e := List.mem_filterMap

lemma mem_answered_of_invoked (h : t.invoked = s.invoked) {e : Execution} (he : e ∈ s.answered) :
    e ∈ t.answered := by
  rw [answered, h]
  exact he

lemma mem_answered_of_step {a : Action} (h : Step s a t) {e : Execution} (he : e ∈ s.answered) :
    e ∈ t.answered :=
  mem_answered.2 (told_of_step h (mem_answered.1 he))

/-- What `completeQueryWithError` puts on `finishedQueries` itself, `query:wait()` waits for. -/
theorem forced_accepted (h : machine.Reach C s) :
    ∀ e ∈ s.database.history.forced, e ∈ s.database.history.accepted := by
  refine machine_invariant
    (I := fun s => ∀ e ∈ s.database.history.forced, e ∈ s.database.history.accepted) (by simp)
    (fun s t a hr hI _ hstep e he => ?_) h
  rcases hstep.database with hsame | ⟨b, -, hb⟩
  · exact hsame ▸ hI e (hsame ▸ he)
  · have hb := Database.step_of_next hb
    refine Database.State.mem_accepted_of_step hb ?_
    rcases Database.State.forced_of_step hb he with hbefore | hpc
    · exact hI e hbefore
    · obtain ⟨below, hframes⟩ : ServedBy s.frames (.waiting e .forcePut) := hpc ▸ served_of_reach hr
      exact accepted_of_waits hr _ (hframes ▸ List.mem_cons_self) rfl

/-- Only what was accepted, and handed over by the thread that held it, is answered. -/
theorem handed_of_answered (h : machine.Reach NoLateFallback s) {e : Execution}
    (he : e ∈ s.answered) : e ∈ s.database.history.accepted ∧
      (e ∈ s.database.history.finished ∨ e ∈ s.database.history.returned) := by
  have hdatabase := database_noLateFallback h
  have hforced : s.database.history.forced.count e = 0 := List.count_eq_zero.2 fun hmem =>
    (Database.State.unforced_of_reach hdatabase).forced e hmem (forced_accepted h e hmem)
  have hanswered := List.count_pos_iff.2 he
  have hledger := answered_add_owed h e
  have hplace := Database.State.accounting hdatabase e
  simp only [Database.History.handed, List.count_append] at hledger
  refine ⟨List.count_pos_iff.1 (by omega), ?_⟩
  by_contra hnot
  rw [not_or] at hnot
  have hfinished := List.count_eq_zero.2 hnot.1
  have hreturned := List.count_eq_zero.2 hnot.2
  omega

/-- `runningQueryData` is left after the callback. -/
lemma answered_of_finishes (h : machine.Reach C s) {f : Frame} {f' : Option Frame}
    {below : List Frame} {effect : Effect} (hframes : s.frames = f :: below)
    (hnext : f.Moves s.view effect f') {e : Execution} (he : effect.finishes = some e) :
    e ∈ s.answered := by
  refine mem_answered.2 (current_of_reach h f (hframes ▸ List.mem_cons_self) ?_)
  cases hnext <;> cases he <;> rfl

/-- A database that has no table left has told how the attempt to connect ended. -/
lemma connectionDone_of_tableless (h : machine.Reach C s) (hidle : s.database.mainPC = .idle)
    (htable : s.tableReference = false) (hstarted : s.database.startedConnecting = true) :
    s.database.connectionDone = true := by
  have hreach := database_reachable h
  rcases (tableless_of_reach h).table htable with hpc | ⟨hdone, -⟩ | hdisconnected
  · rcases (Database.State.underway_of_reach hreach).started hstarted with hne | hstarting
    · exact absurd hpc hne
    · rw [hidle] at hstarting
      cases hstarting
  · exact hdone
  · have hpublishes : s.database.workerPC.Publishes s.database.connectionDone
        s.database.success s.database.disconnected := Database.State.publishes_of_reach hreach
    rcases Database.WorkerPC.past_of_disconnected hpublishes hdisconnected with hpc | hpc | hpc <;>
      rw [hpc] at hpublishes <;> exact hpublishes.1

lemma not_knows_of_refused (h : machine.Reach C s) {c : Choice}
    (hnext : machine.next s (.main c) = some t) {e : Execution}
    (hpc : s.database.mainPC = .enqueue e .setFinished) : ¬ t.database.Knows e := by
  cases step_of_next hnext with
  | environment hb => rcases hb with ⟨c', hc, -⟩ | ⟨hc, -⟩ <;> cases hc
  | main hne hdatabase =>
      rw [afterMain_database]
      exact Database.State.not_knows_of_refused (database_reachable h)
        (Database.step_of_next hdatabase) hpc

/-- `connect` takes a reference to the table; no other call does. -/
lemma tableReference_of_call {f : Call} (h : machine.next s (.call f) = some t) :
    t.tableReference = (s.tableReference || decide (f = .connect)) := by
  cases step_of_next h with
  | environment hb => rcases hb with ⟨c, hc, -⟩ | ⟨hc, -⟩ <;> cases hc
  | call hidle huser hcall =>
      by_cases hf : f = .connect
      · subst hf
        obtain ⟨u, -, rfl⟩ := step_eq_some.1 hcall
        simp
      · rw [decide_eq_false hf, Bool.or_false]
        cases callStep_of_call hcall with
        | connect => exact absurd rfl hf
        | begin | start | waitQuery | enter | throw => rfl

/-! ### Nothing is left -/

/-- Everything accepted is answered, and the threads have nothing left to do for it. -/
structure Done (s : State) : Prop where
  database : s.database.Drained
  answered : ∀ e ∈ s.database.history.accepted, e ∈ s.answered

lemma done_of_answered (h : machine.Reach NoLateFallback s) (hidle : s.database.mainPC = .idle)
    (htable : s.tableReference = false)
    (hanswered : ∀ e ∈ s.database.history.accepted, e ∈ s.answered) : s.Done where
  database := {
    enqueuing := fun e stage hpc => by
      rw [hidle] at hpc
      cases hpc
    connecting := fun stage hpc => by
      rw [hidle] at hpc
      cases hpc
    handed := fun e he => (handed_of_answered h (hanswered e he)).2
    connected := connectionDone_of_tableless h hidle htable }
  answered := hanswered

/-- It stays so, whatever the database underneath is told but `start` and `connect`. -/
lemma Done.of_next (hI : s.Done) {b : Database.Action}
    (h : system.next s.database b = some t.database) (hinvoked : t.invoked = s.invoked)
    (hstart : ∀ query children, b ≠ .call (.start query children))
    (hconnect : b ≠ .call .connect) : t.Done where
  database := hI.database.step h hstart hconnect
  answered e he := mem_answered_of_invoked hinvoked <| hI.answered e <|
    (Database.State.accepted_of_step (Database.step_of_next h) he).resolve_right
      (hI.database.enqueuing e _)

lemma Done.call (hI : s.Done) {m : Database.Call} (h : s.step (.call m) = some t)
    (hstart : ∀ query children, m ≠ .start query children) (hconnect : m ≠ .connect) : t.Done := by
  obtain ⟨u, hu, rfl⟩ := step_eq_some.1 h
  exact hI.of_next hu rfl (fun query children heq => hstart query children (by cases heq; rfl))
    fun heq => hconnect (by cases heq; rfl)

/-- What a step of a thread, or of the main thread inside an operation of `Database`, leaves. -/
structure Continues (s t : State) : Prop where
  invoked : t.invoked = s.invoked
  tableReference : t.tableReference = s.tableReference
  done : s.Done → t.Done

lemma continues_of_next {a : Action} (hlua : a ≠ .lua) (hcall : ∀ f, a ≠ .call f)
    (h : machine.next s a = some t) : s.Continues t := by
  have hof : ∀ {b : Database.Action}, system.next s.database b = some t.database →
      (∀ m, b ≠ .call m) → t.invoked = s.invoked → t.tableReference = s.tableReference →
      s.Continues t := fun hb hnot hinvoked htable =>
    ⟨hinvoked, htable, fun hI => hI.of_next hb hinvoked (fun query children => hnot _) (hnot _)⟩
  cases step_of_next h with
  | @environment a b u hb hdatabase =>
      refine hof hdatabase (fun m heq => ?_) rfl rfl
      rcases hb with ⟨c, -, rfl⟩ | ⟨-, rfl⟩ <;> cases heq
  | @main c u hpc hdatabase =>
      refine hof (b := .main c) ?_ (fun m heq => by cases heq) (afterMain_invoked _)
        (afterMain_tableReference _)
      rw [afterMain_database]
      exact hdatabase
  | lua => exact absurd rfl hlua
  | call => exact absurd rfl (hcall _)

end State

end GmsvPg.Lua
