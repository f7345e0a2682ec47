/-
# Delivery under re-entrancy

A `think` inside a callback of another `think` takes what was put on `finishedQueries` in the
meantime, and delivers it before the outer one goes on with its list.  So callbacks are run in
the order of the queue as long as no `think` takes entries while an outer one has some left.
In the same way `query:wait()` returns after the callback of its execution, unless that
execution lay in the list of an outer function when it was called.
-/
import GmsvPg.Lua.Batches

namespace GmsvPg.Lua

open Library Machine
open Database (Execution Choice MainPC Access system)

/-- The execution that a function on the stack waits for, or has waited for, on behalf of
`query:wait()`. -/
def Frame.waits : Frame → Option Execution
  | .think _ waited | .waiting waited => waited
  | .beforeWait e => some e
  | _ => none

lemma Frame.waits_collect (es : List Execution) (f : Frame) : (f.collect es).waits = f.waits := by
  cases f <;> rfl

lemma Frame.Moves.waits {v : ThinkView Put} {f g : Frame} {effect : Effect}
    (h : f.Moves v effect (some g)) : g.waits = f.waits := by
  cases h <;> rfl

/-- `think` is past `takeFinishedQueries`. -/
def Frame.late : Frame → Bool
  | .think (.finishedQueries _) _ | .think (.inCallback _ _) _ | .think .testDisconnected _
  | .think .inDisconnectedCallback _ => true
  | _ => false

/-- `think` has begun. -/
def Frame.thinks : Frame → Bool
  | .think _ _ => true
  | _ => false

/-- `think` takes entries while an outer `think` has some left, or `query:wait()` is called for
an execution whose terminal callback a function on the stack is still to run. -/
def State.overtakes (s : State) : Action → Bool
  | .lua =>
      match s.frames with
      | .think .takeFinishedQueries _ :: below =>
          !s.puts.isEmpty && below.any fun f => !f.rest.isEmpty
      | _ => false
  | .call (.waitQuery query _) =>
      match s.lastRunning query with
      | some e =>
          s.frames.any (fun f => decide (e ∈ f.owes)) &&
            !s.frames.any fun f => decide (f.current = some e)
      | none => false
  | _ => false

/-- The condition on a step under which callbacks are run in order. -/
def InOrder (s : State) (a : Action) : Prop := s.overtakes a = false

instance (s : State) (a : Action) : Decidable (InOrder s a) :=
  inferInstanceAs (Decidable (_ = false))

namespace State

variable {C : State → Action → Prop} {s t : State}

/-! ### The order -/

lemma newPuts_number (s : State) (b : Database.Action) :
    (s.newPuts b).map Put.number = List.range' s.putCount (s.newPuts b).length := by
  unfold newPuts
  cases (s.database.access b).bind Access.puts <;> rfl

/-- The lists on the stack, from the innermost on, and the queue are in the order in which the
entries were put there. -/
theorem numbered_of_reach (h : machine.Reach InOrder s) :
    s.batches.map Put.number = List.range s.putCount := by
  refine machine_invariant (I := fun s => s.batches.map Put.number = List.range s.putCount) rfl
    (fun s t a _ hI hC hstep => ?_) h
  have hthreads : ∀ b u, (s.withDatabase b u).batches.map Put.number =
      List.range (s.withDatabase b u).putCount := by
    intro b u
    rw [batches_withDatabase, List.map_append, hI, newPuts_number]
    show _ = List.range (s.putCount + (s.newPuts b).length)
    rw [List.range_eq_range', List.range_eq_range', ← List.range'_append_1, Nat.zero_add]
  cases hstep with
  | environment => exact hthreads _ _
  | main =>
      rw [afterMain_batches, afterMain_putCount]
      exact hthreads _ _
  | @lua f f' below effect t hidle hframes hnext ht =>
      have hbatches : ({ t with frames := f'.toList ++ below } : State).batches = s.batches := by
        rw [batches, taken_of_lua hframes hnext ht, show State.puts _ = t.puts from rfl,
          (performed ht).puts]
        by_cases htake : effect = .think .takeFinishedQueries
        · subst htake
          cases hnext
          rw [if_pos rfl, if_pos rfl, List.append_nil, batches, taken, hframes, List.flatMap_cons]
          -- the queue is empty, or nothing is left of the outer batches
          have hempty : s.puts = [] ∨ below.flatMap Frame.rest = [] := by
            by_cases hputs : s.puts = []
            · exact .inl hputs
            · refine .inr (List.flatMap_eq_nil_iff.2 fun g hg => ?_)
              have hrests : ∀ g ∈ below, g.rest = [] := by
                simpa [InOrder, overtakes, hframes, hputs] using hC
              exact hrests g hg
          rcases hempty with hempty | hempty <;> simp [hempty, Frame.rest, ThinkStage.rest]
        · rw [if_neg htake, if_neg htake]
          rfl
      calc ({ t with frames := f'.toList ++ below } : State).batches.map Put.number
        _ = s.batches.map Put.number := by rw [hbatches]
        _ = List.range s.putCount := hI
        _ = List.range t.putCount := by rw [(performed ht).putCount]
  | call hidle huser hcall =>
      have hcalled := (callStep_of_call hcall).called
      rw [(batches_of_called hcalled).2, hcalled.putCount]
      exact hI

/-- What comes first in an initial segment of the numbers is one. -/
lemma eq_range_of_append {l m : List ℕ} {n : ℕ} (h : l ++ m = List.range n) :
    l = List.range l.length := by
  have hlength : l.length ≤ n := by
    have := congrArg List.length h
    simp only [List.length_append, List.length_range] at this
    omega
  calc l
    _ = (l ++ m).take l.length := by simp
    _ = (List.range n).take l.length := by rw [h]
    _ = List.range l.length := by rw [List.take_range, Nat.min_eq_left hlength]

/-! ### What is running -/

/-- The data in `runningQueryData` was accepted by `enqueueQuery`, or is being enqueued. -/
structure Running (s : State) : Prop where
  nodup : s.running.Nodup
  built : ∀ e ∈ s.running, s.database.built e
  accepted : ∀ e ∈ s.running,
    e ∈ s.database.history.accepted ∨ ∃ stage, s.database.mainPC = .enqueue e stage

lemma afterMain_running {pc : MainPC} (h : ∀ e, pc ≠ .enqueue e .setFinished) :
    (s.afterMain pc).running = s.running := by
  unfold afterMain
  split
  · exact absurd rfl (h _)
  · rfl
  · rfl
  · rfl

/-- What `enqueueQuery` does not put into the queue, `start` removes again. -/
lemma Running.main {c : Choice} {pc : MainPC} {b : Access} {u : Database.State} (hI : s.Running)
    (hu : u.toShared = s.database.toShared.apply b) (hpc : u.mainPC = pc)
    (hstep : Database.Step s.database (.main c) u)
    (hnext : s.database.mainPC.next s.database.toShared c = some (b, pc)) :
    ((s.withDatabase (.main c) u).afterMain s.database.mainPC).Running := by
  have hbuilt : ∀ e, s.database.built e → u.built e := fun e =>
    Database.State.built_of_step hstep
  have hkeep : ∀ e ∈ s.database.history.accepted, e ∈ u.history.accepted := fun e =>
    Database.State.mem_accepted_of_step hstep
  by_cases hrefused : ∃ e, s.database.mainPC = .enqueue e .setFinished
  · obtain ⟨e, he⟩ := hrefused
    have hrunning : ((s.withDatabase (.main c) u).afterMain s.database.mainPC).running =
        s.running.erase e := by rw [he]; rfl
    refine ⟨hrunning ▸ hI.nodup.erase e, fun x hx => ?_, fun x hx => ?_⟩
    · rw [afterMain_database]
      exact hbuilt x (hI.built x (List.mem_of_mem_erase (hrunning ▸ hx)))
    · rw [afterMain_database]
      obtain ⟨hne, hx⟩ := hI.nodup.mem_erase_iff.1 (hrunning ▸ hx)
      rcases hI.accepted x hx with hx | ⟨stage, hx⟩
      · exact .inl (hkeep x hx)
      · rw [he] at hx
        cases hx
        exact absurd rfl hne
  · have hrunning := afterMain_running (s := s.withDatabase (.main c) u)
      fun e he => hrefused ⟨e, he⟩
    refine ⟨hrunning ▸ hI.nodup, fun x hx => ?_, fun x hx => ?_⟩
    · rw [afterMain_database]
      exact hbuilt x (hI.built x (hrunning ▸ hx))
    · rw [afterMain_database, show (s.withDatabase (.main c) u).database = u from rfl, hpc]
      rcases hI.accepted x (hrunning ▸ hx) with hx | ⟨stage, hx⟩
      · exact .inl (hkeep x hx)
      · rw [hx] at hnext
        cases stage with
        | setFinished => exact absurd ⟨x, hx⟩ hrefused
        | put =>
            have hnext : (if s.database.closed then
                (Access.read, MainPC.enqueue x .storeAborted) else (.put x, .idle)) = (b, pc) :=
              Option.some.inj hnext
            split at hnext <;> cases hnext
            · exact .inr ⟨_, rfl⟩
            · rw [show u.history = (s.database.toShared.apply (.put x)).history from
                congrArg _ hu]
              exact .inl (List.mem_append_right _ (List.mem_singleton_self x))
        | _ =>
            cases Option.some.inj hnext
            exact .inr ⟨_, rfl⟩

theorem running_of_reach (h : machine.Reach C s) : s.Running := by
  refine machine_invariant (I := Running) ⟨List.nodup_nil, by simp, by simp⟩
    (fun s t a hr hI _ hstep => ?_) h
  -- while the main thread is idle, everything that runs was accepted
  have hidle : s.database.mainPC = .idle → ∀ e ∈ s.running, e ∈ s.database.history.accepted := by
    intro hidle e he
    refine (hI.accepted e he).resolve_right ?_
    rintro ⟨stage, hpc⟩
    exact absurd (hidle.symm.trans hpc) (by simp)
  have hbuilt : ∀ e ∈ s.running, t.database.built e := by
    intro e he
    rcases hstep.database with hsame | ⟨b, -, hb⟩
    · exact hsame ▸ hI.built e he
    · exact Database.State.built_of_step (Database.step_of_next hb) (hI.built e he)
  have hkeep : ∀ e ∈ s.database.history.accepted, e ∈ t.database.history.accepted := by
    intro e he
    rcases hstep.database with hsame | ⟨b, -, hb⟩
    · exact hsame ▸ he
    · exact Database.State.mem_accepted_of_step (Database.step_of_next hb) he
  cases hstep with
  | @environment a b u hb hdatabase =>
      refine ⟨hI.nodup, hbuilt, fun e he => (hI.accepted e he).imp (hkeep e) ?_⟩
      rintro ⟨stage, hpc⟩
      exact ⟨stage, (mainPC_of_environment hb hdatabase).trans hpc⟩
  | @main c u hpc hdatabase =>
      have hstay : (∀ e stage, s.database.mainPC ≠ .enqueue e stage) →
          ((s.withDatabase (.main c) u).afterMain s.database.mainPC).Running := by
        intro hne
        have hrunning := afterMain_running (s := s.withDatabase (.main c) u) fun e => hne e _
        refine ⟨hrunning ▸ hI.nodup, fun e he => hbuilt e (hrunning ▸ he), fun e he => ?_⟩
        refine .inl (hkeep e ((hI.accepted e (hrunning ▸ he)).resolve_right ?_))
        rintro ⟨stage, hpc⟩
        exact hne e stage hpc
      cases hdb : Database.step_of_next hdatabase with
      | main hspawn hnext => exact hI.main rfl rfl (Database.step_of_next hdatabase) hnext
      | spawn hspawn => exact hstay fun e stage => by simp [hspawn]
      | join hjoin hworker => exact hstay fun e stage => by simp [hjoin]
  | @lua f f' below effect t hidle' hframes hnext ht =>
      have hrunning : t.running.Nodup ∧ t.running ⊆ s.running := by
        rw [(performed ht).running]
        cases effect.finishes with
        | none => exact ⟨hI.nodup, List.Subset.refl _⟩
        | some e => exact ⟨hI.nodup.erase e, List.erase_subset⟩
      exact ⟨hrunning.1, fun e he => hbuilt e (hrunning.2 he),
        fun e he => .inl (hkeep e (hidle hidle' e (hrunning.2 he)))⟩
  | call hidle' huser hcall =>
      have hsame : t.running = s.running → t.Running := by
        intro hrunning
        exact ⟨hrunning ▸ hI.nodup, fun e he => hbuilt e (hrunning ▸ he),
          fun e he => .inl (hkeep e (hidle hidle' e (hrunning ▸ he)))⟩
      cases callStep_of_call hcall with
      | @start query children u hdatabase =>
          -- the data is new
          have hfresh : s.database.newExecution query children ∉ s.running := by
            intro hmem
            exact Nat.lt_irrefl _ (hI.built _ hmem)
          have hu : u.started = s.database.started + 1 ∧ u.mainPC =
              .enqueue (s.database.newExecution query children) .testShuttingDown := by
            have hdatabase : (if s.database.mainPC = .idle then
                s.database.call (.start query children) else none) = some u := hdatabase
            rw [if_pos hidle'] at hdatabase
            obtain rfl := Option.some.inj hdatabase
            exact ⟨rfl, rfl⟩
          refine ⟨?_, fun e he => ?_, fun e he => ?_⟩
          · exact List.nodup_append.2 ⟨hI.nodup, List.nodup_singleton _, by
              rintro x hx y hy rfl
              exact hfresh (List.mem_singleton.1 hy ▸ hx)⟩
          · rcases List.mem_append.1 he with he | he
            · exact hbuilt e he
            · obtain rfl := List.mem_singleton.1 he
              show s.database.started < u.started
              omega
          · rcases List.mem_append.1 he with he | he
            · exact .inl (hkeep e (hidle hidle' e he))
            · exact .inr ⟨_, List.mem_singleton.1 he ▸ hu.2⟩
      | begin | connect | waitQuery | enter | throw => exact hsame rfl

/-! ### What is waited for -/

lemma mem_running_of_lastRunning {query : ℕ} {e : Execution} (h : s.lastRunning query = some e) :
    e ∈ s.running :=
  List.mem_of_mem_filter (List.mem_of_getLast? h)

theorem accepted_of_waits (h : machine.Reach C s) {e : Execution} :
    ∀ f ∈ s.frames, f.waits = some e → e ∈ s.database.history.accepted := by
  refine machine_invariant
    (I := fun s => ∀ f ∈ s.frames, f.waits = some e → e ∈ s.database.history.accepted) (by simp)
    (fun s t a hr hI _ hstep g hg he => ?_) h
  have hkeep : e ∈ s.database.history.accepted → e ∈ t.database.history.accepted := by
    intro he
    rcases hstep.database with hsame | ⟨b, -, hb⟩
    · exact hsame ▸ he
    · exact Database.State.mem_accepted_of_step (Database.step_of_next hb) he
  refine hkeep ?_
  rcases frame_of_step Frame.waits_collect hstep hg with
    ⟨f, hf, hsame⟩ | ⟨f, below, effect, u, -, hframes, hnext, -, -⟩ | ⟨c, -, hidle, hentered⟩
  · exact hI f hf (hsame ▸ he)
  · exact hI f (hframes ▸ List.mem_cons_self) (hnext.waits ▸ he)
  · cases hentered with
    | beforeWait hlast =>
        cases he
        refine ((running_of_reach hr).accepted e (mem_running_of_lastRunning hlast)).resolve_right ?_
        rintro ⟨stage, hpc⟩
        exact absurd (hidle.symm.trans hpc) (by simp)
    | _ => cases he

/-- While `query:wait()` is at `waitForQuery`, so is the main thread, or the execution has been
handed over. -/
def Waited (s : State) : Prop :=
  ∀ e below, s.frames = .waiting (some e) :: below →
    (∃ stage, s.database.mainPC = .waiting e stage) ∨
      s.database.mainPC = .idle ∧ e ∈ s.database.history.handed

/-- Nothing but `query:wait()` itself puts its function on top of the stack. -/
lemma waiting_of_call {c : Call} {e : Execution} {below : List Frame}
    (huser : s.inUserCode = true) (h : Called s c t) :
    t.frames ≠ .waiting (some e) :: below := by
  intro hframes
  rcases h.frames with hsame | ⟨g, hentered, hsame⟩
  · rw [inUserCode, ← hsame, hframes] at huser
    cases huser
  · rw [hsame] at hframes
    obtain ⟨rfl, -⟩ := List.cons_eq_cons.1 hframes
    cases hentered

/-- The main thread stays in `waitForQuery` until the execution has been handed over. -/
lemma handed_of_waitForQuery {c : Choice} {pc : MainPC} {b : Access} {u : Database.State}
    {e : Execution} {stage : Database.WaitStage} (hr : system.Reachable u)
    (hu : u.toShared = s.database.toShared.apply b) (hpc : u.mainPC = pc)
    (haccepted : e ∈ u.history.accepted) (hmain : s.database.mainPC = .waiting e stage)
    (hnext : s.database.mainPC.next s.database.toShared c = some (b, pc)) :
    (∃ stage, u.mainPC = .waiting e stage) ∨ u.mainPC = .idle ∧ e ∈ u.history.handed := by
  rw [hmain] at hnext
  rcases Database.WaitStage.next_target hnext with rfl | ⟨stage', rfl⟩
  · refine .inr ⟨hpc, ?_⟩
    rcases Database.WaitStage.next_idle hnext with hfinished | rfl
    · exact Database.State.handed_of_finished hr hpc haccepted (hu ▸ hfinished)
    · rw [show u.history = (s.database.toShared.apply (.forceFinish e)).history from
        congrArg _ hu]
      exact Database.Shared.mem_handed_of_access (.inr (.inl rfl))
  · exact .inl ⟨stage', hpc⟩

theorem waited_of_reach (h : machine.Reach C s) : s.Waited := by
  refine h.invariant (I := Waited) (by simp [Waited, machine])
    (fun s t a hr hI hC hnext e below hstack => ?_)
  have ht : machine.Reach C t := .step hr hC hnext
  have haccepted : e ∈ t.database.history.accepted :=
    accepted_of_waits ht _ (hstack ▸ List.mem_cons_self) rfl
  cases step_of_next hnext with
  | @environment a b u hb hdatabase =>
      rcases hI e below hstack with ⟨stage, hpc⟩ | ⟨hpc, hhanded⟩
      · exact .inl ⟨stage, (mainPC_of_environment hb hdatabase).trans hpc⟩
      · exact .inr ⟨(mainPC_of_environment hb hdatabase).trans hpc,
          Database.State.mem_handed_of_step (Database.step_of_next hdatabase) hhanded⟩
  | @main c u hpc hdatabase =>
      have hbefore : s.frames = .waiting (some e) :: below := by
        rcases afterMain_frames (s := s.withDatabase (.main c) u) s.database.mainPC with
          hframes | ⟨es, hframes⟩
        · exact hframes.symm.trans hstack
        · rw [hframes] at hstack
          have hstack : s.frames.modifyHead (Frame.collect es) = _ := hstack
          cases hframes' : s.frames with
          | nil => rw [hframes'] at hstack; cases hstack
          | cons f below' =>
              rw [hframes'] at hstack
              obtain ⟨hf, rfl⟩ := List.cons_eq_cons.1 hstack
              cases f <;> cases hf
              rfl
      obtain ⟨stage, hmain⟩ := (hI e below hbefore).resolve_right fun hidle => hpc hidle.1
      rw [afterMain_database] at haccepted ⊢
      cases Database.step_of_next hdatabase with
      | main hspawn hnext' =>
          exact handed_of_waitForQuery (afterMain_database (s := s.withDatabase _ _) _ ▸
            database_reachable ht) rfl rfl haccepted hmain hnext'
      | spawn hspawn => exact absurd (hmain.symm.trans hspawn) (by simp)
      | join hjoin hworker => exact absurd (hmain.symm.trans hjoin) (by simp)
  | @lua f f' below' effect u hidle hframes hmoves hu =>
      have hstack : f'.toList ++ below' = .waiting (some e) :: below := hstack
      cases f' with
      | none =>
          -- what is below waits for user code
          have huser := userCode_of_reach hr (.waiting (some e)) (by
            rw [hframes, List.tail_cons, show below' = _ from hstack]
            exact List.mem_cons_self)
          cases huser
      | some g =>
          obtain ⟨rfl, -⟩ := List.cons_eq_cons.1 hstack
          cases hmoves
          obtain ⟨v, hv, rfl⟩ := step_eq_some.1 hu
          exact .inl ⟨_, Database.State.mainPC_of_waitForQuery hv⟩
  | call hidle huser hcall =>
      exact absurd hstack (waiting_of_call huser (callStep_of_call hcall).called)

/-- What is known of an execution that a function on the stack waits for, given the functions
below it. -/
structure Awaited (s : State) (e : Execution) (f : Frame) (below : List Frame) : Prop where
  /-- no function below is to run its callback -/
  below : s.Told e ∨ ∀ g ∈ below, e ∉ g.owes
  /-- when `think` begins, it was put on `finishedQueries` -/
  thinks : f.thinks = true → s.Told e ∨ e ∈ s.batches.map Put.execution
  /-- when `think` has taken the queue, it has been taken -/
  late : f.late = true → s.Told e ∨ e ∈ s.taken.map Put.execution

/-- What is known of the executions that the functions on the stack wait for. -/
def Awaiting (s : State) : List Frame → Prop
  | [] => True
  | f :: below => (∀ e, f.waits = some e → s.Awaited e f below) ∧ s.Awaiting below

lemma Awaiting.mono {frames : List Frame} (h : s.Awaiting frames)
    (htold : ∀ e, s.Told e → t.Told e) (hbatches : s.batches ⊆ t.batches)
    (htaken : s.taken ⊆ t.taken) : t.Awaiting frames := by
  induction frames with
  | nil => trivial
  | cons f below ih =>
      refine ⟨fun e he => ?_, ih h.2⟩
      obtain ⟨hbelow, hthinks, hlate⟩ := h.1 e he
      exact ⟨hbelow.imp_left (htold e),
        fun hf => (hthinks hf).imp (htold e) fun hmem => List.map_subset _ hbatches hmem,
        fun hf => (hlate hf).imp (htold e) fun hmem => List.map_subset _ htaken hmem⟩

/-- What a `think` has taken stays on record. -/
lemma taken_subset {a : Action} (h : Step s a t) : s.taken ⊆ t.taken := by
  cases h with
  | environment => exact List.Subset.refl _
  | main =>
      rw [afterMain_taken]
      exact List.Subset.refl _
  | @lua f f' below effect u hidle hframes hnext hu =>
      rw [taken_of_lua hframes hnext hu]
      split
      · rename_i htake
        rw [taken, hframes, List.flatMap_cons, hnext.rest.2 htake, List.nil_append]
        intro p hp
        rcases List.mem_append.1 hp with hp | hp
        · exact List.mem_append_left _ (List.mem_append_left _ hp)
        · exact List.mem_append_right _ hp
      · exact List.Subset.refl _
  | call hidle huser hcall =>
      rw [(batches_of_called (callStep_of_call hcall).called).1]
      exact List.Subset.refl _

lemma awaiting_collect {es : List Execution} {frames : List Frame} (h : s.Awaiting frames) :
    s.Awaiting (frames.modifyHead (Frame.collect es)) := by
  cases frames with
  | nil => trivial
  | cons f below =>
      refine ⟨fun e he => ?_, h.2⟩
      rw [Frame.waits_collect] at he
      obtain ⟨hbelow, hthinks, hlate⟩ := h.1 e he
      have hcollect : (f.collect es).thinks = f.thinks ∧ (f.collect es).late = f.late := by
        cases f <;> exact ⟨rfl, rfl⟩
      exact ⟨hbelow, hcollect.1 ▸ hthinks, hcollect.2 ▸ hlate⟩

/-- An execution that was handed over and is on no list below has been told so, or was put on
`finishedQueries`. -/
lemma batched_of_handed (h : machine.Reach C s) {e : Execution} {f : Frame} {below : List Frame}
    (hframes : s.frames = f :: below) (hf : f.completions = [])
    (hbelow : s.Told e ∨ ∀ g ∈ below, e ∉ g.owes) (he : e ∈ s.database.history.handed) :
    s.Told e ∨ e ∈ s.batches.map Put.execution := by
  rcases List.mem_append.1 he with he | he
  · exact .inr (covered_of_reach h e he)
  · rcases owed_of_reach h e he with htold | ⟨g, hg, hcompletions⟩
    · exact .inl htold
    · rw [hframes] at hg
      rcases List.mem_cons.1 hg with rfl | hg
      · exact absurd hcompletions (by simp [hf])
      · exact .inl (hbelow.resolve_right fun hnone =>
          hnone g hg (List.mem_append_right _ hcompletions))

/-- The innermost function goes on. -/
lemma Awaited.lua (hr : machine.Reach C s) {f g : Frame} {below : List Frame} {effect : Effect}
    {e : Execution} (hI : s.Awaited e f below) (hframes : s.frames = f :: below)
    (hidle : s.database.mainPC = .idle) (hnext : f.Moves s.view effect (some g))
    (hwaits : g.waits = some e) (ht : s.perform effect = some t) :
    ({ t with frames := g :: below } : State).Awaited e g below := by
  have hstep : Step s .lua { t with frames := g :: below } := .lua hidle hframes hnext ht
  have htold : ∀ e, s.Told e → ({ t with frames := g :: below } : State).Told e := fun e =>
    told_of_step hstep
  have hbatches : s.Told e ∨ e ∈ s.batches.map Put.execution →
      ({ t with frames := g :: below } : State).Told e ∨
        e ∈ ({ t with frames := g :: below } : State).batches.map Put.execution :=
    fun h => h.imp (htold e) fun hmem => List.map_subset _ (batches_subset hstep) hmem
  refine ⟨hI.below.imp_left (htold e), fun hg => hbatches ?_, fun hg => ?_⟩
  · -- `think` begins when `waitForQuery` has returned
    by_cases hthinks : f.thinks = true
    · exact hI.thinks hthinks
    · cases hnext with
      | waited =>
          cases hwaits
          have hhanded := (waited_of_reach hr _ _ hframes).resolve_left fun ⟨stage, hpc⟩ =>
            absurd (hidle.symm.trans hpc) (by simp)
          exact batched_of_handed hr hframes rfl hI.below hhanded.2
      | wait | disconnectThink => cases hwaits
      | waitForQuery | abort | abortDone | runAborted | abortedReturn | disconnect => cases hg
      | _ => exact absurd rfl hthinks
  · by_cases hlate : f.late = true
    · exact (hI.late hlate).imp (htold e) fun hmem => List.map_subset _ (taken_subset hstep) hmem
    · cases hnext with
      | @takeFinishedQueries w =>
          -- everything in the queue is taken now
          refine (hbatches (hI.thinks rfl)).imp_right fun hmem => ?_
          have hputs : ({ t with frames := .think (.finishedQueries s.view.finishedQueries) w ::
              below } : State).puts = [] := (performed ht).puts
          rw [batches, hputs, List.append_nil] at hmem
          exact hmem
      | batchDone | runCallback | callbackReturn | disconnected => exact absurd rfl hlate
      | _ => cases hg

theorem awaiting_of_reach (h : machine.Reach InOrder s) : s.Awaiting s.frames := by
  refine machine_invariant (I := fun s => s.Awaiting s.frames) trivial
    (fun s t a hr hI hC hstep => ?_) h
  have hkeep : ∀ {frames}, s.Awaiting frames → t.Awaiting frames := fun h =>
    h.mono (fun e => told_of_step hstep) (batches_subset hstep) (taken_subset hstep)
  cases hstep with
  | environment => exact hkeep hI
  | @main c u hpc hdatabase =>
      rcases afterMain_frames (s := s.withDatabase (.main c) u) s.database.mainPC with
        hframes | ⟨es, hframes⟩
      · rw [hframes]
        exact hkeep hI
      · rw [hframes]
        exact awaiting_collect (hkeep hI)
  | @lua f f' below effect u hidle hframes hnext hu =>
      rw [hframes] at hI
      cases f' with
      | none => exact hkeep hI.2
      | some g =>
          exact ⟨fun e he => (hI.1 e (hnext.waits ▸ he)).lua hr hframes hidle hnext he hu,
            hkeep hI.2⟩
  | @call c t hidle huser hcall =>
      rcases (callStep_of_call hcall).called.frames with hframes | ⟨g, hentered, hframes⟩
      · rw [hframes]
        exact hkeep hI
      · rw [hframes]
        refine ⟨fun e he => ?_, hkeep hI⟩
        cases hentered with
        | @beforeWait query shouldSwap e' hlast =>
            cases he
            refine ⟨?_, fun hthinks => (by cases hthinks), fun hlate => (by cases hlate)⟩
            -- the callback of the execution is running, or no function is to run it
            have hlists : (∀ f ∈ s.frames, e ∉ f.owes) ∨ ∃ f ∈ s.frames, f.current = some e := by
              simpa [InOrder, overtakes, hlast, or_iff_not_imp_left] using hC
            rcases hlists with hnone | ⟨f, hf, hcurrent⟩
            · exact .inr hnone
            · exact .inl (told_of_step (.call hidle huser hcall)
                (current_of_reach hr f hf hcurrent))
        | _ => cases he

end State

/-- `query:wait()` for the execution `e` returns. -/
def ReturnsFromWait (s t : State) (e : Execution) : Prop :=
  ∃ stage below, s.frames = .think stage (some e) :: below ∧ t.frames = below

/-- **Delivery in order.**  In every run in which no `think` takes entries while an outer one
has some left, and `query:wait()` is not called for an execution that a function on the stack
has yet to deliver: the callbacks of the entries of `finishedQueries` are invoked in the order
in which they were put there, and when `query:wait()` returns, the terminal callback of its
execution has been invoked. -/
theorem delivery_in_order {s : State} (h : machine.Reach InOrder s) :
    s.delivered.map Put.number = List.range s.delivered.length ∧
      ∀ t e, machine.next s .lua = some t → ReturnsFromWait s t e → s.Told e := by
  refine ⟨?_, fun t e hnext hreturns => ?_⟩
  · have hnumbered := State.numbered_of_reach h
    rw [State.batches, State.taken, List.append_assoc, List.map_append] at hnumbered
    simpa using State.eq_range_of_append hnumbered
  · obtain ⟨stage, below, hframes, hbelow⟩ := hreturns
    have hawaiting := State.awaiting_of_reach h
    rw [hframes] at hawaiting
    obtain ⟨hlists, -, hlate⟩ := hawaiting.1 e rfl
    -- `think` returns when it has delivered its batch
    have hreturn : Frame.late (.think stage (some e)) = true ∧ stage.rest = [] := by
      cases step_of_next hnext with
      | environment hb hdatabase => simp at hb
      | @lua f f' below' effect u hidle hframes' hmoves hu =>
          obtain ⟨rfl, rfl⟩ := List.cons_eq_cons.1 (hframes'.symm.trans hframes)
          have hnone : f' = none := by
            have hbelow : f'.toList ++ below' = below' := hbelow
            simpa using hbelow
          subst hnone
          cases hmoves <;> exact ⟨rfl, rfl⟩
    rcases hlate hreturn.1 with htold | hmem
    · exact htold
    · obtain ⟨p, hp, rfl⟩ := List.mem_map.1 hmem
      rcases List.mem_append.1 hp with hp | hp
      · exact State.told_of_delivered hp
      · rw [hframes, List.flatMap_cons] at hp
        rcases List.mem_append.1 hp with hp | hp
        · exact absurd hp (by simp [Frame.rest, hreturn.2])
        · obtain ⟨g, hg, hp⟩ := List.mem_flatMap.1 hp
          refine hlists.resolve_right fun hnone => hnone g hg ?_
          exact List.mem_append_left _ (List.mem_map_of_mem hp)

/-- A query is started and waited for. -/
def waitRun : List Action :=
  connectSteps ++ connectedSteps ++ startSteps 0 0 ++ executeSteps ++
    [.call (.waitQuery 0 false)] ++ luaSteps 1 ++ mainSteps 1 ++ luaSteps 11

theorem delivery_in_order_waitRun :
    ∃ s t, machine.runIf InOrder machine.init waitRun = some s ∧
      machine.next s .lua = some t ∧ ReturnsFromWait s t ⟨0, 0, 0⟩ ∧
      s.delivered.map Put.number = [0] ∧
      s.delivered.map Put.number = List.range s.delivered.length ∧ s.Told ⟨0, 0, 0⟩ := by
  obtain ⟨s, hs⟩ : ∃ s, machine.runIf InOrder machine.init waitRun = some s := ⟨_, rfl⟩
  have hstate : (machine.runIf InOrder machine.init waitRun).map
      (fun s => (s.frames, s.delivered.map Put.number)) =
        some ([.think .testDisconnected (some ⟨0, 0, 0⟩)], [0]) := rfl
  obtain ⟨hframes, hdelivered⟩ : s.frames = [.think .testDisconnected (some ⟨0, 0, 0⟩)] ∧
      s.delivered.map Put.number = [0] := by simpa [hs] using hstate
  have hafter : ((machine.runIf InOrder machine.init waitRun).bind
      fun s => machine.next s .lua).map (·.frames) = some [] := rfl
  obtain ⟨t, ht, hempty⟩ : ∃ t, machine.next s .lua = some t ∧ t.frames = [] := by
    rw [hs] at hafter
    exact Option.map_eq_some_iff.1 hafter
  have hreturns : ReturnsFromWait s t ⟨0, 0, 0⟩ := ⟨_, [], hframes, hempty⟩
  obtain ⟨horder, hwait⟩ := delivery_in_order (reach_of_runIf hs)
  exact ⟨s, t, hs, ht, hreturns, hdelivered, horder, hwait t _ ht hreturns⟩

/-- Two executions are taken together, and the callback of the first waits for the second. -/
def waitInCallbackRun : List Action :=
  connectSteps ++ connectedSteps ++ startSteps 0 0 ++ startSteps 1 0 ++ executeSteps ++
    executeSteps ++ [.call .think] ++ luaSteps 8 ++ [.call (.waitQuery 1 false)] ++ luaSteps 1 ++
    mainSteps 1 ++ luaSteps 6

set_option maxRecDepth 2000 in
/-- Without the condition `query:wait()` can return before the callback was invoked. -/
theorem wait_returns_early :
    ¬ ∀ s, machine.Reachable s →
      s.delivered.map Put.number = List.range s.delivered.length ∧
        ∀ t e, machine.next s .lua = some t → ReturnsFromWait s t e → s.Told e := by
  intro h
  obtain ⟨s, hs⟩ : ∃ s, machine.run machine.init waitInCallbackRun = some s := ⟨_, rfl⟩
  obtain ⟨stage, below, hframes⟩ : ∃ stage below,
      s.frames = .think stage (some ⟨1, 1, 0⟩) :: below ∧ stage = .testDisconnected := by
    have hhead : (machine.run machine.init waitInCallbackRun).map (fun s => s.frames.head?) =
        some (some (.think .testDisconnected (some ⟨1, 1, 0⟩))) := rfl
    have hhead : s.frames.head? = some (.think .testDisconnected (some ⟨1, 1, 0⟩)) := by
      simpa [hs] using hhead
    obtain ⟨below, hframes⟩ := List.head?_eq_some_iff.1 hhead
    exact ⟨_, below, hframes, rfl⟩
  have hafter : ((machine.run machine.init waitInCallbackRun).bind
      fun s => (machine.next s .lua).map fun t => decide (t.frames = s.frames.tail)) =
        some true := rfl
  obtain ⟨t, ht, hbelow⟩ : ∃ t, machine.next s .lua = some t ∧ t.frames = s.frames.tail := by
    rw [hs] at hafter
    simpa using hafter
  have htold : (machine.run machine.init waitInCallbackRun).map
      (fun s => s.invoked.map Callback.execution) = some [none, some ⟨0, 0, 0⟩] := rfl
  have htold : s.invoked.map Callback.execution = [none, some ⟨0, 0, 0⟩] := by
    simpa [hs] using htold
  obtain ⟨c, hc, he⟩ := (h s (reachable_of_run hs)).2 t ⟨1, 1, 0⟩ ht
    ⟨stage, below, hframes.1, by rw [hbelow, hframes.1, List.tail_cons]⟩
  have hmem : some (⟨1, 1, 0⟩ : Execution) ∈ s.invoked.map Callback.execution :=
    he ▸ List.mem_map_of_mem hc
  rw [htold] at hmem
  exact absurd hmem (by decide)

end GmsvPg.Lua
