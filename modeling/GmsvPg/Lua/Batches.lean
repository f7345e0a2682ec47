/-
# Batches of finished executions

`think` moves everything that is on `finishedQueries` into a local list and delivers it entry
by entry.  A callback may call `think` again, so several of these lists can be under way, one
for each `think` on the stack.  This file accounts for what was put on `finishedQueries`: it
was delivered, or is in one of the lists, or is still there.  The same for what an abort has
completed, whose callbacks run in a loop like that of `think`.
-/
import GmsvPg.Lua.LuaDatabase
import GmsvPg.Database.Settled

namespace GmsvPg.Database

/-- What a step puts on `finishedQueries`. -/
lemma State.handed_of_step {s t : State} {a : Action} {e : Execution}
    (h : Step s a t) (he : e ∈ t.history.finished ++ t.history.forced) :
    e ∈ s.history.finished ++ s.history.forced ∨ (s.access a).bind Access.puts = some e := by
  have happly : ∀ b : Access,
      e ∈ (s.toShared.apply b).history.finished ++ (s.toShared.apply b).history.forced →
        e ∈ s.history.finished ++ s.history.forced ∨ b.puts = some e := by
    intro b hb
    cases b with
    | connectSession error => cases error <;> exact .inl hb
    | finish e' | forceFinish e' =>
        simp only [Shared.apply, Shared.record, Shared.putFinished, List.mem_append,
          List.mem_singleton] at hb ⊢
        simp only [Access.puts, Option.some.injEq]
        tauto
    | _ => exact .inl hb
  cases h with
  | @worker c b pc hnext =>
      have hb : s.access (.worker c) = some b := by simp [access, hnext]
      rw [hb]
      exact happly b he
  | @main c b pc hspawn hnext =>
      have hb : s.access (.main c) = some b := by simp [access, hnext]
      rw [hb]
      exact happly b he
  | call hidle hcall => cases hcall <;> exact .inl he
  | spawn | join | connectionLost => exact .inl he

end GmsvPg.Database

namespace GmsvPg.Lua

open Library
open Database (Execution Choice MainPC Access system)

/-- The entry of `finishedQueries` that a callback is the terminal one of. -/
def Callback.put : Callback → Option Put
  | .finished p => some p
  | _ => none

/-- The execution that a callback is the terminal one of. -/
def Callback.execution : Callback → Option Execution
  | .finished p => some p.execution
  | .aborted e => some e
  | .database _ => none

namespace Frame

/-- What of its batch a `think` has yet to deliver. -/
def rest : Frame → List Put
  | .think stage _ => stage.rest
  | _ => []

/-- What an abort has completed, and `onAborted` is yet to be run for. -/
def completions : Frame → List Execution
  | .abort _ done => done
  | .completed rest _ | .inAborted _ rest _ => rest
  | _ => []

/-- The execution whose terminal callback is running. -/
def current : Frame → Option Execution
  | .think (.inCallback p _) _ => some p.execution
  | .inAborted e _ _ => some e
  | _ => none

/-- The executions whose terminal callbacks a function is yet to run. -/
def owes (f : Frame) : List Execution := f.rest.map Put.execution ++ f.completions

variable {v : ThinkView Put} {f : Frame} {effect : Effect} {f' : Option Frame}

lemma rest_collect (es : List Execution) (f : Frame) : (f.collect es).rest = f.rest := by
  cases f <;> rfl

lemma current_collect (es : List Execution) (f : Frame) : (f.collect es).current = f.current := by
  cases f <;> rfl

lemma mem_completions_collect {e : Execution} (es : List Execution) (f : Frame)
    (he : e ∈ f.completions) : e ∈ (f.collect es).completions := by
  cases f with
  | abort todo done => exact List.mem_append_left _ he
  | abortAll disconnect => exact absurd he List.not_mem_nil
  | _ => exact he

/-- A batch is taken whole, and delivered from the front. -/
lemma Moves.rest (h : f.Moves v effect f') :
    (if effect = .think .takeFinishedQueries then v.finishedQueries else f.rest) =
        (effect.callback.bind Callback.put).toList ++ f'.toList.flatMap Frame.rest ∧
      (effect = .think .takeFinishedQueries → f.rest = []) := by
  cases h <;> simp [Effect.callback, Callback.put, Frame.rest, ThinkStage.rest]

/-- What was completed stays in the hands of the function until its callback is run. -/
lemma Moves.completions (h : f.Moves v effect f') {e : Execution} (he : e ∈ f.completions) :
    effect.callback = some (.aborted e) ∨ e ∈ f'.toList.flatMap Frame.completions := by
  cases h with
  | abort | abortDone | abortedReturn => exact .inr (by simpa [Frame.completions] using he)
  | runAborted =>
      rcases List.mem_cons.1 he with rfl | he
      · exact .inl rfl
      · exact .inr (by simpa [Frame.completions] using he)
  | _ => exact absurd he List.not_mem_nil

/-- A terminal callback is running because it was just invoked. -/
lemma Moves.current {g : Frame} (h : f.Moves v effect (some g)) {e : Execution}
    (he : g.current = some e) : ∃ c, effect.callback = some c ∧ c.execution = some e := by
  cases h with
  | runCallback | runAborted => exact ⟨_, rfl, he⟩
  | _ => cases he

end Frame

/-! ### What calling a function leaves unchanged -/

/-- The functions that a call enters, at their beginning. -/
inductive Frame.Entered (s : State) : Call → Frame → Prop
  | abortAll {f : Call} {disconnect : Option Bool} : Entered s f (.abortAll disconnect)
  | beforeWait {query : ℕ} {shouldSwap : Bool} {e : Execution}
      (he : s.lastRunning query = some e) :
      Entered s (.waitQuery query shouldSwap) (.beforeWait e)
  | waiting {f : Call} : Entered s f (.waiting none)
  | think {f : Call} : Entered s f (.think .testConnectionDone none)
  | abort {f : Call} {todo : List Execution} : Entered s f (.abort todo [])

lemma Frame.Entered.idle {s : State} {f : Call} {g : Frame} (h : g.Entered s f) :
    g.rest = [] ∧ g.completions = [] ∧ g.current = none := by
  cases h <;> exact ⟨rfl, rfl, rfl⟩

/-- A call enters at most one function, and invokes nothing. -/
structure Called (s : State) (f : Call) (t : State) : Prop where
  frames : t.frames = s.frames ∨ ∃ g, g.Entered s f ∧ t.frames = g :: s.frames
  invoked : t.invoked = s.invoked
  dbCallbackRan : t.dbCallbackRan = s.dbCallbackRan
  puts : t.puts = s.puts
  putCount : t.putCount = s.putCount
  eventLog : t.eventLog = s.eventLog
  eventsTaken : t.eventsTaken = s.eventsTaken

lemma CallStep.called {s t : State} {f : Call} (h : CallStep s f t) : Called s f t := by
  cases h with
  | begin hdatabase hf hframes =>
      refine ⟨?_, rfl, rfl, rfl, rfl, rfl, rfl⟩
      rcases hframes with ⟨rfl, -⟩ | ⟨d, -, rfl⟩
      · exact .inl rfl
      · exact .inr ⟨_, .abortAll, rfl⟩
  | waitQuery he hdatabase => exact ⟨.inr ⟨_, .beforeWait he, rfl⟩, rfl, rfl, rfl, rfl, rfl, rfl⟩
  | enter henter =>
      refine ⟨.inr ⟨_, ?_, rfl⟩, rfl, rfl, rfl, rfl, rfl, rfl⟩
      rcases henter with rfl | rfl | ⟨query, -, rfl⟩
      · exact .waiting
      · exact .think
      · exact .abort
  | connect | start | throw => exact ⟨.inl rfl, rfl, rfl, rfl, rfl, rfl, rfl⟩

namespace State

variable {C : State → Action → Prop} {s t : State}

/-- The entries of `finishedQueries` whose callback was invoked, in order. -/
def delivered (s : State) : List Put := s.invoked.filterMap Callback.put

/-- The entries that some `think` has taken. -/
def taken (s : State) : List Put := s.delivered ++ s.frames.flatMap Frame.rest

/-- Everything that was put on `finishedQueries`. -/
def batches (s : State) : List Put := s.taken ++ s.puts

/-- A terminal callback of the execution was invoked. -/
def Told (s : State) (e : Execution) : Prop := ∃ c ∈ s.invoked, c.execution = some e

lemma told_of_delivered {p : Put} (h : p ∈ s.delivered) : s.Told p.execution := by
  obtain ⟨c, hc, hp⟩ := List.mem_filterMap.1 h
  refine ⟨c, hc, ?_⟩
  cases c with
  | finished q =>
      obtain rfl : q = p := Option.some.inj hp
      rfl
  | _ => cases hp

/-! ### Reading the records across a step -/

@[simp] lemma afterMain_puts (pc : MainPC) : (s.afterMain pc).puts = s.puts := by
  unfold afterMain
  split <;> rfl

@[simp] lemma afterMain_putCount (pc : MainPC) : (s.afterMain pc).putCount = s.putCount := by
  unfold afterMain
  split <;> rfl

@[simp] lemma afterMain_eventLog (pc : MainPC) : (s.afterMain pc).eventLog = s.eventLog := by
  unfold afterMain
  split <;> rfl

@[simp] lemma afterMain_eventsTaken (pc : MainPC) :
    (s.afterMain pc).eventsTaken = s.eventsTaken := by
  unfold afterMain
  split <;> rfl

lemma flatMap_afterMain {α : Type} {g : Frame → List α} (hg : ∀ es f, g (f.collect es) = g f)
    (s : State) (pc : MainPC) : (s.afterMain pc).frames.flatMap g = s.frames.flatMap g := by
  rcases s.afterMain_frames pc with hframes | ⟨es, hframes⟩
  · rw [hframes]
  · rw [hframes]
    cases s.frames with
    | nil => rfl
    | cons f below => simp [hg]

@[simp] lemma afterMain_delivered (pc : MainPC) : (s.afterMain pc).delivered = s.delivered := by
  rw [delivered, afterMain_invoked]
  rfl

@[simp] lemma afterMain_taken (pc : MainPC) : (s.afterMain pc).taken = s.taken := by
  rw [taken, afterMain_delivered, flatMap_afterMain Frame.rest_collect]
  rfl

@[simp] lemma afterMain_batches (pc : MainPC) : (s.afterMain pc).batches = s.batches := by
  rw [batches, afterMain_taken, afterMain_puts]
  rfl

lemma batches_withDatabase (b : Database.Action) (u : Database.State) :
    (s.withDatabase b u).batches = s.batches ++ s.newPuts b :=
  (List.append_assoc ..).symm

lemma batches_of_called {f : Call} (h : Called s f t) :
    t.taken = s.taken ∧ t.batches = s.batches := by
  have htaken : t.taken = s.taken := by
    rw [taken, taken, delivered, delivered, h.invoked]
    rcases h.frames with hframes | ⟨g, hentered, hframes⟩
    · rw [hframes]
    · rw [hframes, List.flatMap_cons, hentered.idle.1, List.nil_append]
  exact ⟨htaken, by rw [batches, batches, htaken, h.puts]⟩

section Lua

variable {f : Frame} {f' : Option Frame} {below : List Frame} {effect : Effect}

/-- A `think` that takes the queue takes all of it; nothing else moves between the lists. -/
lemma taken_of_lua (hframes : s.frames = f :: below) (hnext : f.Moves s.view effect f')
    (ht : s.perform effect = some t) :
    ({ t with frames := f'.toList ++ below } : State).taken =
      if effect = .think .takeFinishedQueries then
        s.delivered ++ s.puts ++ below.flatMap Frame.rest
      else s.taken := by
  have hperformed := performed ht
  obtain ⟨hrest, -⟩ := hnext.rest
  have htaken : ({ t with frames := f'.toList ++ below } : State).taken =
      s.delivered ++ ((effect.callback.bind Callback.put).toList ++ f'.toList.flatMap Frame.rest) ++
        below.flatMap Frame.rest := by
    rw [taken, delivered, hperformed.invoked, List.filterMap_append, List.flatMap_append]
    cases effect.callback with
    | none => simp [delivered]
    | some c => cases c <;> simp [delivered, Callback.put]
  rw [htaken, ← hrest]
  split
  · rfl
  · rw [taken, hframes, List.flatMap_cons, List.append_assoc]

lemma batches_of_lua (hframes : s.frames = f :: below) (hnext : f.Moves s.view effect f')
    (ht : s.perform effect = some t) :
    ({ t with frames := f'.toList ++ below } : State).batches.Perm s.batches := by
  rw [batches, taken_of_lua hframes hnext ht, show State.puts _ = t.puts from rfl,
    (performed ht).puts]
  split
  · rename_i htake
    have hrest := hnext.rest.2 htake
    rw [List.append_nil, batches, taken, hframes, List.flatMap_cons, hrest, List.nil_append,
      List.append_assoc, List.append_assoc]
    exact List.perm_append_comm.append_left _
  · exact List.Perm.refl _

end Lua

lemma newPuts_call (m : Database.Call) : s.newPuts (.call m) = [] := by
  simp [newPuts, Database.State.access]

/-- A step adds to the records what it puts on `finishedQueries`. -/
lemma batches_of_step {a : Action} (h : Step s a t) :
    (t.database = s.database ∧ t.batches.Perm s.batches) ∨
      ∃ b, a.Drives b ∧ system.next s.database b = some t.database ∧
        t.batches.Perm (s.batches ++ s.newPuts b) := by
  cases h with
  | @environment a b u hb h =>
      refine .inr ⟨b, ?_, h, .of_eq (batches_withDatabase b u)⟩
      rcases hb with ⟨c, rfl, rfl⟩ | ⟨rfl, rfl⟩ <;> rfl
  | main hpc h =>
      rw [afterMain_database, afterMain_batches]
      exact .inr ⟨_, rfl, h, .of_eq (batches_withDatabase _ _)⟩
  | lua hidle hframes hnext ht =>
      have hperm := batches_of_lua hframes hnext ht
      rcases (performed ht).database with hsame | ⟨m, -, hm⟩
      · exact .inl ⟨hsame, hperm⟩
      · exact .inr ⟨_, ⟨m, rfl⟩, hm, by rw [newPuts_call, List.append_nil]; exact hperm⟩
  | call hidle huser hcall =>
      have hcalled := callStep_of_call hcall
      have hbatches := (batches_of_called hcalled.called).2
      rcases (Step.call hidle huser hcall).database with hsame | ⟨b, ⟨m, rfl⟩, hm⟩
      · exact .inl ⟨hsame, .of_eq hbatches⟩
      · exact .inr ⟨_, ⟨m, rfl⟩, hm, by rw [newPuts_call, List.append_nil]; exact .of_eq hbatches⟩

/-- What was put on `finishedQueries` stays on record. -/
lemma batches_subset {a : Action} (h : Step s a t) : s.batches ⊆ t.batches := by
  rcases batches_of_step h with ⟨-, hperm⟩ | ⟨b, -, -, hperm⟩
  · exact hperm.symm.subset
  · exact fun p hp => hperm.symm.subset (List.mem_append_left _ hp)

/-- What was invoked stays on record. -/
lemma invoked_subset {a : Action} (h : Step s a t) : s.invoked ⊆ t.invoked := by
  cases h with
  | environment => exact List.Subset.refl _
  | main =>
      rw [afterMain_invoked]
      exact List.Subset.refl _
  | lua hidle hframes hnext ht =>
      show s.invoked ⊆ State.invoked _
      rw [(performed ht).invoked]
      exact List.subset_append_left _ _
  | call hidle huser hcall =>
      rw [(callStep_of_call hcall).called.invoked]
      exact List.Subset.refl _

lemma told_of_step {a : Action} {e : Execution} (h : Step s a t) (he : s.Told e) : t.Told e := by
  obtain ⟨c, hc, he⟩ := he
  exact ⟨c, invoked_subset h hc, he⟩

/-- The record holds every execution that was put on `finishedQueries`. -/
theorem covered_of_reach (h : machine.Reach C s) :
    ∀ e ∈ s.database.history.finished ++ s.database.history.forced,
      e ∈ s.batches.map Put.execution := by
  refine machine_invariant
    (I := fun s => ∀ e ∈ s.database.history.finished ++ s.database.history.forced,
      e ∈ s.batches.map Put.execution) (by simp) (fun s t a _ hI _ hstep e he => ?_) h
  rcases batches_of_step hstep with ⟨hsame, hperm⟩ | ⟨b, -, hb, hperm⟩
  · rw [hsame] at he
    exact (hperm.map _).mem_iff.2 (hI e he)
  · rw [(hperm.map _).mem_iff, List.map_append, List.mem_append]
    refine (Database.State.handed_of_step (Database.step_of_next hb) he).imp (hI e) fun hput => ?_
    exact List.mem_map.2 ⟨⟨e, s.putCount, b.thread, s.database.connectionDone, s.logged⟩,
      by simp [newPuts, hput], rfl⟩

/-! ### The stack -/

/-- The worker thread and the environment leave the main thread where it is. -/
lemma mainPC_of_environment {a : Action} {b : Database.Action} {u : Database.State}
    (hb : (∃ c, a = .worker c ∧ b = .worker c) ∨ a = .connectionLost ∧ b = .connectionLost)
    (h : system.next s.database b = some u) : u.mainPC = s.database.mainPC := by
  rcases hb with ⟨c, -, rfl⟩ | ⟨-, rfl⟩
  · cases Database.step_of_next h with
    | worker => rfl
  · cases Database.step_of_next h with
    | connectionLost => rfl

/-- Below the innermost function, all functions wait for a callback to return. -/
theorem userCode_of_reach (h : machine.Reach C s) :
    ∀ f ∈ s.frames.tail, f.inUserCode = true := by
  refine machine_invariant (I := fun s => ∀ f ∈ s.frames.tail, f.inUserCode = true) (by simp)
    (fun s t a _ hI _ hstep => ?_) h
  cases hstep with
  | environment => exact hI
  | @main c u hpc hdatabase =>
      have htail : ((s.withDatabase (.main c) u).afterMain s.database.mainPC).frames.tail =
          s.frames.tail := by
        rcases afterMain_frames (s := s.withDatabase (.main c) u) s.database.mainPC with
          hframes | ⟨es, hframes⟩
        · rw [hframes]
          rfl
        · rw [hframes, List.tail_modifyHead]
          rfl
      rw [htail]
      exact hI
  | @lua f f' below effect t hidle hframes hnext ht =>
      intro g hg
      refine hI g ?_
      rw [hframes, List.tail_cons]
      cases f' with
      | none => exact List.mem_of_mem_tail hg
      | some f' => exact hg
  | call hidle huser hcall =>
      rcases (callStep_of_call hcall).called.frames with hframes | ⟨g, -, hframes⟩
      · rw [hframes]
        exact hI
      · rw [hframes, List.tail_cons]
        intro f hf
        rw [inUserCode] at huser
        cases hstack : s.frames with
        | nil => exact absurd hf (by simp [hstack])
        | cons f' below =>
            rw [hstack] at hf huser hI
            rcases List.mem_cons.1 hf with rfl | hf
            · exact huser
            · exact hI f hf

/-- The function that waits for the operation that the main thread is in. -/
def ServedBy (frames : List Frame) : MainPC → Prop
  | .abort _ _ => ∃ todo done below, frames = .abort todo done :: below
  | .abortAll _ _ | .cancel _ _ (.abortAll _) =>
      ∃ disconnect below, frames = .abortAll disconnect :: below
  | .waiting e _ => ∃ below, frames = .waiting (some e) :: below
  | _ => True

lemma servedBy_of_not_served {pc : MainPC} {frames : List Frame} (h : pc.served = false) :
    ServedBy frames pc := by
  cases pc with
  | cancel d stage caller =>
      cases caller with
      | abortAll => cases h
      | _ => trivial
  | abort | abortAll | waiting => cases h
  | _ => trivial

/-- The operation is entered with the function that waits for it. -/
lemma servedBy_of_call {m : Database.Call} {u : Database.State} {frames : List Frame}
    (h : system.next s.database (.call m) = some u)
    (habort : ∀ e, m = .abort e → ∃ todo done below, frames = .abort todo done :: below)
    (habortAll : m = .abortAll → ∃ disconnect below, frames = .abortAll disconnect :: below)
    (hwait : ∀ e, m = .waitForQuery e → ∃ below, frames = .waiting (some e) :: below) :
    ServedBy frames u.mainPC := by
  rcases Database.State.mainPC_of_call h with ⟨e, hm, hpc⟩ | ⟨hm, hpc⟩ | ⟨e, hm, hpc⟩ | hpc
  · rw [hpc]
    exact habort e hm
  · rw [hpc]
    exact habortAll hm
  · rw [hpc]
    exact hwait e hm
  · exact servedBy_of_not_served hpc

/-- The main thread stays with the function that waits for the operation it is in. -/
lemma servedBy_of_main {c : Choice} {pc : MainPC} {b : Access} {u : State}
    (hframes : u.frames = s.frames) (hI : ServedBy s.frames s.database.mainPC)
    (hnext : s.database.mainPC.next s.database.toShared c = some (b, pc)) :
    ServedBy (u.afterMain s.database.mainPC).frames pc := by
  have hsource := MainPC.next_source hnext
  cases pc with
  | abort e stage =>
      obtain ⟨stage', hpc⟩ := hsource
      rw [hpc] at hI hnext ⊢
      cases stage' with
      | returnRemoved => exact absurd hnext (by simp [MainPC.next, Database.AbortStage.next])
      | _ => exact hframes ▸ hI
  | abortAll stage g =>
      rcases hsource with ⟨stage', g', hpc⟩ | ⟨d, stage', g', hpc⟩
      · rw [hpc] at hI hnext ⊢
        cases stage' with
        | returnResult => exact absurd hnext (by simp [MainPC.next, Database.AbortAllStage.next])
        | _ => exact hframes ▸ hI
      · rw [hpc] at hI ⊢
        exact hframes ▸ hI
  | cancel d stage caller =>
      cases caller with
      | abortAll g =>
          rcases hsource with ⟨stage', hpc⟩ | ⟨-, ⟨e, hcaller, -⟩ | ⟨g', -, hpc⟩ | ⟨join, g', hcaller, -⟩⟩
          · rw [hpc] at hI ⊢
            exact hframes ▸ hI
          · cases hcaller
          · rw [hpc] at hI ⊢
            exact hframes ▸ hI
          · cases hcaller
      | _ => trivial
  | waiting e stage =>
      obtain ⟨stage', hpc⟩ := hsource
      rw [hpc] at hI ⊢
      exact hframes ▸ hI
  | _ => trivial

theorem served_of_reach (h : machine.Reach C s) : ServedBy s.frames s.database.mainPC := by
  refine machine_invariant (I := fun s => ServedBy s.frames s.database.mainPC) trivial
    (fun s t a _ hI _ hstep => ?_) h
  cases hstep with
  | @environment a b u hb h =>
      show ServedBy s.frames u.mainPC
      rw [mainPC_of_environment hb h]
      exact hI
  | main hpc hdatabase =>
      rw [afterMain_database]
      cases Database.step_of_next hdatabase with
      | main hspawn hnext => exact servedBy_of_main rfl hI hnext
      | spawn | join => trivial
  | @lua f f' below effect t hidle hframes hnext ht =>
      show ServedBy (f'.toList ++ below) t.database.mainPC
      rcases (performed ht).database with hsame | ⟨m, hcalls, hm⟩
      · rw [hsame, hidle]
        trivial
      · refine servedBy_of_call hm (fun e he => ?_) (fun he => ?_) (fun e he => ?_) <;>
          subst he <;> cases hnext <;> cases hcalls
        · exact ⟨_, _, below, rfl⟩
        · exact ⟨below, rfl⟩
  | call hidle huser hcall =>
      cases callStep_of_call hcall with
      | begin hdatabase hf hframes =>
          rcases hframes with ⟨rfl, hdirect⟩ | ⟨d, rfl, rfl⟩
          · refine servedBy_of_call hdatabase (fun e he => ?_) (fun he => ?_) (fun e he => ?_) <;>
              subst he <;> cases hdirect
          · refine servedBy_of_call hdatabase (fun e he => ?_) (fun he => ?_) (fun e he => ?_)
            · cases he
            · exact ⟨d, s.frames, rfl⟩
            · cases he
      | connect hdatabase | start hdatabase =>
          refine servedBy_of_call hdatabase (fun e he => ?_) (fun he => ?_) (fun e he => ?_) <;>
            cases he
      | waitQuery he hdatabase =>
          rcases hdatabase with rfl | hdatabase
          · exact hidle ▸ trivial
          · refine servedBy_of_call hdatabase (fun e he => ?_) (fun he => ?_) (fun e he => ?_) <;>
              cases he
      | enter => exact hidle ▸ trivial
      | throw => exact hI

/-- The terminal callback of an execution was invoked, or a function on the stack is to run it
for what an abort has completed. -/
def Owed (s : State) (e : Execution) : Prop := s.Told e ∨ ∃ f ∈ s.frames, e ∈ f.completions

lemma owed_collect {e : Execution} {es : List Execution}
    (h : ∃ f ∈ s.frames, e ∈ f.completions) :
    ∃ f ∈ s.frames.modifyHead (Frame.collect es), e ∈ f.completions := by
  obtain ⟨f, hf, he⟩ := h
  cases hstack : s.frames with
  | nil => exact absurd hf (by simp [hstack])
  | cons f' below =>
      rw [hstack] at hf
      rcases List.mem_cons.1 hf with rfl | hf
      · exact ⟨f.collect es, List.mem_cons_self, Frame.mem_completions_collect es f he⟩
      · exact ⟨f, List.mem_cons_of_mem _ hf, he⟩

lemma owed_of_step {a : Action} {e : Execution} (h : Step s a t) (he : s.Owed e) : t.Owed e := by
  rcases he with htold | hf
  · exact .inl (told_of_step h htold)
  · cases h with
    | environment => exact .inr hf
    | @main c u hpc hdatabase =>
        rcases afterMain_frames (s := s.withDatabase (.main c) u) s.database.mainPC with
          hframes | ⟨es, hframes⟩
        · exact .inr (hframes ▸ hf)
        · exact .inr (hframes ▸ owed_collect hf)
    | @lua f f' below effect t hidle hframes hnext ht =>
        obtain ⟨g, hg, hcompletions⟩ := hf
        rw [hframes] at hg
        rcases List.mem_cons.1 hg with rfl | hg
        · rcases hnext.completions hcompletions with hcallback | hmem
          · refine .inl ⟨.aborted e, ?_, rfl⟩
            show _ ∈ t.invoked
            simp [(performed ht).invoked, hcallback]
          · obtain ⟨g', hg', he'⟩ := List.mem_flatMap.1 hmem
            exact .inr ⟨g', List.mem_append_left _ hg', he'⟩
        · exact .inr ⟨g, List.mem_append_right _ hg, hcompletions⟩
    | call hidle huser hcall =>
        obtain ⟨g, hg, hcompletions⟩ := hf
        rcases (callStep_of_call hcall).called.frames with hframes | ⟨g', -, hframes⟩
        · exact .inr ⟨g, hframes ▸ hg, hcompletions⟩
        · exact .inr ⟨g, hframes ▸ List.mem_cons_of_mem _ hg, hcompletions⟩

/-- What an abort returns as completed goes to the function that called it. -/
lemma owed_of_returned {c : Choice} {u : Database.State} {e : Execution}
    (hserved : ServedBy s.frames s.database.mainPC)
    (h : s.database.mainPC = .abort e .returnRemoved ∨
      ∃ g, s.database.mainPC = .abortAll .returnResult g ∧ e ∈ g.completed) :
    ((s.withDatabase (.main c) u).afterMain s.database.mainPC).Owed e := by
  rcases h with hpc | ⟨g, hpc, he⟩
  · rw [hpc] at hserved ⊢
    obtain ⟨todo, done, below, hframes⟩ := hserved
    refine .inr ⟨.abort todo (done ++ [e]), ?_, List.mem_append_right _ (List.mem_singleton_self e)⟩
    simp [afterMain, hframes, Frame.collect]
  · rw [hpc] at hserved ⊢
    obtain ⟨disconnect, below, hframes⟩ := hserved
    refine .inr ⟨.completed g.completed disconnect, ?_, he⟩
    simp [afterMain, hframes, Frame.collect]

theorem owed_of_reach (h : machine.Reach C s) :
    ∀ e ∈ s.database.history.returned, s.Owed e := by
  refine machine_invariant (I := fun s => ∀ e ∈ s.database.history.returned, s.Owed e) (by simp)
    (fun s t a hr hI _ hstep e he => ?_) h
  rcases hstep.database with hsame | ⟨b, hdrives, hb⟩
  · exact owed_of_step hstep (hI e (hsame ▸ he))
  · rcases Database.State.mem_returned_of_step (Database.step_of_next hb) he with
      hbefore | ⟨⟨c, rfl⟩, hpc⟩
    · exact owed_of_step hstep (hI e hbefore)
    · -- the main thread has returned it just now
      cases hstep with
      | main => exact owed_of_returned (served_of_reach hr) hpc
      | environment hb' =>
          rcases hb' with ⟨c', rfl, -⟩ | ⟨rfl, -⟩ <;> simp [Action.Drives] at hdrives
      | lua | call => simp [Action.Drives] at hdrives

/-- Where a function on the stack comes from: it was there before, or stood at another point,
or was entered by a call. -/
lemma frame_of_step {α : Type} {k : Frame → α} (hk : ∀ es f, k (f.collect es) = k f) {a : Action}
    (h : Step s a t) {g : Frame} (hg : g ∈ t.frames) :
    (∃ f ∈ s.frames, k g = k f) ∨
      (∃ f below effect u, a = .lua ∧ s.frames = f :: below ∧ f.Moves s.view effect (some g) ∧
        s.perform effect = some u ∧ t = { u with frames := g :: below }) ∨
      ∃ c, a = .call c ∧ s.database.mainPC = .idle ∧ g.Entered s c := by
  cases h with
  | environment => exact .inl ⟨g, hg, rfl⟩
  | @main c u hpc hdatabase =>
      rcases afterMain_frames (s := s.withDatabase (.main c) u) s.database.mainPC with
        hframes | ⟨es, hframes⟩
      · exact .inl ⟨g, hframes ▸ hg, rfl⟩
      · rw [hframes] at hg
        have hg : g ∈ s.frames.modifyHead (Frame.collect es) := hg
        cases hstack : s.frames with
        | nil => exact absurd hg (by simp [hstack])
        | cons f below =>
            rw [hstack] at hg
            rcases List.mem_cons.1 hg with rfl | hg
            · exact .inl ⟨f, List.mem_cons_self, hk es f⟩
            · exact .inl ⟨g, List.mem_cons_of_mem _ hg, rfl⟩
  | @lua f f' below effect t hidle hframes hnext ht =>
      rcases List.mem_append.1 hg with hg | hg
      · obtain rfl := Option.mem_toList.1 hg
        exact .inr (.inl ⟨f, below, effect, t, rfl, hframes, hnext, ht, rfl⟩)
      · exact .inl ⟨g, hframes ▸ List.mem_cons_of_mem _ hg, rfl⟩
  | @call c t hidle huser hcall =>
      rcases (callStep_of_call hcall).called.frames with hframes | ⟨g', hentered, hframes⟩
      · exact .inl ⟨g, hframes ▸ hg, rfl⟩
      · rcases List.mem_cons.1 (hframes ▸ hg) with rfl | hg
        · exact .inr (.inr ⟨c, rfl, hidle, hentered⟩)
        · exact .inl ⟨g, hg, rfl⟩

/-- The terminal callback that is running was invoked. -/
theorem current_of_reach (h : machine.Reach C s) {e : Execution} :
    ∀ f ∈ s.frames, f.current = some e → s.Told e := by
  refine machine_invariant (I := fun s => ∀ f ∈ s.frames, f.current = some e → s.Told e) (by simp)
    (fun s t a _ hI _ hstep g hg he => ?_) h
  rcases frame_of_step Frame.current_collect hstep hg with
    ⟨f, hf, hsame⟩ | ⟨f, below, effect, u, -, -, hnext, hu, rfl⟩ | ⟨c, -, -, hentered⟩
  · exact told_of_step hstep (hI f hf (hsame ▸ he))
  · obtain ⟨c, hcallback, hc⟩ := hnext.current he
    exact ⟨c, by simp [(performed hu).invoked, hcallback], hc⟩
  · exact absurd (hentered.idle.2.2.symm.trans he) (by simp)

end State

end GmsvPg.Lua
