/-
# The Lua side at rest

When user code calls nothing more, the callbacks that are running return, the functions they
were called from go on, and the stack empties: no function of this layer waits in vain, since
the operations of `Database` that it calls return.  What then lies on `finishedQueries` the next
`think` delivers.  So every accepted execution gets its terminal callback, once.
-/
import GmsvPg.Database.AtRest
import GmsvPg.Lua.Work

namespace GmsvPg.Database

open Library

namespace State

variable {C : State → Action → Prop} {s t : State}

lemma startedConnecting_of_step {a : Action} (h : Step s a t)
    (hs : s.startedConnecting = true) : t.startedConnecting = true := by
  cases h with
  | worker hnext => exact Shared.startedConnecting_apply hs
  | main hspawn hnext => exact Shared.startedConnecting_apply hs
  | call hidle hcall => cases hcall <;> exact hs
  | spawn | join | connectionLost => exact hs

end State

/-- The main thread is in `abortAllQueries`. -/
def MainPC.inAbortAll : MainPC → Bool
  | .abortAll _ _ | .cancel _ _ (.abortAll _) => true
  | _ => false

/-- `abortAllQueries` goes on until it returns its result. -/
lemma MainPC.next_inAbortAll {s : Shared} {c : Choice} {pc pc' : MainPC} {a : Access}
    (h : pc.next s c = some (a, pc')) (hpc : pc.inAbortAll = true) :
    (∃ g, pc = .abortAll .returnResult g) ∨ pc'.inAbortAll = true := by
  cases pc with
  | abortAll stage g =>
      cases stage <;> simp only [MainPC.next, AbortAllStage.next] at h
      all_goals repeat' split at h
      all_goals cases h
      all_goals simp [inAbortAll]
  | cancel d stage caller =>
      cases caller with
      | abortAll g =>
          cases stage <;> simp only [MainPC.next, CancelStage.next, CancelCaller.resume] at h
          all_goals repeat' split at h
          all_goals cases h
          all_goals simp [inAbortAll]
      | abortQuery | shutdown => cases hpc
  | _ => cases hpc

end GmsvPg.Database

namespace GmsvPg.Lua

open Library Machine
open Database (Execution Choice MainPC Access system)

/-- What `query:abort()` is still to abort. -/
def Frame.todo : Frame → List Execution
  | .abort todo _ => todo
  | _ => []

lemma Frame.Moves.todo {v : ThinkView Put} {f g : Frame} {effect : Effect}
    (h : f.Moves v effect (some g)) : g.todo ⊆ f.todo := by
  cases h with
  | abort => exact List.subset_cons_self _ _
  | _ => exact List.nil_subset _

namespace State

variable {C : State → Action → Prop} {s t : State}

/-! ### What the functions on the stack rely on -/

/-- `db:wait()` waits only after `connect`, and `query:abort()` goes through data of the query. -/
structure Founded (s : State) : Prop where
  waiting : .waiting none ∈ s.frames → s.database.startedConnecting = true
  todo : ∀ f ∈ s.frames, ∀ e ∈ f.todo, s.database.built e

/-- What a call enters relies on what the call has tested. -/
lemma Founded.call {f : Call} (hI : s.Founded) (hrunning : ∀ e ∈ s.running, s.database.built e)
    (h : s.call f = some t) {g : Frame} (hg : g ∈ t.frames) :
    (g = .waiting none → s.database.startedConnecting = true) ∧
      ∀ e ∈ g.todo, s.database.built e := by
  have hold : g ∈ s.frames → (g = .waiting none → s.database.startedConnecting = true) ∧
      ∀ e ∈ g.todo, s.database.built e := by
    intro hg
    exact ⟨fun hw => hI.waiting (hw ▸ hg), hI.todo g hg⟩
  have hnew : ∀ f', f' ≠ .waiting none → f'.todo = [] → g ∈ f' :: s.frames →
      (g = .waiting none → s.database.startedConnecting = true) ∧
        ∀ e ∈ g.todo, s.database.built e := by
    intro f' hne htodo hg
    rcases List.mem_cons.1 hg with rfl | hg
    · exact ⟨fun hw => absurd hw hne, by simp [htodo]⟩
    · exact hold hg
  cases f with
  | wait =>
      simp only [State.call] at h
      split at h <;> obtain rfl := Option.some.inj h
      · rename_i hstarted
        rcases List.mem_cons.1 hg with rfl | hg
        · exact ⟨fun _ => hstarted, by simp [Frame.todo]⟩
        · exact hold hg
      · exact hold hg
  | abort query =>
      obtain rfl := Option.some.inj h
      rcases List.mem_cons.1 hg with rfl | hg
      · exact ⟨by simp, fun e he => hrunning e (List.mem_of_mem_filter he)⟩
      · exact hold hg
  | think =>
      obtain rfl := Option.some.inj h
      exact hnew _ (by simp) rfl hg
  | disconnect | abortAllQueries =>
      obtain ⟨u, hu, rfl⟩ := Option.map_eq_some_iff.1 h
      obtain ⟨v, hv, rfl⟩ := step_eq_some.1 hu
      exact hnew _ (by simp) rfl hg
  | waitQuery query shouldSwap =>
      simp only [State.call] at h
      split at h
      · obtain rfl := Option.some.inj h
        exact hold hg
      · split at h
        · obtain rfl := Option.some.inj h
          exact hold hg
        · split at h
          · obtain ⟨u, hu, rfl⟩ := Option.map_eq_some_iff.1 h
            obtain ⟨v, hv, rfl⟩ := step_eq_some.1 hu
            exact hnew _ (by simp) rfl hg
          · obtain rfl := Option.some.inj h
            exact hnew _ (by simp) rfl hg
  | start =>
      obtain ⟨u, hu, rfl⟩ := Option.map_eq_some_iff.1 h
      obtain ⟨v, hv, rfl⟩ := step_eq_some.1 hu
      exact hold hg
  | connect | abortChild | ping | setAutoReconnect =>
      obtain ⟨v, hv, rfl⟩ := step_eq_some.1 h
      exact hold hg

theorem founded_of_reach (h : machine.Reach C s) : s.Founded := by
  refine machine_invariant (I := Founded) ⟨by simp, by simp⟩ (fun s t a hr hI _ hstep => ?_) h
  have hstarted : s.database.startedConnecting = true → t.database.startedConnecting = true := by
    intro hs
    rcases hstep.database with hsame | ⟨b, -, hb⟩
    · exact hsame ▸ hs
    · exact Database.State.startedConnecting_of_step (Database.step_of_next hb) hs
  have hbuilt : ∀ e, s.database.built e → t.database.built e := by
    intro e he
    rcases hstep.database with hsame | ⟨b, -, hb⟩
    · exact hsame ▸ he
    · exact Database.State.built_of_step (Database.step_of_next hb) he
  suffices hframe : ∀ g ∈ t.frames,
      (g = .waiting none → s.database.startedConnecting = true) ∧
        ∀ e ∈ g.todo, s.database.built e from
    ⟨fun hg => hstarted ((hframe _ hg).1 rfl), fun g hg e he => hbuilt e ((hframe g hg).2 e he)⟩
  intro g hg
  have hcollect : ∀ es f, (decide (Frame.collect es f = .waiting none), (f.collect es).todo) =
      (decide (f = .waiting none), f.todo) := by
    intro es f
    cases f <;> rfl
  rcases frame_of_step (k := fun f => (decide (f = .waiting none), f.todo)) hcollect hstep hg with
    ⟨f, hf, hsame⟩ | ⟨f, below, effect, u, -, hframes, hnext, -, -⟩ | ⟨c, rfl, -, -⟩
  · obtain ⟨hw, htodo⟩ := Prod.mk.inj hsame
    refine ⟨fun hg => hI.waiting ?_, fun e he => hI.todo f hf e (htodo ▸ he)⟩
    exact (of_decide_eq_true (hw.symm.trans (decide_eq_true hg)) : f = .waiting none) ▸ hf
  · refine ⟨?_, fun e he => hI.todo f (hframes ▸ List.mem_cons_self) e (hnext.todo he)⟩
    rintro rfl
    cases hnext
  · cases hstep with
    | call hidle huser hcall => exact hI.call (running_of_reach hr).built hcall hg
    | environment hb => exact absurd hb (by simp)

/-- While its function waits, the main thread is in `abortAllQueries`. -/
theorem inAbortAll_of_reach (h : machine.Reach C s) {disconnect : Option Bool}
    {below : List Frame} (hframes : s.frames = .abortAll disconnect :: below) :
    s.database.mainPC.inAbortAll = true := by
  refine h.invariant (I := fun s => ∀ disconnect below, s.frames = .abortAll disconnect :: below →
    s.database.mainPC.inAbortAll = true) (by simp [machine]) (fun s t a hr hI _ hnext => ?_)
    disconnect below hframes
  intro disconnect below hstack
  cases step_of_next hnext with
  | @environment a b u hb hdatabase =>
      show u.mainPC.inAbortAll = true
      rw [mainPC_of_environment hb hdatabase]
      exact hI disconnect below hstack
  | @main c u hpc hdatabase =>
      rw [afterMain_database]
      have hbefore : s.frames = .abortAll disconnect :: below := by
        rcases afterMain_frames (s := s.withDatabase (.main c) u) s.database.mainPC with
          hframes | ⟨es, hframes⟩
        · exact hframes.symm.trans hstack
        · rw [hframes, withDatabase_frames] at hstack
          cases hstack' : s.frames with
          | nil => simp [hstack'] at hstack
          | cons f below' =>
              rw [hstack'] at hstack
              obtain ⟨hf, -⟩ := List.cons_eq_cons.1 hstack
              cases f <;> cases hf
      have hin := hI disconnect below hbefore
      cases Database.step_of_next hdatabase with
      | main hspawn hnext' =>
          refine (Database.MainPC.next_inAbortAll hnext' hin).resolve_left ?_
          rintro ⟨g, hg⟩
          rw [hg, afterMain, withDatabase_frames, hbefore] at hstack
          cases hstack
      | spawn hspawn => exact absurd hin (by simp [hspawn, Database.MainPC.inAbortAll])
      | join hjoin => exact absurd hin (by simp [hjoin, Database.MainPC.inAbortAll])
  | @lua f f' below' effect u hidle hframes hmoves hu =>
      have hstack : f'.toList ++ below' = .abortAll disconnect :: below := hstack
      cases f' with
      | none =>
          -- what is below waits for user code
          have huser := userCode_of_reach hr (.abortAll disconnect) (by
            rw [hframes, List.tail_cons, show below' = _ from hstack]
            exact List.mem_cons_self)
          cases huser
      | some g =>
          obtain ⟨rfl, -⟩ := List.cons_eq_cons.1 hstack
          cases hmoves
  | call hidle huser hcall =>
      have hidle' : t.frames = s.frames → t.database.mainPC.inAbortAll = true := by
        intro hsame
        rw [inUserCode, ← hsame, hstack] at huser
        cases huser
      cases callStep_of_call hcall with
      | begin hdatabase hf hnew =>
          rcases hnew with ⟨rfl, -⟩ | ⟨d, rfl, rfl⟩
          · exact hidle' rfl
          · have hdatabase : (if s.database.mainPC = .idle then s.database.call .abortAll else none) =
                some _ := hdatabase
            rw [if_pos hidle] at hdatabase
            obtain rfl := Option.some.inj hdatabase
            rfl
      | waitQuery => cases (List.cons_eq_cons.1 hstack).1
      | enter henter =>
          rcases henter with rfl | rfl | ⟨query, -, rfl⟩ <;> cases (List.cons_eq_cons.1 hstack).1
      | connect | start | throw => exact hidle' rfl

/-! ### At rest -/

/-- User code is running, in no callback, and the threads underneath rest. -/
structure Resting (s : State) : Prop where
  frames : s.frames = []
  database : s.database.Resting

lemma database_rests (h : machine.Rests Action.ofThread s) :
    system.Rests Database.Action.ofThread s.database := by
  intro a ha
  cases a with
  | worker c =>
      have hnone : s.step (.worker c) = none := h (.worker c) rfl
      exact Option.map_eq_none_iff.1 hnone
  | main c =>
      by_cases hidle : s.database.mainPC = .idle
      · show s.database.continueMain c = none
        simp [Database.State.continueMain, hidle, Database.MainPC.next]
      · have hnone : machine.next s (.main c) = none := h (.main c) rfl
        simp only [machine, if_neg hidle] at hnone
        exact Option.map_eq_none_iff.1 (Option.map_eq_none_iff.1 hnone)
  | call | connectionLost => cases ha

/-- What a function does is possible while the main thread is in no operation, if the operation
that it calls is. -/
lemma perform_enabled {effect : Effect} (hidle : s.database.mainPC = .idle)
    (hcall : ∀ m, effect = .call m → ∃ u, s.database.call m = some u) :
    ∃ t, s.perform effect = some t := by
  have hstep : ∀ m u, s.database.call m = some u → ∃ t, s.step (.call m) = some t := by
    intro m u hu
    refine ⟨_, step_eq_some.2 ⟨u, ?_, rfl⟩⟩
    simpa [system, hidle] using hu
  cases effect with
  | think effect =>
      cases effect with
      | takeReconnectEvents =>
          obtain ⟨t, ht⟩ := hstep .takeReconnectEvents _ rfl
          exact ⟨_, Option.map_eq_some_iff.2 ⟨t, ht, rfl⟩⟩
      | takeFinishedQueries =>
          obtain ⟨t, ht⟩ := hstep .takeFinished _ rfl
          exact ⟨_, Option.map_eq_some_iff.2 ⟨t, ht, rfl⟩⟩
      | _ => exact ⟨_, rfl⟩
  | call m =>
      obtain ⟨u, hu⟩ := hcall m rfl
      exact hstep m u hu
  | runAborted | finishAborted => exact ⟨_, rfl⟩

/-- **No deadlock on the Lua side.**  If no thread can take a step, no function of this layer is
on the stack, and the threads underneath rest. -/
theorem resting_of_stuck (h : machine.Reach C s) (hrest : machine.Rests Action.ofThread s) :
    s.Resting := by
  have hreach : system.Reachable s.database := database_reachable h
  have hdatabase : s.database.Resting := by
    refine Database.State.resting_of_known hreach (database_rests hrest) fun e hpc => ?_
    obtain ⟨below, hframes⟩ : ServedBy s.frames (.waiting e .block) := hpc ▸ served_of_reach h
    exact .inl (accepted_of_waits h _ (hframes ▸ List.mem_cons_self) rfl)
  refine ⟨by_contra fun hne => ?_, hdatabase⟩
  obtain ⟨f, below, hframes⟩ := List.exists_cons_of_ne_nil hne
  have hmem : f ∈ s.frames := hframes ▸ List.mem_cons_self
  have hstuck : s.lua = none := by
    have hnone : machine.next s .lua = none := hrest .lua rfl
    simpa [machine, hdatabase.main] using hnone
  -- an operation that is called is enabled
  have hcall : ∀ effect f' m, f.next s.view = some (effect, f') → effect = .call m →
      ∃ u, s.database.call m = some u := by
    rintro effect f' m hnext rfl
    have hcallOn : ∀ (e : Execution) (u : Database.State), s.database.built e →
        s.database.callOn e u = some u := fun e u hbuilt => if_pos hbuilt
    cases Frame.moves_of_next hnext with
    | @waitForQuery e =>
        have hbuilt := (Database.State.numbered hreach).built e (accepted_of_waits h _ hmem rfl)
        exact ⟨_, hcallOn _ _ hbuilt⟩
    | wait =>
        have hclear := (Database.State.settled_at_rest hreach hdatabase
          ((founded_of_reach h).waiting hmem)).1
        refine ⟨s.database, ?_⟩
        simp [Database.State.call, hclear.connectionDone, hclear.connectMutex]
    | @abort e todo done =>
        exact ⟨_, hcallOn _ _ ((founded_of_reach h).todo _ hmem e List.mem_cons_self)⟩
    | disconnect =>
        simp only [Database.State.call]
        split <;> exact ⟨_, rfl⟩
  have hnext : f.next s.view = none := by
    rcases hf : f.next s.view with _ | ⟨effect, f'⟩
    · rfl
    · obtain ⟨t, ht⟩ := perform_enabled hdatabase.main fun m => hcall effect f' m hf
      simp [State.lua, hframes, hf, ht] at hstuck
  cases f with
  | abortAll disconnect =>
      exact absurd (inAbortAll_of_reach h hframes)
        (by simp [hdatabase.main, Database.MainPC.inAbortAll])
  | waiting waited => cases waited <;> cases hnext
  | abort todo done => cases todo <;> cases hnext
  | completed rest disconnect => cases rest <;> cases disconnect <;> cases hnext
  | think | beforeWait | inAborted | disconnecting => cases hnext

lemma Resting.rests (h : s.Resting) : machine.Rests Action.ofThread s := by
  intro a ha
  cases a with
  | worker c =>
      have hnone : system.next s.database (.worker c) = none := h.database.rests (.worker c) rfl
      exact Option.map_eq_none_iff.2 hnone
  | main c => exact if_pos h.database.main
  | lua =>
      show (if s.database.mainPC = .idle then s.lua else none) = none
      rw [if_pos h.database.main, State.lua, h.frames]
  | call | connectionLost => cases ha

/-- A `think` that user code calls at rest: once it has taken the queue, nothing comes after. -/
structure Thinking (s : State) : Prop where
  database : s.database.Resting
  puts : s.frames = [] ∧ s.puts = [] ∨
    ∃ stage, s.frames = [.think stage none] ∧
      ((Frame.think stage none).late = true → s.puts = [])

/-- `think` is late once it has taken the queue, and is so when it returns. -/
lemma late_of_moves {v : ThinkView Put} {stage : ThinkStage Put} {waited : Option Execution}
    {effect : Effect} {f' : Option Frame} (h : (Frame.think stage waited).Moves v effect f') :
    (f' = none → (Frame.think stage waited).late = true ∧ effect ≠ .think .takeFinishedQueries) ∧
      ∀ g, f' = some g → (∃ stage', g = .think stage' waited) ∧
        (g.late = true →
          effect = .think .takeFinishedQueries ∨ (Frame.think stage waited).late = true) := by
  cases h <;> simp [Frame.late]

lemma Thinking.database_of_lua {f : Frame} {f' : Option Frame} {effect : Effect}
    (hI : s.Thinking) (hthinks : f.thinks = true) (hnext : f.Moves s.view effect f')
    (ht : s.perform effect = some t) : t.database.Resting := by
  have hrest := hI.database
  rcases (performed ht).database with hsame | ⟨m, hcalls, hm⟩
  · exact hsame ▸ hrest
  · obtain ⟨-, hm⟩ : s.database.mainPC = .idle ∧ s.database.call m = some t.database := by
      simpa [system] using hm
    cases hnext with
    | takeReconnectEvents =>
        obtain rfl := Option.some.inj hcalls
        rw [← Option.some.inj hm]
        exact ⟨hrest.main, hrest.worker⟩
    | takeFinishedQueries =>
        obtain rfl := Option.some.inj hcalls
        rw [← Option.some.inj hm]
        exact ⟨hrest.main, hrest.worker⟩
    | waitForQuery | wait | abort | disconnect => cases hthinks
    | _ => cases hcalls

lemma Thinking.step {a : Action} (hI : s.Thinking)
    (ha : a.ofThread = true ∨ a.ofNetwork = true) (h : Step s a t) : t.Thinking := by
  cases h with
  | @environment a b u hb hu =>
      rcases hb with ⟨c, rfl, rfl⟩ | ⟨rfl, rfl⟩
      · exact absurd (hu.symm.trans (hI.database.rests (.worker c) rfl)) (by simp)
      · have hnone : (s.withDatabase .connectionLost u).puts = s.puts := List.append_nil _
        refine ⟨?_, ?_⟩
        · cases Database.step_of_next hu with
          | connectionLost => exact ⟨hI.database.main, hI.database.worker⟩
        · rw [hnone]
          exact hI.puts
  | main hpc hu => exact absurd hI.database.main hpc
  | @lua f f' below effect t hidle hframes hnext ht =>
      obtain ⟨stage, hstack, hlate⟩ := hI.puts.resolve_left fun hempty =>
        absurd (hframes.symm.trans hempty.1) (by simp)
      obtain ⟨rfl, rfl⟩ : f = .think stage none ∧ below = [] := by
        simpa [hstack, eq_comm] using hframes
      have hdatabase := hI.database_of_lua rfl hnext ht
      have hputs := (performed ht).puts
      refine ⟨hdatabase, ?_⟩
      obtain ⟨hreturn, hstay⟩ := late_of_moves hnext
      cases f' with
      | none =>
          obtain ⟨hbefore, htake⟩ := hreturn rfl
          rw [if_neg htake] at hputs
          exact .inl ⟨rfl, hputs.trans (hlate hbefore)⟩
      | some g =>
          obtain ⟨⟨stage', rfl⟩, hlater⟩ := hstay g rfl
          refine .inr ⟨stage', rfl, fun hafter => hputs.trans ?_⟩
          split
          · rfl
          · rename_i htake
            exact hlate ((hlater hafter).resolve_left htake)
  | call => exact absurd ha (by simp [Action.ofThread, Action.ofNetwork])

/-- **Every callback runs.**  In every run in which `completeQueryWithError` makes its test only
for what the worker thread is not still completing: when everything rests after `connect`, a
`think` that user code then calls returns, and when it has, nothing is left on
`finishedQueries`, and the terminal callback of every accepted execution was invoked exactly
once. -/
theorem every_callback_runs (h : machine.Reach NoLateFallback s) (hrest : s.Resting)
    (hstarted : s.database.startedConnecting = true) :
    (∃ bs u, (∀ b ∈ bs, b.ofThread = true) ∧ machine.run s (.call .think :: bs) = some u ∧
        u.Resting) ∧
      ∀ bs u, (∀ b ∈ bs, b.ofThread = true ∨ b.ofNetwork = true) →
        machine.run s (.call .think :: bs) = some u → u.Resting →
        u.puts = [] ∧ ∀ e ∈ u.database.history.accepted, u.answered.count e = 1 := by
  have hcall : machine.next s (.call .think) = some (s.push (.think .testConnectionDone none)) := by
    simp [machine, hrest.database.main, inUserCode, hrest.frames, State.call]
  have hpush : machine.Reach NoLateFallback (s.push (.think .testConnectionDone none)) :=
    .step (a := .call .think) h trivial hcall
  have hrun : ∀ bs, machine.run s (.call .think :: bs) =
      machine.run (s.push (.think .testConnectionDone none)) bs := by
    intro bs
    rw [Machine.run, hcall, Option.bind_some]
  constructor
  · obtain ⟨bs, u, hbs, hbrun, hu⟩ := bounded.exists_rests (s.push (.think .testConnectionDone none))
    exact ⟨bs, u, hbs, (hrun bs).trans hbrun,
      resting_of_stuck (Machine.Reach.of_run hpush.reachable hbrun) hu⟩
  · intro bs u hbs hbrun hu
    rw [hrun] at hbrun
    obtain ⟨hreach, hthinking, hfounded⟩ : machine.Reach NoLateFallback u ∧ u.Thinking ∧
        u.database.startedConnecting = true := by
      refine keeps_of_run (I := fun s => machine.Reach NoLateFallback s ∧ s.Thinking ∧
        s.database.startedConnecting = true) ?_ hbs ⟨hpush, ?_, hstarted⟩ hbrun
      · rintro s t a ⟨hr, hI, hs⟩ ha hnext
        have hstep := step_of_next hnext
        refine ⟨.step hr ?_ hnext, hI.step ha hstep, ?_⟩
        · cases a with
          | main c => exact absurd hnext (by simp [machine, hI.database.main])
          | _ => trivial
        · rcases hstep.database with hsame | ⟨b, -, hb⟩
          · exact hsame ▸ hs
          · exact Database.State.startedConnecting_of_step (Database.step_of_next hb) hs
      · exact ⟨hrest.database, .inr ⟨_, by rw [push, hrest.frames], by simp [Frame.late]⟩⟩
    have hputs : u.puts = [] := by
      rcases hthinking.puts with ⟨-, hputs⟩ | ⟨stage, hframes, -⟩
      · exact hputs
      · exact absurd (hu.frames.symm.trans hframes) (by simp)
    refine ⟨hputs, fun e he => ?_⟩
    have hplace := one_callback hreach he
    have hqueue := (Database.State.settled_at_rest (database_reachable hreach) hu.database
      hfounded).1.queue
    have hworker : u.database.workerPC.holds = [] := by
      rcases hu.database.worker with hw | hw | ⟨hw, -⟩ <;> rw [hw] <;> rfl
    have howed : u.owed = [] := by
      rw [owed, hu.frames, hputs]
      rfl
    rw [hqueue, hworker, hu.database.main, howed] at hplace
    simpa [Database.MainPC.holds] using hplace

/-- Of two executions the first was run, and the second aborted while it was queued: the first
lies on `finishedQueries`, and `onAborted` of the second has returned. -/
def abortBehindRun : List Action :=
  connectSteps ++ connectedSteps ++ startSteps 0 0 ++ executeSteps ++ startSteps 1 0 ++
    .call (.abort 1) :: luaSteps 1 ++ mainSteps 4 ++ luaSteps 4

set_option maxRecDepth 4000 in
theorem every_callback_runs_abortBehindRun :
    ∃ s, machine.runIf NoLateFallback machine.init abortBehindRun = some s ∧
      s.answered = [⟨1, 1, 0⟩] ∧ s.puts.map Put.execution = [⟨0, 0, 0⟩] ∧
      ∃ bs u, (∀ b ∈ bs, b.ofThread = true) ∧ machine.run s (.call .think :: bs) = some u ∧
        u.puts = [] ∧ ∀ e ∈ u.database.history.accepted, u.answered.count e = 1 := by
  obtain ⟨s, hs⟩ :
      ∃ s, machine.runIf NoLateFallback machine.init abortBehindRun = some s := ⟨_, rfl⟩
  have hstate : (machine.runIf NoLateFallback machine.init abortBehindRun).map (fun s =>
      (s.answered, s.puts.map Put.execution, s.frames, s.database.mainPC, s.database.workerPC,
        s.database.queue, s.database.closed, s.database.startedConnecting)) =
      some ([⟨1, 1, 0⟩], [⟨0, 0, 0⟩], [], .idle, .taking, [], false, true) := rfl
  rw [hs] at hstate
  simp only [Option.map_some, Option.some.injEq, Prod.mk.injEq] at hstate
  obtain ⟨hanswered, hputs, hframes, hmain, hworker, hqueue, hopen, hstarted⟩ := hstate
  obtain ⟨⟨bs, u, hbs, hrun, hu⟩, hall⟩ := every_callback_runs (reach_of_runIf hs)
    ⟨hframes, hmain, .inr (.inr ⟨hworker, hqueue, hopen⟩)⟩ hstarted
  exact ⟨s, hs, hanswered, hputs, bs, u, hbs, hrun,
    hall bs u (fun b hb => .inl (hbs b hb)) hrun hu⟩

end State

end GmsvPg.Lua
