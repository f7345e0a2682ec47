/-
# `db:disconnect(true)` is a barrier

`disconnect(true)` aborts what is queued, shuts the database down, joins the worker thread and
calls `think`.  Once the worker thread is joined, nothing is put on `finishedQueries` any more,
whatever the callbacks of that `think` call.  So when `disconnect(true)` returns, the terminal
callback of every accepted execution was invoked, except of those in the lists of outer
functions, for a `disconnect(true)` inside a callback.
-/
import GmsvPg.Lua.AtRest

namespace GmsvPg.Database

open Library

/-- The main thread is in `disconnect(true)`, after the test of `startedConnecting`. -/
def MainPC.joins : MainPC → Bool
  | .shutdown _ join _ | .cancel _ _ (.shutdown join _) => join
  | .joining => true
  | _ => false

/-- `disconnect(true)` goes on until the worker thread is joined. -/
lemma MainPC.next_joins {s : Shared} {c : Choice} {pc pc' : MainPC} {a : Access}
    (h : pc.next s c = some (a, pc')) (hpc : pc.joins = true) :
    pc'.joins = true := by
  cases pc with
  | shutdown stage join g =>
      obtain rfl : join = true := hpc
      cases stage <;> simp only [MainPC.next, ShutdownStage.next] at h
      all_goals repeat' split at h
      all_goals cases h
      all_goals simp_all [joins]
  | cancel d stage caller =>
      cases caller with
      | shutdown join g =>
          obtain rfl : join = true := hpc
          cases stage <;> simp only [MainPC.next, CancelStage.next, CancelCaller.resume] at h
          all_goals repeat' split at h
          all_goals cases h
          all_goals simp [joins]
      | abortQuery | abortAll => cases hpc
  | joining => exact absurd h (by simp [MainPC.next])
  | _ => cases hpc

lemma Access.Moves.mem_of_finish {queue l p l' p' : List Execution} {e : Execution}
    (h : (Access.finish e).Moves queue l p l' p') : e ∈ l := by
  cases h with
  | keep hquiet => exact absurd hquiet (by simp [quiet])
  | finish => exact List.mem_cons_self

namespace State

variable {C : State → Action → Prop} {s t : State}

/-- The worker thread has ended, and the main thread has nothing in its hands: nothing is handed
over any more. -/
structure Joined (s : State) : Prop where
  worker : s.workerPC = .ended
  main : s.mainPC.holds = []

lemma Joined.step {a : Action} (hr : system.Reach C s) (hI : s.Joined) (h : Step s a t) :
    t.Joined := by
  have hqueue : s.queue = [] := (closed_of_pastQueue hr (by rw [hI.worker]; rfl)).2
  cases h with
  | worker hnext =>
      rw [hI.worker] at hnext
      cases hnext
  | @main c b pc hspawn hnext =>
      refine ⟨hI.worker, ?_⟩
      rcases MainPC.next_moves hnext with hmoves | ⟨e, -, -, -, rfl⟩
      · refine List.eq_nil_iff_forall_not_mem.2 fun e he => ?_
        rcases hmoves.mem_holds he with he | he
        · exact absurd (hI.main ▸ he) List.not_mem_nil
        · exact absurd (hqueue ▸ he) List.not_mem_nil
      · rfl
  | spawn hpc =>
      have hworker := ((startedOnce hr).connecting _ hpc (by simp) (by simp)).1
      exact absurd (hworker.symm.trans hI.worker) (by simp)
  | join => exact ⟨hI.worker, rfl⟩
  | call hidle hcall =>
      cases hcall with
      | start => exact ⟨hI.worker, rfl⟩
      | enter hentry => cases hentry <;> exact ⟨hI.worker, rfl⟩
      | _ => exact ⟨hI.worker, hI.main⟩
  | connectionLost => exact ⟨hI.worker, hI.main⟩

/-- What is put on `finishedQueries` then was not accepted, or `completeQueryWithError` came
late. -/
lemma Joined.puts (hr : system.Reach NoLateFallback s) (hI : s.Joined) {a : Action}
    (h : Step s a t) {e : Execution} (he : (s.access a).bind Access.puts = some e) :
    ∃ stage, s.mainPC = .waiting e stage ∧ e ∉ s.history.accepted := by
  obtain ⟨b, hb, hput⟩ := Option.bind_eq_some_iff.1 he
  cases h with
  | worker hnext =>
      rw [hI.worker] at hnext
      cases hnext
  | @main c b' pc hspawn hnext =>
      obtain rfl : b' = b := by simpa [access, hnext] using hb
      cases b' with
      | finish e' =>
          rcases MainPC.next_moves hnext with hmoves | ⟨e'', -, ha, -⟩
          · exact absurd (hI.main ▸ hmoves.mem_of_finish) List.not_mem_nil
          · cases ha
      | forceFinish e' =>
          obtain rfl := Option.some.inj hput
          have hwait := MainPC.next_forceFinish hnext
          exact ⟨_, hwait, (unforced_of_reach hr).forcing _ _ hwait rfl⟩
      | _ => cases hput
  | spawn hpc => 
      obtain rfl : b = .read := by
        simpa [access, hpc, MainPC.next, ConnectCallStage.next, eq_comm] using hb
      cases hput
  | join hpc => simp [access, hpc, MainPC.next] at hb
  | call | connectionLost => cases hb

end State

end GmsvPg.Database

namespace GmsvPg.Lua

open Library Machine
open Database (Execution Choice MainPC Access system)

namespace State

variable {C : State → Action → Prop} {s t : State}

/-! ### The worker thread is joined -/

/-- While its function is on top of the stack, the main thread is in `disconnect(true)`, or the
worker thread is joined, if there was one. -/
def Joins (s : State) : Prop :=
  ∀ below, s.frames = .disconnecting true :: below →
    s.database.mainPC.joins = true ∨ s.database.mainPC = .idle ∧
      (s.database.startedConnecting = true → s.database.workerPC = .ended)

theorem joins_of_reach (h : machine.Reach C s) : s.Joins := by
  refine h.invariant (I := Joins) (by simp [Joins, machine]) (fun s t a hr hI _ hnext => ?_)
  intro below hstack
  cases step_of_next hnext with
  | @environment a b u hb hdatabase =>
      show u.mainPC.joins = true ∨ u.mainPC = .idle ∧
        (u.startedConnecting = true → u.workerPC = .ended)
      rw [mainPC_of_environment hb hdatabase]
      rcases hI below hstack with hin | ⟨hidle, hended⟩
      · exact .inl hin
      refine .inr ⟨hidle, fun hstarted => ?_⟩
      rcases hb with ⟨c, -, rfl⟩ | ⟨-, rfl⟩
      · cases Database.step_of_next hdatabase with
        | @worker c b pc hworker =>
            -- a thread that has ended, or was not started, takes no step
            cases hbefore : s.database.startedConnecting with
            | true =>
                rw [hended hbefore] at hworker
                cases hworker
            | false =>
                rw [(Database.State.startedOnce (database_reachable hr)).before hbefore] at hworker
                cases hworker
      · cases Database.step_of_next hdatabase with
        | connectionLost => exact hended hstarted
  | @main c u hpc hdatabase =>
      rw [afterMain_database]
      have hbefore : s.frames = .disconnecting true :: below := by
        rcases afterMain_frames (s := s.withDatabase (.main c) u) s.database.mainPC with
          hframes | ⟨es, hframes⟩
        · exact hframes.symm.trans hstack
        · rw [hframes, withDatabase_frames] at hstack
          cases hstack' : s.frames with
          | nil => simp [hstack'] at hstack
          | cons f below' =>
              rw [hstack'] at hstack
              obtain ⟨hf, rfl⟩ := List.cons_eq_cons.1 hstack
              cases f <;> cases hf
              rfl
      have hin := (hI below hbefore).resolve_right fun hidle => hpc hidle.1
      cases Database.step_of_next hdatabase with
      | main hspawn hnext' => exact .inl (Database.MainPC.next_joins hnext' hin)
      | spawn hspawn => exact absurd hin (by simp [hspawn, Database.MainPC.joins])
      | join hjoin hworker =>
          refine .inr ⟨rfl, fun hstarted => hworker.resolve_left fun hw => ?_⟩
          have hunder := (Database.State.underway_of_reach (database_reachable hr)).started hstarted
          rcases hunder with hne | hstarting
          · exact hne hw
          · rw [hjoin] at hstarting
            cases hstarting
  | @lua f f' below' effect u hidle hframes hmoves hu =>
      have hstack : f'.toList ++ below' = .disconnecting true :: below := hstack
      cases f' with
      | none =>
          -- what is below waits for user code
          have huser := userCode_of_reach hr (.disconnecting true) (by
            rw [hframes, List.tail_cons, show below' = _ from hstack]
            exact List.mem_cons_self)
          cases huser
      | some g =>
          obtain ⟨rfl, -⟩ := List.cons_eq_cons.1 hstack
          cases hmoves
          obtain ⟨v, hv, rfl⟩ := step_eq_some.1 hu
          show v.mainPC.joins = true ∨ v.mainPC = .idle ∧
            (v.startedConnecting = true → v.workerPC = .ended)
          have hv : (if s.database.mainPC = .idle then s.database.call (.disconnect true)
              else none) = some v := hv
          rw [if_pos hidle] at hv
          have hv : (if s.database.startedConnecting then
              some { s.database with mainPC := .shutdown .exchange true {} }
              else some s.database) = some v := hv
          cases hstarted : s.database.startedConnecting with
          | true =>
              rw [hstarted] at hv
              obtain rfl := Option.some.inj hv
              exact .inl rfl
          | false =>
              rw [hstarted] at hv
              obtain rfl := Option.some.inj hv
              exact .inr ⟨hidle, fun htrue => absurd (hstarted.symm.trans htrue) (by simp)⟩
  | call hidle huser hcall =>
      rcases (callStep_of_call hcall).called.frames with hframes | ⟨g, hentered, hframes⟩
      · rw [inUserCode, ← hframes, hstack] at huser
        cases huser
      · rw [hframes] at hstack
        obtain ⟨rfl, -⟩ := List.cons_eq_cons.1 hstack
        cases hentered

/-! ### The last `think` -/

/-- A function that is yet to take the queue. -/
def Taking (f : Frame) : Prop :=
  f = .disconnecting true ∨ f.thinks = true ∧ f.late = false

/-- Either `disconnect(true)` is yet to take the queue, above the functions it was called from,
or nothing is left there. -/
structure Draining (below : List Frame) (s : State) : Prop where
  joined : s.database.Joined
  puts : s.puts = [] ∨ ∃ above f, s.frames = above ++ f :: below ∧ Taking f

lemma Taking.collect {f : Frame} (h : Taking f) (es : List Execution) : f.collect es = f := by
  rcases h with rfl | ⟨hthinks, -⟩
  · rfl
  · cases f with
    | think => rfl
    | _ => cases hthinks

/-- A function that is yet to take the queue does so before it returns. -/
lemma Taking.moves {v : ThinkView Put} {f : Frame} {effect : Effect} {f' : Option Frame}
    (hf : Taking f) (h : f.Moves v effect f') :
    effect = .think .takeFinishedQueries ∨ ∃ g, f' = some g ∧ Taking g := by
  rcases hf with rfl | ⟨hthinks, hlate⟩
  · cases h
    exact .inr ⟨_, rfl, .inr ⟨rfl, rfl⟩⟩
  · cases f with
    | think stage w =>
        obtain ⟨hreturn, hstay⟩ := late_of_moves h
        cases f' with
        | none => exact absurd ((hreturn rfl).1.symm.trans hlate) (by simp)
        | some g =>
            obtain ⟨⟨stage', rfl⟩, hlater⟩ := hstay g rfl
            cases hafter : (Frame.think stage' w).late with
            | true =>
                exact .inl ((hlater hafter).resolve_right fun hbefore =>
                  absurd (hbefore.symm.trans hlate) (by simp))
            | false => exact .inr ⟨_, rfl, .inr ⟨rfl, hafter⟩⟩
    | _ => cases hthinks

lemma Draining.step {below : List Frame} {a : Action} (hr : machine.Reach NoLateFallback s)
    (hI : Draining below s) (h : Step s a t) : Draining below t := by
  have hreach := database_noLateFallback hr
  have hjoined : t.database.Joined := by
    rcases h.database with hsame | ⟨b, -, hb⟩
    · exact hsame ▸ hI.joined
    · exact hI.joined.step hreach (Database.step_of_next hb)
  -- nothing is put on the queue: what user code waits for was accepted
  have hnone : ∀ b u, system.next s.database b = some u → s.newPuts b = [] := by
    intro b u hb
    rcases hput : (s.database.access b).bind Access.puts with _ | e
    · simp [newPuts, hput]
    · obtain ⟨stage, hpc, hnot⟩ := hI.joined.puts hreach (Database.step_of_next hb) hput
      obtain ⟨below, hframes⟩ : ServedBy s.frames (.waiting e stage) := hpc ▸ served_of_reach hr
      exact absurd (accepted_of_waits hr _ (hframes ▸ List.mem_cons_self) rfl) hnot
  refine ⟨hjoined, ?_⟩
  cases h with
  | @environment a b u hb hu =>
      rw [show (s.withDatabase b u).puts = s.puts by
        show s.puts ++ s.newPuts b = _
        rw [hnone b u hu, List.append_nil]]
      exact hI.puts
  | @main c u hpc hu =>
      rw [afterMain_puts, show (s.withDatabase (.main c) u).puts = s.puts by
        show s.puts ++ s.newPuts _ = _
        rw [hnone _ u hu, List.append_nil]]
      refine hI.puts.imp_right ?_
      rintro ⟨above, f, hframes, hf⟩
      rcases afterMain_frames (s := s.withDatabase (.main c) u) s.database.mainPC with
        hsame | ⟨es, hsame⟩
      · exact ⟨above, f, hsame.trans hframes, hf⟩
      · rw [withDatabase_frames, hframes] at hsame
        cases above with
        | nil => exact ⟨[], f, hsame.trans (by simp [hf.collect es]), hf⟩
        | cons g above => exact ⟨g.collect es :: above, f, hsame, hf⟩
  | @lua f f' rest effect t hidle hframes hnext ht =>
      have hputs := (performed ht).puts
      show t.puts = [] ∨ ∃ above g, f'.toList ++ rest = above ++ g :: below ∧ Taking g
      by_cases htake : effect = .think .takeFinishedQueries
      · exact .inl (hputs.trans (if_pos htake))
      · rw [hputs, if_neg htake]
        refine hI.puts.imp_right ?_
        rintro ⟨above, g, hstack, hg⟩
        rw [hframes] at hstack
        cases above with
        | nil =>
            obtain ⟨rfl, rfl⟩ := List.cons_eq_cons.1 hstack
            obtain ⟨g, rfl, hg⟩ := (hg.moves hnext).resolve_left htake
            exact ⟨[], g, rfl, hg⟩
        | cons f₀ above =>
            obtain ⟨rfl, rfl⟩ := List.cons_eq_cons.1 hstack
            exact ⟨f'.toList ++ above, g, (List.append_assoc ..).symm, hg⟩
  | call hidle huser hcall =>
      have hcalled := (callStep_of_call hcall).called
      rw [hcalled.puts]
      refine hI.puts.imp_right ?_
      rintro ⟨above, f, hframes, hf⟩
      rcases hcalled.frames with hsame | ⟨g, -, hsame⟩
      · exact ⟨above, f, hsame.trans hframes, hf⟩
      · exact ⟨g :: above, f, by rw [hsame, hframes]; rfl, hf⟩

/-- **A barrier.**  In every run in which `completeQueryWithError` makes its test only for what
the worker thread is not still completing: when `db:disconnect(true)`, called after `connect`,
has returned to the functions below it, whatever the callbacks it has run have called, the
worker thread has ended, nothing is left on `finishedQueries`, and the terminal callback of
every accepted execution was invoked, once, or is one that a function below has still to run;
at the bottom of the stack all were invoked. -/
theorem disconnect_waits {below : List Frame} {as : List Action}
    (h : machine.Reach NoLateFallback s) (hframes : s.frames = .disconnecting true :: below)
    (hidle : s.database.mainPC = .idle) (hstarted : s.database.startedConnecting = true)
    (hrun : machine.runIf NoLateFallback s as = some t)
    (hreturned : t.frames.length ≤ below.length) :
    t.database.workerPC = .ended ∧ t.puts = [] ∧
      ∀ e ∈ t.database.history.accepted,
        t.answered.count e + (t.frames.flatMap Frame.owes).count e = 1 := by
  have hworker : s.database.workerPC = .ended := by
    rcases joins_of_reach h below hframes with hin | ⟨-, hended⟩
    · rw [hidle] at hin
      cases hin
    · exact hended hstarted
  have hdraining : Draining below s :=
    ⟨⟨hworker, by rw [hidle]; rfl⟩, .inr ⟨[], _, hframes, .inl rfl⟩⟩
  have ht : machine.Reach NoLateFallback t := Reach.of_runIf h hrun
  have hafter : Draining below t := keeps_of_runIf (I := Draining below)
    (fun s t a hr hI _ hnext => hI.step hr (step_of_next hnext)) h hdraining hrun
  have hputs : t.puts = [] := by
    refine hafter.puts.resolve_right ?_
    rintro ⟨above, f, hstack, -⟩
    rw [hstack, List.length_append, List.length_cons] at hreturned
    omega
  refine ⟨hafter.joined.worker, hputs, fun e he => ?_⟩
  have hplace := one_callback ht he
  have hqueue := (Database.State.closed_of_pastQueue (database_noLateFallback ht)
    (by rw [hafter.joined.worker]; rfl)).2
  rw [owed, hputs, List.map_nil, List.append_nil, hqueue, hafter.joined.main,
    hafter.joined.worker] at hplace
  simp only [Database.WorkerPC.holds, List.count_nil] at hplace
  omega

/-- While an execution is queued, `disconnect(true)` is called in the callback of another; the
worker thread has been joined. -/
def disconnectInCallbackRun : List Action :=
  connectSteps ++ connectedSteps ++ startSteps 0 0 ++ executeSteps ++ startSteps 1 0 ++
    .call .think :: luaSteps 8 ++ .call (.disconnect true) :: mainSteps 6 ++ luaSteps 3 ++
    mainSteps 7 ++ workerSteps 5 ++ mainSteps 1

set_option maxRecDepth 4000 in
theorem disconnect_waits_disconnectInCallbackRun :
    ∃ s t below, machine.runIf NoLateFallback machine.init disconnectInCallbackRun = some s ∧
      s.frames = .disconnecting true :: below ∧ below.length = 1 ∧
      machine.runIf NoLateFallback s (luaSteps 8) = some t ∧ t.frames = below ∧
      t.database.workerPC = .ended ∧ t.puts = [] ∧
      ∀ e ∈ t.database.history.accepted,
        t.answered.count e + (t.frames.flatMap Frame.owes).count e = 1 := by
  obtain ⟨s, hs⟩ :
      ∃ s, machine.runIf NoLateFallback machine.init disconnectInCallbackRun = some s := ⟨_, rfl⟩
  have hstate : (machine.runIf NoLateFallback machine.init disconnectInCallbackRun).map (fun s =>
      (s.frames.head?, s.frames.tail.length, s.database.mainPC, s.database.startedConnecting,
        (machine.runIf NoLateFallback s (luaSteps 8)).map fun t =>
          decide (t.frames = s.frames.tail))) =
      some (some (.disconnecting true), 1, .idle, true, some true) := rfl
  rw [hs] at hstate
  simp only [Option.map_some, Option.some.injEq, Prod.mk.injEq] at hstate
  obtain ⟨hhead, hlength, hidle, hstarted, hlast⟩ := hstate
  obtain ⟨t, ht, hframes⟩ := Option.map_eq_some_iff.1 hlast
  have hbelow := of_decide_eq_true hframes
  have htop : s.frames = .disconnecting true :: s.frames.tail := by
    rw [← List.cons_head?_tail hhead, List.tail_cons]
  exact ⟨s, t, s.frames.tail, hs, htop, hlength, ht, hbelow,
    disconnect_waits (reach_of_runIf hs) htop hidle hstarted ht (by rw [hbelow])⟩

end State

end GmsvPg.Lua
