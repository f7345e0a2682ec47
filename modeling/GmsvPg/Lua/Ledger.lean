/-
# The ledger of terminal callbacks

What `Database` hands over, the Lua side owes a callback for: the entry of `finishedQueries`
the callback that `think` runs, what an abort returned as completed its `onAborted`.  This file
keeps the books over whole runs.  At every moment the callbacks that were invoked and those
that are still owed are together exactly what was handed over; and since an execution is
handed over once, its callback is invoked once.
-/
import GmsvPg.Database.HandOver
import GmsvPg.Lua.Reentrancy

namespace GmsvPg.Database

/-- What an access returns in `QueryAbortResult.completed`. -/
def Access.returns : Access → List Execution
  | .returnCompleted es => es
  | _ => []

/-- What a step hands over: one entry of `finishedQueries` at most, or what it returns. -/
structure State.HandsOver (s : State) (a : Action) (t : State) : Prop where
  finished : (t.history.finished ++ t.history.forced).Perm
    (s.history.finished ++ s.history.forced ++ ((s.access a).bind Access.puts).toList)
  returned : t.history.returned = s.history.returned ++ (s.access a).elim [] Access.returns

lemma Shared.history_apply (s : Shared) (a : Access) :
    ((s.apply a).history.finished ++ (s.apply a).history.forced).Perm
        (s.history.finished ++ s.history.forced ++ a.puts.toList) ∧
      (s.apply a).history.returned = s.history.returned ++ a.returns := by
  cases a with
  | connectSession error => cases error <;> simp [apply, Access.puts, Access.returns]
  | finish e =>
      refine ⟨?_, (List.append_nil _).symm⟩
      show (s.history.finished ++ [e] ++ s.history.forced).Perm _
      rw [List.append_assoc, List.append_assoc]
      exact List.perm_append_comm.append_left _
  | forceFinish e =>
      refine ⟨.of_eq ?_, (List.append_nil _).symm⟩
      exact (List.append_assoc ..).symm
  | returnCompleted es => exact ⟨.of_eq (List.append_nil _).symm, rfl⟩
  | _ => exact ⟨.of_eq (List.append_nil _).symm, (List.append_nil _).symm⟩

lemma State.handsOver_of_step {s t : State} {a : Action} (h : Step s a t) : s.HandsOver a t := by
  have hnone : ∀ u : State, u.history.finished = s.history.finished ∧
      u.history.forced = s.history.forced ∧ u.history.returned = s.history.returned →
      s.access a = none → s.HandsOver a u := by
    rintro u ⟨hfinished, hforced, hreturned⟩ haccess
    constructor <;> simp [hfinished, hforced, hreturned, haccess]
  cases h with
  | @worker c b pc hnext =>
      have hb : s.access (.worker c) = some b := by simp [access, hnext]
      obtain ⟨hfinished, hreturned⟩ := s.toShared.history_apply b
      constructor <;> rw [hb]
      · exact hfinished
      · exact hreturned
  | @main c b pc hspawn hnext =>
      have hb : s.access (.main c) = some b := by simp [access, hnext]
      obtain ⟨hfinished, hreturned⟩ := s.toShared.history_apply b
      constructor <;> rw [hb]
      · exact hfinished
      · exact hreturned
  | @spawn c hpc =>
      have hb : s.access (.main c) = some .read := by simp [access, hpc, MainPC.next,
        ConnectCallStage.next]
      constructor <;> rw [hb]
      · exact .of_eq (List.append_nil _).symm
      · exact (List.append_nil _).symm
  | join hpc hworker => exact hnone _ ⟨rfl, rfl, rfl⟩ (by simp [access, hpc, MainPC.next])
  | call hidle hcall => exact hnone _ (by cases hcall <;> exact ⟨rfl, rfl, rfl⟩) rfl
  | connectionLost => exact hnone _ ⟨rfl, rfl, rfl⟩ rfl

end GmsvPg.Database

namespace GmsvPg.Lua

open Library Machine
open Database (Execution Choice MainPC Access system)

/-- The execution that a callback is `onAborted` of, in the loop over what an abort has
completed. -/
def Callback.abortedExecution : Callback → Option Execution
  | .aborted e => some e
  | _ => none

/-- `completeQueryWithError` makes its test for what the worker thread is not completing. -/
def NoLateFallback (s : State) : Action → Prop
  | .main c => Database.NoLateFallback s.database (.main c)
  | _ => True

instance (s : State) (a : Action) : Decidable (NoLateFallback s a) := by
  cases a <;> unfold NoLateFallback <;> infer_instance

namespace State

variable {C : State → Action → Prop} {s t : State}

/-- The executions whose terminal callback was invoked, in order. -/
def answered (s : State) : List Execution := s.invoked.filterMap Callback.execution

/-- The executions whose terminal callback is still to be invoked: by a function on the stack,
or by the next `think`. -/
def owed (s : State) : List Execution :=
  s.frames.flatMap Frame.owes ++ s.puts.map Put.execution

/-- What the aborts have completed: `onAborted` was invoked, or a function on the stack is to
invoke it. -/
def completed (s : State) : List Execution :=
  s.invoked.filterMap Callback.abortedExecution ++ s.frames.flatMap Frame.completions

/-! ### The two sides of the ledger -/

/-- What is on record as a batch is what was put on `finishedQueries`. -/
theorem batches_handed (h : machine.Reach C s) :
    (s.batches.map Put.execution).Perm
      (s.database.history.finished ++ s.database.history.forced) := by
  refine machine_invariant (I := fun s => (s.batches.map Put.execution).Perm
    (s.database.history.finished ++ s.database.history.forced)) (List.Perm.refl _)
    (fun s t a _ hI _ hstep => ?_) h
  rcases batches_of_step hstep with ⟨hsame, hperm⟩ | ⟨b, -, hb, hperm⟩
  · rw [hsame]
    exact (hperm.map _).trans hI
  · have hputs : (s.newPuts b).map Put.execution =
        ((s.database.access b).bind Access.puts).toList := by
      simp [newPuts, List.map_map, Function.comp_def]
    have hhands := Database.State.handsOver_of_step (Database.step_of_next hb)
    have hrecord := hperm.map Put.execution
    rw [List.map_append, hputs] at hrecord
    exact hrecord.trans ((hI.append_right _).trans hhands.finished.symm)

end State

/-- The list of what was completed is gone through from the front. -/
lemma Frame.Moves.completions_eq {v : ThinkView Put} {f : Frame} {effect : Effect}
    {f' : Option Frame} (h : f.Moves v effect f') :
    f.completions = (effect.callback.bind Callback.abortedExecution).toList ++
      f'.toList.flatMap Frame.completions := by
  cases h <;> simp [Effect.callback, Callback.abortedExecution, Frame.completions]

namespace State

variable {C : State → Action → Prop} {s t : State}

lemma completed_congr (hinvoked : t.invoked = s.invoked)
    (hframes : t.frames.flatMap Frame.completions = s.frames.flatMap Frame.completions) :
    t.completed = s.completed := by
  rw [completed, completed, hinvoked, hframes]

/-- A function that has collected executions owes them their callbacks. -/
lemma completions_collect (es : List Execution) (f : Frame) (below : List Frame)
    (hf : (∃ todo done, f = .abort todo done) ∨ ∃ disconnect, f = .abortAll disconnect) :
    (((f :: below).modifyHead (Frame.collect es)).flatMap Frame.completions).Perm
      ((f :: below).flatMap Frame.completions ++ es) := by
  rcases hf with ⟨todo, done, rfl⟩ | ⟨disconnect, rfl⟩
  · show (done ++ es ++ below.flatMap Frame.completions).Perm
      (done ++ below.flatMap Frame.completions ++ es)
    rw [List.append_assoc, List.append_assoc]
    exact List.perm_append_comm.append_left _
  · exact List.perm_append_comm

/-- The other operations return no executions. -/
lemma afterMain_frames_eq {pc : MainPC} (habort : ∀ e, pc ≠ .abort e .returnRemoved)
    (habortAll : ∀ g, pc ≠ .abortAll .returnResult g) : (s.afterMain pc).frames = s.frames := by
  unfold afterMain
  split
  · rfl
  · exact absurd rfl (habort _)
  · exact absurd rfl (habortAll _)
  · rfl

/-- What an operation of `Database` returns as completed goes to the function that waits for
it. -/
lemma completed_main {c : Choice} {pc : MainPC} {b : Access} {u : State}
    (hserved : ServedBy s.frames s.database.mainPC) (hinvoked : u.invoked = s.invoked)
    (hframes : u.frames = s.frames)
    (hnext : s.database.mainPC.next s.database.toShared c = some (b, pc)) :
    (u.afterMain s.database.mainPC).completed.Perm (s.completed ++ b.returns) := by
  by_cases hreturns : ∃ es, b = .returnCompleted es
  · obtain ⟨es, rfl⟩ := hreturns
    obtain ⟨f, below, hstack, hf, hafter⟩ : ∃ f below, s.frames = f :: below ∧
        ((∃ todo done, f = .abort todo done) ∨ ∃ disconnect, f = .abortAll disconnect) ∧
        (u.afterMain s.database.mainPC).frames = u.frames.modifyHead (Frame.collect es) := by
      rcases Database.MainPC.next_returnCompleted hnext with ⟨e, hpc, rfl⟩ | ⟨g, hpc, rfl⟩
      · rw [hpc] at hserved ⊢
        obtain ⟨todo, done, below, hstack⟩ := hserved
        exact ⟨_, below, hstack, .inl ⟨todo, done, rfl⟩, rfl⟩
      · rw [hpc] at hserved ⊢
        obtain ⟨disconnect, below, hstack⟩ := hserved
        exact ⟨_, below, hstack, .inr ⟨disconnect, rfl⟩, rfl⟩
    rw [completed, completed, afterMain_invoked, hafter, hinvoked, hframes, hstack,
      List.append_assoc]
    exact (completions_collect es f below hf).append_left _
  · have hreturned : b.returns = [] := by
      cases b with
      | returnCompleted es => exact absurd ⟨es, rfl⟩ hreturns
      | _ => rfl
    have hafter : (u.afterMain s.database.mainPC).frames = u.frames := by
      refine afterMain_frames_eq (fun e hpc => ?_) (fun g hpc => ?_)
      all_goals
        rw [hpc] at hnext
        cases Option.some.inj hnext
        exact hreturns ⟨_, rfl⟩
    rw [hreturned, List.append_nil]
    refine .of_eq (completed_congr ?_ ?_)
    · rw [afterMain_invoked, hinvoked]
    · rw [hafter, hframes]

/-- A step adds to what the aborts have completed what it returns. -/
lemma completed_of_step {a : Action} (hserved : ServedBy s.frames s.database.mainPC)
    (h : Step s a t) :
    (t.database = s.database ∧ t.completed = s.completed) ∨
      ∃ b, system.next s.database b = some t.database ∧
        t.completed.Perm (s.completed ++ (s.database.access b).elim [] Access.returns) := by
  cases h with
  | @environment a b u hb hdatabase =>
      refine .inr ⟨b, hdatabase, .of_eq ?_⟩
      have hreturned : (s.database.access b).elim [] Access.returns = [] := by
        rcases hb with ⟨c, -, rfl⟩ | ⟨-, rfl⟩
        · cases Database.step_of_next hdatabase with
          | @worker c b' pc hnext =>
              rw [show s.database.access (.worker c) = some b' by
                simp [Database.State.access, hnext]]
              have hmain := Database.WorkerPC.next_ofMain hnext
              cases b' with
              | returnCompleted es => exact absurd hmain (by simp [Access.ofMain])
              | _ => rfl
        · rfl
      rw [hreturned, List.append_nil]
      rfl
  | @main c u hpc hdatabase =>
      rw [afterMain_database]
      refine .inr ⟨_, hdatabase, ?_⟩
      cases Database.step_of_next hdatabase with
      | @main c b pc hspawn hnext =>
          rw [show s.database.access (.main c) = some b by simp [Database.State.access, hnext]]
          exact completed_main hserved rfl rfl hnext
      | spawn hspawn =>
          rw [show s.database.access (.main c) = some .read by
            simp [Database.State.access, hspawn, MainPC.next, Database.ConnectCallStage.next]]
          refine .of_eq ((completed_congr ?_ ?_).trans (List.append_nil _).symm)
          · rw [afterMain_invoked, withDatabase_invoked]
          · rw [afterMain_frames_eq (by simp [hspawn]) (by simp [hspawn]), withDatabase_frames]
      | join hjoin hworker =>
          rw [show s.database.access (.main c) = none by
            simp [Database.State.access, hjoin, MainPC.next]]
          refine .of_eq ((completed_congr ?_ ?_).trans (List.append_nil _).symm)
          · rw [afterMain_invoked, withDatabase_invoked]
          · rw [afterMain_frames_eq (by simp [hjoin]) (by simp [hjoin]), withDatabase_frames]
  | @lua f f' below effect t hidle hframes hnext ht =>
      have hperformed := performed ht
      have hsame : ({ t with frames := f'.toList ++ below } : State).completed = s.completed := by
        rw [completed, completed, hframes, List.flatMap_append, List.flatMap_cons,
          hnext.completions_eq]
        show t.invoked.filterMap _ ++ _ = _
        rw [hperformed.invoked, List.filterMap_append]
        cases effect.callback with
        | none => simp
        | some c => cases c <;> simp [Callback.abortedExecution]
      rcases hperformed.database with hdatabase | ⟨m, -, hm⟩
      · exact .inl ⟨hdatabase, hsame⟩
      · exact .inr ⟨_, hm, .of_eq (hsame.trans (List.append_nil _).symm)⟩
  | @call f t hidle huser hcall =>
      have hcalled := (callStep_of_call hcall).called
      have hsame : t.completed = s.completed := by
        refine completed_congr hcalled.invoked ?_
        rcases hcalled.frames with hframes | ⟨g, hentered, hframes⟩
        · rw [hframes]
        · rw [hframes, List.flatMap_cons, hentered.idle.2.1, List.nil_append]
      rcases (Step.call hidle huser hcall).database with hdatabase | ⟨b, ⟨m, rfl⟩, hm⟩
      · exact .inl ⟨hdatabase, hsame⟩
      · exact .inr ⟨_, hm, .of_eq (hsame.trans (List.append_nil _).symm)⟩

/-- What the aborts have completed is what `Database` has returned. -/
theorem completed_returned (h : machine.Reach C s) :
    s.completed.Perm s.database.history.returned := by
  refine machine_invariant (I := fun s => s.completed.Perm s.database.history.returned)
    (List.Perm.refl _) (fun s t a hr hI _ hstep => ?_) h
  rcases completed_of_step (served_of_reach hr) hstep with ⟨hsame, heq⟩ | ⟨b, hb, hperm⟩
  · rw [hsame, heq]
    exact hI
  · rw [(Database.State.handsOver_of_step (Database.step_of_next hb)).returned]
    exact hperm.trans (hI.append_right _)

/-! ### The balance -/

lemma count_answered (l : List Callback) (e : Execution) :
    (l.filterMap Callback.execution).count e =
      ((l.filterMap Callback.put).map Put.execution).count e +
        (l.filterMap Callback.abortedExecution).count e := by
  induction l with
  | nil => rfl
  | cons c l ih =>
      cases c with
      | database c => exact ih
      | finished p =>
          simp only [Callback.execution, Callback.put, Callback.abortedExecution,
            List.filterMap_cons, List.map_cons, List.count_cons, ih]
          omega
      | aborted e' =>
          simp only [Callback.execution, Callback.put, Callback.abortedExecution,
            List.filterMap_cons, List.count_cons, ih]
          omega

lemma count_owes (frames : List Frame) (e : Execution) :
    (frames.flatMap Frame.owes).count e =
      ((frames.flatMap Frame.rest).map Put.execution).count e +
        (frames.flatMap Frame.completions).count e := by
  induction frames with
  | nil => rfl
  | cons f frames ih =>
      simp only [List.flatMap_cons, Frame.owes, List.count_append, List.map_append, ih]
      omega

/-- **The ledger.**  In every reachable state the terminal callbacks that were invoked and
those that are still owed are, execution by execution, what was handed over. -/
theorem answered_add_owed (h : machine.Reach C s) (e : Execution) :
    s.answered.count e + s.owed.count e = s.database.history.handed.count e := by
  have hbatches := (batches_handed h).count_eq e
  have hcompleted := (completed_returned h).count_eq e
  have hanswered := count_answered s.invoked e
  have howes := count_owes s.frames e
  rw [batches, taken, delivered] at hbatches
  rw [completed] at hcompleted
  simp only [answered, owed, Database.History.handed, List.count_append, List.map_append]
    at hbatches hcompleted ⊢
  omega

lemma database_noLateFallback (h : machine.Reach NoLateFallback s) :
    system.Reach Database.NoLateFallback s.database := by
  refine database_reach (fun s a b hC hdrives => ?_) h
  cases a with
  | main c => exact hdrives ▸ hC
  | worker | connectionLost => exact hdrives ▸ rfl
  | lua | call =>
      obtain ⟨m, rfl⟩ := hdrives
      rfl

/-- **One place for each execution.**  In every run in which `completeQueryWithError` makes its
test only for what the worker thread is not still completing, an accepted execution is at every
moment in exactly one place: queued, in the hands of one of the two threads, on its way to its
callback, or answered by its callback, which is so invoked once at most. -/
theorem one_callback (h : machine.Reach NoLateFallback s) {e : Execution}
    (he : e ∈ s.database.history.accepted) :
    s.database.queue.count e + s.database.workerPC.holds.count e +
      s.database.mainPC.holds.count e + s.owed.count e + s.answered.count e = 1 := by
  have hdatabase := database_noLateFallback h
  have hplace := Database.State.accounting hdatabase e
  have hledger := answered_add_owed h e
  have haccepted : s.database.history.accepted.count e = 1 :=
    List.count_eq_one_of_mem (Database.State.numbered hdatabase).nodup he
  have hforced : s.database.history.forced.count e = 0 := List.count_eq_zero.2 fun hmem =>
    (Database.State.unforced_of_reach hdatabase).forced e hmem he
  simp only [Database.History.handed, List.count_append] at hledger
  omega

/-- Two queries are started, and the second is aborted before the worker thread comes to it:
its `onAborted` is running. -/
def abortSecondRun : List Action :=
  connectSteps ++ startSteps 0 0 ++ startSteps 1 0 ++
    .call (.abort 1) :: luaSteps 1 ++ mainSteps 4 ++ luaSteps 2

theorem one_callback_abortSecondRun :
    ∃ s, machine.runIf NoLateFallback machine.init abortSecondRun = some s ∧
      s.answered = [⟨1, 1, 0⟩] ∧
      s.database.queue.count ⟨1, 1, 0⟩ + s.database.workerPC.holds.count ⟨1, 1, 0⟩ +
        s.database.mainPC.holds.count ⟨1, 1, 0⟩ + s.owed.count ⟨1, 1, 0⟩ +
        s.answered.count ⟨1, 1, 0⟩ = 1 := by
  obtain ⟨s, hs⟩ :
      ∃ s, machine.runIf NoLateFallback machine.init abortSecondRun = some s := ⟨_, rfl⟩
  have hstate : (machine.runIf NoLateFallback machine.init abortSecondRun).map (fun s =>
      (s.answered, s.database.history.accepted)) =
      some ([⟨1, 1, 0⟩], [⟨0, 0, 0⟩, ⟨1, 1, 0⟩]) := rfl
  rw [hs] at hstate
  simp only [Option.map_some, Option.some.injEq, Prod.mk.injEq] at hstate
  obtain ⟨hanswered, haccepted⟩ := hstate
  exact ⟨s, hs, hanswered, one_callback (reach_of_runIf hs) (by simp [haccepted])⟩

end State

end GmsvPg.Lua
