/-
# `query:wait(true)`

`swapToFrontIf` exchanges the first match with the front of the queue: all other elements stay
where they are, and the former front takes the place of the match.  From then on, unless
`query:wait(true)` is called again, what is queued leaves the queue in its order, so the
execution waited for is the next one the worker thread takes.
-/
import GmsvPg.Database.Order
import GmsvPg.Lua.LuaDatabase

namespace GmsvPg.Database

open Library Machine List

/-! ### What leaves the queue, in which order -/

lemma Shared.apply_taken {s : Shared} {a : Access} (h : ∀ e, a ≠ .take e) :
    (s.apply a).history.taken = s.history.taken := by
  cases a with
  | take e => exact absurd rfl (h e)
  | connectSession error => cases error <;> rfl
  | _ => rfl

namespace State

variable {C : State → Action → Prop} {s t u : State}

/-- Between `s` and `u`, `accepted` was accepted, `taken` was taken and `executeStatement` was
called for `executed`; what was taken and what is queued now was queued in this order, and
so was what was executed, what the worker thread has taken, and what is queued now. -/
structure InTurn (s u : State) (accepted taken executed : List Execution) : Prop where
  history_accepted : u.history.accepted = s.history.accepted ++ accepted
  history_taken : u.history.taken = s.history.taken ++ taken
  history_executed : u.history.executed = s.history.executed ++ executed
  queued : taken ++ u.queue <+ s.queue ++ accepted
  line : executed ++ (u.workerPC.inPhase .before ++ u.queue) <+
    s.workerPC.inPhase .before ++ (s.queue ++ accepted)

lemma InTurn.refl (s : State) : InTurn s s [] [] [] where
  history_accepted := (append_nil _).symm
  history_taken := (append_nil _).symm
  history_executed := (append_nil _).symm
  queued := by rw [append_nil, nil_append]
  line := by rw [append_nil, nil_append]

lemma InTurn.trans {a a' b b' c c' : List Execution} (h : InTurn s t a b c)
    (h' : InTurn t u a' b' c') : InTurn s u (a ++ a') (b ++ b') (c ++ c') where
  history_accepted := by rw [h'.history_accepted, h.history_accepted, append_assoc]
  history_taken := by rw [h'.history_taken, h.history_taken, append_assoc]
  history_executed := by rw [h'.history_executed, h.history_executed, append_assoc]
  queued := by
    have h1 : b ++ (b' ++ u.queue) <+ b ++ (t.queue ++ a') := (Sublist.refl b).append h'.queued
    have h2 : b ++ t.queue ++ a' <+ s.queue ++ a ++ a' := h.queued.append (Sublist.refl a')
    rw [← append_assoc] at h1
    rw [append_assoc] at h2
    rw [append_assoc b, ← append_assoc s.queue]
    exact (append_assoc b b' _ ▸ h1).trans h2
  line := by
    have h1 := (Sublist.refl c).append h'.line
    have h2 := h.line.append (Sublist.refl a')
    simp only [append_assoc] at h1 h2 ⊢
    exact h1.trans h2

/-- A step that leaves the records alone, and of the queue and of what was taken leaves a
part in the same order. -/
lemma InTurn.of_sublist (haccepted : t.history.accepted = s.history.accepted)
    (htaken : t.history.taken = s.history.taken)
    (hexecuted : t.history.executed = s.history.executed) (hqueue : t.queue <+ s.queue)
    (hbefore : t.workerPC.inPhase .before <+ s.workerPC.inPhase .before) :
    InTurn s t [] [] [] where
  history_accepted := by rw [append_nil, haccepted]
  history_taken := by rw [append_nil, htaken]
  history_executed := by rw [append_nil, hexecuted]
  queued := by
    rw [append_nil, nil_append]
    exact hqueue
  line := by
    rw [append_nil, nil_append]
    exact hbefore.append hqueue

lemma inTurn_stepWorker {c : Choice} {a : Access} {pc : WorkerPC}
    (h : s.workerPC.next s.toShared c = some (a, pc)) :
    ∃ taken executed, InTurn s (s.stepWorker a pc) [] taken executed := by
  have hmoves := WorkerPC.next_moves h
  have haccepted : (s.stepWorker a pc).history.accepted = s.history.accepted :=
    Shared.apply_accepted hmoves
  have hqueue : (s.stepWorker a pc).queue <+ s.queue :=
    Shared.queue_apply_sublist hmoves.ne_put
  by_cases htake : ∃ e, a = .take e
  · obtain ⟨e, rfl⟩ := htake
    -- the front of the queue is what the worker thread has taken
    obtain ⟨hpc, rfl, rest, hrest⟩ := WorkerPC.next_take h
    have htail : (s.stepWorker (.take e) (.running e .setInFlight)).queue = rest := by
      show s.queue.tail = rest
      rw [hrest, tail_cons]
    refine ⟨[e], [], by rw [append_nil, haccepted], rfl, (append_nil _).symm, ?_, ?_⟩
    · rw [htail, hrest, append_nil]
      exact Sublist.refl _
    · rw [htail, hrest, hpc, append_nil]
      exact Sublist.refl _
  · have htaken : (s.stepWorker a pc).history.taken = s.history.taken :=
      Shared.apply_taken fun e he => htake ⟨e, he⟩
    rcases WorkerPC.next_inPhase h with ⟨e, rest, rfl, -⟩ | ⟨e, rfl, hpc, hbefore, -⟩ |
      ⟨e, rfl, h1, h2, -⟩ | ⟨ha, hbefore, -⟩
    · exact absurd ⟨e, rfl⟩ htake
    · refine ⟨[], [e], by rw [append_nil, haccepted], by rw [append_nil, htaken], rfl, ?_, ?_⟩
      · rw [append_nil, nil_append]
        exact hqueue
      · have hbefore : (s.stepWorker (.execute e) pc).workerPC.inPhase .before = [] := hbefore
        rw [hbefore, hpc, append_nil, nil_append]
        exact (Sublist.refl [e]).append hqueue
    · refine ⟨[], [], .of_sublist haccepted htaken rfl hqueue ?_⟩
      show pc.inPhase .before <+ _
      rw [h2]
      exact nil_sublist _
    · exact ⟨[], [], .of_sublist haccepted htaken (Shared.apply_statement ha).1 hqueue hbefore⟩

/-- A step other than `swapQueryToFront`. -/
lemma inTurn_step {a : Action} (hr : system.Reach C s) (h : Step s a t)
    (hswap : ∀ e, a ≠ .call (.swapToFront e)) :
    ∃ accepted taken executed, InTurn s t accepted taken executed := by
  cases h with
  | worker hnext =>
      obtain ⟨taken, executed, h⟩ := inTurn_stepWorker hnext
      exact ⟨[], taken, executed, h⟩
  | @main c a pc hspawn hnext =>
      have htaken : (s.stepMain a pc).history.taken = s.history.taken := by
        refine Shared.apply_taken fun e he => ?_
        subst he
        exact absurd (MainPC.next_ofRun hnext) (by simp [Access.ofRun])
      have hexecuted : (s.stepMain a pc).history.executed = s.history.executed :=
        (Shared.apply_statement (MainPC.next_ofStatement hnext)).1
      rcases MainPC.next_moves hnext with hmoves | ⟨e, hpc, rfl, hclosed, rfl⟩
      · exact ⟨[], [], [], .of_sublist (Shared.apply_accepted hmoves) htaken hexecuted
          (Shared.queue_apply_sublist hmoves.ne_put) (Sublist.refl _)⟩
      · -- `put` appends what it accepts
        have hqueue : (s.stepMain (.put e) .idle).queue = s.queue ++ [e] := Shared.queue_put hclosed
        refine ⟨[e], [], [], rfl, by rw [append_nil, htaken], by rw [append_nil, hexecuted], ?_, ?_⟩
        · rw [hqueue]
          exact Sublist.refl _
        · rw [hqueue]
          exact Sublist.refl _
  | spawn hpc =>
      have hworker : s.workerPC = .notStarted :=
        ((startedOnce hr).connecting _ hpc (by simp) (by simp)).1
      refine ⟨[], [], [], .of_sublist rfl rfl rfl (Sublist.refl _) ?_⟩
      rw [hworker]
      exact Sublist.refl _
  | join hpc hworker => exact ⟨[], [], [], .of_sublist rfl rfl rfl (Sublist.refl _) (Sublist.refl _)⟩
  | call hidle hcall =>
      refine ⟨[], [], [], ?_⟩
      cases hcall with
      | @swapToFront e => exact absurd rfl (hswap e)
      | _ => exact .of_sublist rfl rfl rfl (Sublist.refl _) (Sublist.refl _)
  | connectionLost =>
      exact ⟨[], [], [], .of_sublist rfl rfl rfl (Sublist.refl _) (Sublist.refl _)⟩

end State

end GmsvPg.Database

namespace GmsvPg.Lua

open Library Machine List
open Database (Execution system)
open Database.State (InTurn inTurn_step)

/-! ### The call, and what follows it -/

namespace State

variable {C : State → Action → Prop} {s t u : State} {a : Action}

lemma queue_nodup (h : machine.Reach C s) : s.database.queue.Nodup := by
  have hdatabase := database_reachable h
  have haccepted := (Database.State.numbered hdatabase).nodup
  exact Multiset.coe_nodup.1
    ((Database.State.handoff_valid hdatabase).queue_nodup (Multiset.coe_nodup.2 haccepted))

/-- `query:wait(true)` on a queued execution does not throw. -/
lemma next_waitQuery (hr : machine.Reach C s) {query : ℕ} {e : Execution}
    (he : s.lastRunning query = some e) {xs ys : List Execution}
    (hqueue : s.database.queue = xs ++ e :: ys)
    (h : machine.next s (.call (.waitQuery query true)) = some t) :
    t.frames = .beforeWait e :: s.frames ∧
      t.database.queue = BlockingQueue.exchanged xs e ys := by
  have hmem : e ∈ s.database.queue := by
    rw [hqueue]
    exact mem_append_right xs mem_cons_self
  have hstatus : (s.database.own e).status = .waiting :=
    ((Database.State.fresh_of_reach (database_reachable hr)).queued e hmem).2
  cases step_of_next h with
  | environment hb => exact absurd hb (by simp)
  | call hidle huser hcall =>
      simp only [call, he, hstatus, reduceCtorEq, if_false, if_true] at hcall
      obtain ⟨v, hv, rfl⟩ := Option.map_eq_some_iff.1 hcall
      obtain ⟨u, hu, rfl⟩ := step_eq_some.1 hv
      have hnotMem : e ∉ xs := by
        have hnodup := queue_nodup hr
        rw [hqueue, nodup_middle, nodup_cons] at hnodup
        exact fun hxs => hnodup.1 (mem_append_left ys hxs)
      simp only [system, if_pos hidle] at hu
      obtain ⟨-, rfl⟩ := Database.callOn_eq_some hu
      refine ⟨rfl, BlockingQueue.swapToFrontIf_eq hqueue (fun y hy => ?_) (by simp)⟩
      exact decide_eq_false fun heq => hnotMem (heq ▸ hy)

/-- What calls `swapQueryToFront`. -/
lemma step_swapToFront (h : machine.next s a = some t)
    (hswap : ∀ query, a ≠ .call (.waitQuery query true)) :
    t.database = s.database ∨
      ∃ b, system.next s.database b = some t.database ∧ ∀ e, b ≠ .call (.swapToFront e) := by
  cases step_of_next h with
  | environment hb hdatabase =>
      refine .inr ⟨_, hdatabase, fun e he => ?_⟩
      subst he
      exact absurd hb (by simp)
  | main hpc hdatabase =>
      rw [afterMain_database]
      exact .inr ⟨_, hdatabase, fun e => by simp⟩
  | lua hidle hframes hnext hu =>
      refine (performed hu).database.imp_right ?_
      rintro ⟨m, hcalls, hdatabase⟩
      refine ⟨_, hdatabase, fun e he => ?_⟩
      obtain rfl : m = .swapToFront e := by simpa using he
      cases hnext <;> simp [Effect.calls] at hcalls
  | @call f t hidle huser hcall =>
      by_cases hwait : ∃ query shouldSwap, f = .waitQuery query shouldSwap
      · obtain ⟨query, shouldSwap, rfl⟩ := hwait
        have hfalse : shouldSwap = false := by
          cases shouldSwap with
          | true => exact absurd rfl (hswap query)
          | false => rfl
        simp only [call, hfalse] at hcall
        split at hcall
        · exact .inl (congrArg database (Option.some.inj hcall)).symm
        · split at hcall
          · exact .inl (congrArg database (Option.some.inj hcall)).symm
          · exact .inl (congrArg database (Option.some.inj hcall)).symm
      · cases callStep_of_call hcall with
        | begin hdatabase hf hframes =>
            refine .inr ⟨_, hdatabase, fun e he => ?_⟩
            obtain rfl := Database.Action.call.inj he
            rcases hframes with ⟨-, hdirect⟩ | ⟨d, habort, -⟩
            · exact absurd hdirect (by simp [Database.Call.direct])
            · exact absurd habort (by simp)
        | connect hdatabase => exact .inr ⟨_, hdatabase, fun e => by simp⟩
        | start hdatabase => exact .inr ⟨_, hdatabase, fun e => by simp⟩
        | @waitQuery query shouldSwap => exact absurd ⟨query, shouldSwap, rfl⟩ hwait
        | enter | throw => exact .inl rfl

lemma inTurn_of_run (hr : machine.Reachable s) {as : List Action}
    (hswap : ∀ a ∈ as, ∀ query, a ≠ .call (.waitQuery query true))
    (h : machine.run s as = some u) :
    ∃ accepted taken executed, InTurn s.database u.database accepted taken executed := by
  induction as generalizing s with
  | nil =>
      obtain rfl : s = u := by simpa [run] using h
      exact ⟨_, _, _, .refl _⟩
  | cons a as ih =>
      obtain ⟨t, ht, hu⟩ := Option.bind_eq_some_iff.1 h
      obtain ⟨accepted', taken', executed', hrest⟩ :=
        ih (.step hr trivial ht) (fun b hb => hswap b (mem_cons_of_mem a hb)) hu
      rcases step_swapToFront ht (hswap a mem_cons_self) with hsame | ⟨b, hb, hne⟩
      · rw [hsame] at hrest
        exact ⟨_, _, _, hrest⟩
      · obtain ⟨accepted, taken, executed, hstep⟩ :=
          inTurn_step (database_reachable hr) (Database.step_of_next hb) hne
        exact ⟨_, _, _, hstep.trans hrest⟩

/-- What was at the front when nothing was yet taken leaves the queue before the rest. -/
lemma head_of_inTurn (ht : machine.Reachable t) (hu : machine.Reachable u) {e : Execution}
    {rest accepted taken executed : List Execution} (hqueue : t.database.queue = e :: rest)
    (h : InTurn t.database u.database accepted taken executed)
    (he : e ∈ taken ++ u.database.queue) : (taken ++ u.database.queue).head? = some e := by
  have hrest : e ∉ rest := by
    have hnodup := queue_nodup ht
    rw [hqueue] at hnodup
    exact (nodup_cons.1 hnodup).1
  have haccepted : e ∉ accepted := by
    have hmem : e ∈ t.database.history.accepted := by
      have hline := (Database.State.line_subperm_accepted (database_reachable ht)).subset
      refine hline (mem_append_right _ (mem_append_right _ ?_))
      rw [hqueue]
      exact mem_cons_self
    have hnodup := (Database.State.numbered (database_reachable hu)).nodup
    rw [h.history_accepted] at hnodup
    exact fun hmem' => disjoint_of_nodup_append hnodup hmem hmem'
  have hsub := h.queued
  rw [hqueue, cons_append] at hsub
  rcases sublist_cons_iff.1 hsub with hsub | ⟨l, hl, -⟩
  · exact absurd (hsub.subset he) (by simp [hrest, haccepted])
  · rw [hl, head?_cons]

end State

/-- **`query:wait(true)`.**  `swapToFrontIf` permutes the queue and exchanges the first match
with the front; everything else keeps its place.  After `query:wait(true)` on a queued
execution, and unless it is called again, what is taken and what is executed comes in the
order of that queue, followed by what is accepted later; and the execution waited for is the
first that is taken, unless it leaves the queue in another way. -/
theorem swapToFront_order :
    (∀ (α : Type) (q : BlockingQueue α) (func : α → Bool),
      (∃ x ∈ q.backingQueue, func x = true) →
      ∃ xs m ys, q.backingQueue = xs ++ m :: ys ∧ (∀ x ∈ xs, func x = false) ∧ func m = true ∧
        (q.swapToFrontIf func).1.backingQueue = BlockingQueue.exchanged xs m ys ∧
        (q.swapToFrontIf func).1.backingQueue ~ q.backingQueue ∧
        (q.swapToFrontIf func).1.backingQueue.head? = some m ∧
        xs.tail ++ ys <+ (q.swapToFrontIf func).1.backingQueue) ∧
    ∀ (s t : State) (query : ℕ) (e : Execution), machine.Reachable s →
      s.lastRunning query = some e → e ∈ s.database.queue →
      machine.next s (.call (.waitQuery query true)) = some t →
      ∃ xs ys, s.database.queue = xs ++ e :: ys ∧
        t.database.queue = BlockingQueue.exchanged xs e ys ∧
        t.frames = .beforeWait e :: s.frames ∧
        ∀ (as : List Action) (u : State),
          (∀ a ∈ as, ∀ query, a ≠ .call (.waitQuery query true)) → machine.run t as = some u →
          ∃ accepted taken executed, InTurn t.database u.database accepted taken executed ∧
            (e ∈ taken ++ u.database.queue → (taken ++ u.database.queue).head? = some e) := by
  refine ⟨fun α q func hmatch => ?_, fun s t query e hr he hmem h => ?_⟩
  · obtain ⟨m, hm, xs, ys, hqueue, hxs⟩ :
        ∃ m, func m = true ∧ ∃ xs ys, q.backingQueue = xs ++ m :: ys ∧ ∀ x ∈ xs, func x = false := by
      obtain ⟨m, hfind⟩ := Option.isSome_iff_exists.1 (find?_isSome.2 hmatch)
      exact ⟨m, by simpa using find?_eq_some_iff_append.1 hfind⟩
    have heq := BlockingQueue.swapToFrontIf_eq hqueue hxs hm
    refine ⟨xs, m, ys, hqueue, hxs, hm, heq, BlockingQueue.swapToFrontIf_perm q func, ?_, ?_⟩
    · obtain ⟨rest, hrest⟩ := BlockingQueue.exchanged_eq_cons xs m ys
      rw [heq, hrest, head?_cons]
    · rw [heq]
      exact BlockingQueue.tail_append_sublist_exchanged xs m ys
  · obtain ⟨xs, ys, hqueue⟩ := append_of_mem hmem
    obtain ⟨hframes, hexchanged⟩ := State.next_waitQuery hr he hqueue h
    refine ⟨xs, ys, hqueue, hexchanged, hframes, fun as u hswap hu => ?_⟩
    have ht : machine.Reachable t := .step hr trivial h
    obtain ⟨accepted, taken, executed, hturn⟩ := State.inTurn_of_run ht hswap hu
    obtain ⟨rest, hrest⟩ := BlockingQueue.exchanged_eq_cons xs e ys
    exact ⟨accepted, taken, executed, hturn,
      State.head_of_inTurn ht (Reach.of_run ht hu) (hexchanged.trans hrest) hturn⟩

/-- Three executions are queued. -/
def queuedRun : List Action :=
  connectSteps ++ connectedSteps ++ startSteps 0 0 ++ startSteps 1 0 ++ startSteps 2 0

set_option maxRecDepth 4000 in
theorem swapToFront_order_queuedRun :
    ∃ s t u, machine.run machine.init queuedRun = some s ∧
      machine.next s (.call (.waitQuery 2 true)) = some t ∧
      machine.run t executeSteps = some u ∧
      ∃ accepted taken executed, InTurn t.database u.database accepted taken executed ∧
        (taken ++ u.database.queue).head? = some ⟨2, 2, 0⟩ := by
  have hend : ((machine.run machine.init queuedRun).bind fun s =>
      (machine.next s (.call (.waitQuery 2 true))).bind fun t =>
        (machine.run t executeSteps).map fun u =>
          ((s.lastRunning 2, s.database.queue), t.database.history.taken,
            u.database.history.taken)) =
      some ((some ⟨2, 2, 0⟩, [⟨0, 0, 0⟩, ⟨1, 1, 0⟩, ⟨2, 2, 0⟩]), [], [⟨2, 2, 0⟩]) := rfl
  obtain ⟨s, hs, hend⟩ := Option.bind_eq_some_iff.1 hend
  obtain ⟨t, ht, hend⟩ := Option.bind_eq_some_iff.1 hend
  obtain ⟨u, hu, hend⟩ := Option.map_eq_some_iff.1 hend
  simp only [Prod.mk.injEq] at hend
  obtain ⟨⟨he, hqueue⟩, htaken, htaken'⟩ := hend
  obtain ⟨xs, ys, -, -, -, hlater⟩ := swapToFront_order.2 s t 2 ⟨2, 2, 0⟩ (reachable_of_run hs) he
    (by rw [hqueue]; decide) ht
  obtain ⟨accepted, taken, executed, hturn, hhead⟩ := hlater executeSteps u
    (by simp [executeSteps, workerSteps]) hu
  refine ⟨s, t, u, hs, ht, hu, accepted, taken, executed, hturn, hhead ?_⟩
  have hmem : taken = [⟨2, 2, 0⟩] := by
    have h := hturn.history_taken
    rw [htaken, htaken'] at h
    exact h.symm
  rw [hmem]
  exact mem_cons_self

set_option maxRecDepth 4000 in
/-- The front of the queue is overtaken by what was started after it. -/
theorem front_overtaken :
    (¬ ∀ (q : BlockingQueue ℕ) (func : ℕ → Bool) (xs : List ℕ) (m : ℕ) (ys : List ℕ),
      q.backingQueue = xs ++ m :: ys → (∀ x ∈ xs, func x = false) → func m = true →
        xs ++ ys <+ (q.swapToFrontIf func).1.backingQueue) ∧
    ((machine.run machine.init (queuedRun ++ [.call (.waitQuery 2 true)] ++ executeSteps ++
      executeSteps ++ executeSteps)).map fun u =>
        (u.database.history.accepted.map (·.query), u.database.history.executed.map (·.query))) =
      some ([0, 1, 2], [2, 1, 0]) := by
  refine ⟨fun h => ?_, rfl⟩
  have hsub := h ⟨[0, 1, 2], false⟩ (fun x => decide (x = 2)) [0, 1] 2 [] rfl (by decide) (by decide)
  exact absurd hsub (by decide)

end GmsvPg.Lua
