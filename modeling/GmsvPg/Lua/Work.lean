/-
# The work that is left on the Lua side

`think` and the loops over what an abort has completed run one callback for each execution that
reaches them, and the functions of this layer call operations of `Database`, which take steps of
their own.  The work that is left here prices an access of the threads at three: one step for the
access, and two for the entry of `finishedQueries` or of the reconnect log that it may bring,
whose callback is invoked and returns.
-/
import GmsvPg.Database.Work
import GmsvPg.Lua.Ledger

namespace GmsvPg.Database

open Library

/-! ### What is on its way to a callback -/

/-- What may yet cost a callback: the executions that are queued or in the hands of a thread,
and the reconnect events. -/
def State.tokens (s : State) : ℕ :=
  s.queue.length + s.workerPC.holds.length + s.mainPC.holds.length + s.reconnectLog.length

lemma Shared.reconnectLog_apply {s : Shared} {a : Access} (h : ∀ success, a ≠ .addReconnect success) :
    (s.apply a).reconnectLog = s.reconnectLog := by
  cases a with
  | connectSession error => cases error <;> rfl
  | addReconnect success => exact absurd rfl (h success)
  | _ => rfl

/-- An access that moves executions brings no new ones, and at most one entry. -/
lemma Access.Moves.tokens {s : Shared} {a : Access} {l p l' p' : List Execution}
    (h : a.Moves s.queue l p l' p') :
    (s.apply a).queue.length + l'.length + (s.apply a).reconnectLog.length +
        a.puts.toList.length + a.returns.length ≤
      s.queue.length + l.length + s.reconnectLog.length + 1 := by
  cases h with
  | keep hquiet =>
      rw [show (s.apply a).queue = s.queue by
        rw [Shared.queue, Shared.queue, (s.apply_quiet hquiet).1]]
      by_cases hlog : ∃ success, a = .addReconnect success
      · obtain ⟨success, rfl⟩ := hlog
        simp only [Shared.apply, List.length_append, List.length_singleton, puts, returns,
          Option.toList_none, List.length_nil]
        omega
      · rw [Shared.reconnectLog_apply fun success hsuccess => hlog ⟨success, hsuccess⟩]
        have hreturns : a.returns = [] := by
          cases a with
          | returnCompleted es => exact absurd hquiet (by simp [quiet])
          | _ => rfl
        have hputs : a.puts.toList.length ≤ 1 := by cases a.puts <;> simp
        rw [hreturns, List.length_nil]
        omega
  | @take e rest hqueue =>
      show s.queue.tail.length + _ + s.reconnectLog.length + 0 + 0 ≤ _
      rw [hqueue]
      simp only [List.tail_cons, List.length_cons, List.length_nil]
      omega
  | @remove e hmem =>
      have hle := List.length_filter_le (fun x => !decide (x = e)) s.queue
      show (s.queue.filter fun x => !decide (x = e)).length + 1 + s.reconnectLog.length + 0 + 0 ≤ _
      simp only [List.length_nil]
      omega
  | clear | close =>
      show 0 + (l ++ s.queue).length + s.reconnectLog.length + 0 + 0 ≤ _
      rw [List.length_append]
      omega
  | finish =>
      show s.queue.length + _ + s.reconnectLog.length + 1 + 0 ≤ _
      rw [List.length_cons]
      omega
  | settle =>
      show s.queue.length + _ + s.reconnectLog.length + 0 + 0 ≤ _
      omega
  | give =>
      show s.queue.length + 0 + s.reconnectLog.length + 0 + l.length ≤ _
      omega

/-- A step of a thread lowers the work, and brings one entry at most. -/
lemma State.tokens_of_step {s t : State} {a : Action} (h : Step s a t)
    (ha : a.ofThread = true) :
    t.tokens + ((s.access a).bind Access.puts).toList.length +
        ((s.access a).elim [] Access.returns).length ≤ s.tokens + 1 := by
  unfold tokens
  cases h with
  | @worker c b pc hnext =>
      have hmoves := (WorkerPC.next_moves hnext).tokens
      rw [show s.access (.worker c) = some b by simp [access, hnext]]
      show (s.toShared.apply b).queue.length + pc.holds.length + s.mainPC.holds.length +
        (s.toShared.apply b).reconnectLog.length + b.puts.toList.length + b.returns.length ≤ _
      omega
  | @main c b pc hspawn hnext =>
      rw [show s.access (.main c) = some b by simp [access, hnext]]
      show (s.toShared.apply b).queue.length + s.workerPC.holds.length + pc.holds.length +
        (s.toShared.apply b).reconnectLog.length + b.puts.toList.length + b.returns.length ≤ _
      rcases MainPC.next_moves hnext with hmoves | ⟨e, hpc, rfl, hopen, rfl⟩
      · have htokens := hmoves.tokens
        omega
      · rw [Shared.queue_put hopen, hpc]
        show (s.queue ++ [e]).length + s.workerPC.holds.length + 0 + s.reconnectLog.length + 0 + 0 ≤ _
        rw [List.length_append, List.length_singleton]
        omega
  | @spawn c hpc =>
      rw [show s.access (.main c) = some .read by
        simp [access, hpc, MainPC.next, ConnectCallStage.next]]
      show s.queue.length + 0 + 0 + s.reconnectLog.length + 0 + 0 ≤ _
      omega
  | @join c hpc hworker =>
      rw [show s.access (.main c) = none by simp [access, hpc, MainPC.next]]
      show s.queue.length + s.workerPC.holds.length + 0 + s.reconnectLog.length + 0 + 0 ≤ _
      omega
  | call | connectionLost => cases ha

end GmsvPg.Database

namespace GmsvPg.Lua

open Library
open Database (Execution Choice MainPC Access system)

/-! ### The functions of this layer -/

/-- What is left of `think` from a point on: two steps for each callback of a list. -/
def ThinkStage.rank {ε : Type} : ThinkStage ε → ℕ
  | .testConnectionDone => 10
  | .connectionCallback => 9
  | .inConnectionCallback => 8
  | .testSuccessful => 7
  | .takeReconnectEvents => 6
  | .reconnectEvents rest => 5 + 2 * rest.length
  | .inReconnectCallback rest => 6 + 2 * rest.length
  | .takeFinishedQueries => 4
  | .finishedQueries rest => 3 + 2 * rest.length
  | .inCallback _ rest => 4 + 2 * rest.length
  | .testDisconnected => 2
  | .inDisconnectedCallback => 1

/-- What is left after the loop over `completed`: `disconnect` calls `shutdown`, and may call
`think`. -/
def Frame.afterLoop : Option Bool → ℕ
  | none => 1
  | some _ => 51

/-- What is left of a function, with the operations of `Database` that it is still to call. -/
def Frame.rank : Frame → ℕ
  | .think stage _ => stage.rank
  | .beforeWait _ => 42
  | .waiting _ => 11
  | .abort todo done => 2 + 2 * done.length + 19 * todo.length
  | .abortAll disconnect => Frame.afterLoop disconnect
  | .completed rest disconnect => Frame.afterLoop disconnect + 2 * rest.length
  | .inAborted _ rest disconnect => Frame.afterLoop disconnect + 1 + 2 * rest.length
  | .disconnecting _ => 11

def Frame.stackRank : List Frame → ℕ
  | [] => 0
  | f :: below => f.rank + Frame.stackRank below

lemma Frame.stackRank_append (l l' : List Frame) :
    stackRank (l ++ l') = stackRank l + stackRank l' := by
  induction l with
  | nil => exact (Nat.zero_add _).symm
  | cons f l ih => rw [List.cons_append, stackRank, stackRank, ih, Nat.add_assoc]

lemma Frame.rank_collect (es : List Execution) (f : Frame) :
    (f.collect es).rank ≤ f.rank + 2 * es.length := by
  cases f with
  | abort todo done =>
      simp only [collect, rank, List.length_append]
      omega
  | abortAll disconnect => exact le_rfl
  | _ => exact Nat.le_add_right _ _

/-- A step that calls no operation of `Database` brings the function forward. -/
lemma Frame.Moves.rank {v : ThinkView Put} {f : Frame} {effect : Effect} {f' : Option Frame}
    (h : f.Moves v effect f') (hcalls : effect.calls = none) :
    Frame.stackRank f'.toList < f.rank := by
  cases h with
  | takeReconnectEvents | takeFinishedQueries | waitForQuery | wait | abort | disconnect =>
      exact absurd hcalls (by simp [Effect.calls])
  | _ =>
      simp only [Option.toList, Frame.stackRank, Frame.rank, ThinkStage.rank, Frame.afterLoop,
        List.length_cons, List.length_nil]
      omega

/-- The steps of the two threads, and the return of callbacks. -/
def Action.ofThread : Action → Bool
  | .worker _ | .main _ | .lua => true
  | .call _ | .connectionLost => false

/-- The steps of the network. -/
def Action.ofNetwork : Action → Bool
  | .connectionLost => true
  | _ => false

namespace State

variable {C : State → Action → Prop} {s t : State}

/-- The work that is left: no more steps of the threads follow until the next call. -/
def work (s : State) : ℕ :=
  3 * s.database.work + 2 * (s.database.tokens + s.puts.length) + Frame.stackRank s.frames

lemma length_newPuts (s : State) (b : Database.Action) :
    (s.newPuts b).length = ((s.database.access b).bind Access.puts).toList.length := by
  simp [newPuts]

lemma stackRank_afterMain {c : Choice} {pc : MainPC} {b : Access} {u : State}
    (hnext : s.database.mainPC.next s.database.toShared c = some (b, pc)) :
    Frame.stackRank (u.afterMain s.database.mainPC).frames ≤
      Frame.stackRank u.frames + 2 * b.returns.length := by
  have hcollect : ∀ es : List Execution,
      Frame.stackRank (u.frames.modifyHead (Frame.collect es)) ≤
        Frame.stackRank u.frames + 2 * es.length := by
    intro es
    cases u.frames with
    | nil => exact Nat.zero_le _
    | cons f below =>
        have hle := Frame.rank_collect es f
        show (f.collect es).rank + _ ≤ f.rank + _ + _
        omega
  unfold afterMain
  split
  · exact Nat.le_add_right _ _
  · rename_i e hpc
    rw [hpc] at hnext
    cases Option.some.inj hnext
    exact hcollect [e]
  · rename_i g hpc
    rw [hpc] at hnext
    cases Option.some.inj hnext
    exact hcollect g.completed
  · exact Nat.le_add_right _ _

/-- What the operations that this layer calls add to the work of the threads. -/
lemma work_of_calls {f : Frame} {f' : Option Frame} {effect : Effect} {m : Database.Call}
    {u : Database.State} (hnext : f.Moves s.view effect f') (hcalls : effect.calls = some m)
    (hu : system.next s.database (.call m) = some u) :
    3 * u.work + 2 * (u.tokens + if effect = .think .takeFinishedQueries then 0 else s.puts.length) +
        Frame.stackRank f'.toList <
      3 * s.database.work + 2 * (s.database.tokens + s.puts.length) + f.rank := by
  obtain ⟨hidle, hu⟩ : s.database.mainPC = .idle ∧ s.database.call m = some u := by
    simpa [system] using hu
  have hwork : s.database.work =
      s.database.workerPC.rank + 0 + Database.queueCost s.database.queue := by
    rw [Database.State.work, hidle]
    rfl
  have htokens : s.database.tokens = s.database.queue.length + s.database.workerPC.holds.length +
      0 + s.database.reconnectLog.length := by
    rw [Database.State.tokens, hidle]
    rfl
  -- the operation begins where nothing is held
  have hbegin : ∀ (pc : MainPC), pc.holds = [] → u = { s.database with mainPC := pc } →
      u.work = s.database.work + pc.rank ∧ u.tokens = s.database.tokens := by
    rintro pc hholds rfl
    rw [hwork, htokens, Database.State.work, Database.State.tokens, hholds]
    refine ⟨?_, rfl⟩
    show s.database.workerPC.rank + pc.rank + Database.queueCost s.database.queue = _
    omega
  cases hnext with
  | takeReconnectEvents =>
      obtain rfl := Option.some.inj hcalls
      obtain rfl := Option.some.inj hu
      have hevents : s.view.reconnectEvents.length = s.database.reconnectLog.length := by
        simp [view]
      have hle : (if s.view.hasTable then s.view.reconnectEvents else []).length ≤
          s.database.reconnectLog.length := by
        split
        · exact hevents.le
        · exact Nat.zero_le _
      show 3 * s.database.work + 2 * (s.database.queue.length +
        s.database.workerPC.holds.length + s.database.mainPC.holds.length + 0 + s.puts.length) +
          (5 + 2 * _ + 0) < _ + 6
      rw [hidle, htokens]
      simp only [Database.MainPC.holds, List.length_nil]
      omega
  | takeFinishedQueries =>
      obtain rfl := Option.some.inj hcalls
      obtain rfl := Option.some.inj hu
      rw [if_pos rfl]
      show 3 * s.database.work + 2 * (s.database.tokens + 0) + (3 + 2 * s.puts.length + 0) < _ + 4
      omega
  | waitForQuery =>
      obtain rfl := Option.some.inj hcalls
      obtain ⟨-, rfl⟩ := Database.callOn_eq_some hu
      obtain ⟨hw, ht⟩ := hbegin _ rfl rfl
      rw [hw, ht]
      show 3 * (s.database.work + 10) + 2 * (s.database.tokens + s.puts.length) + (11 + 0) < _ + 42
      omega
  | wait =>
      obtain rfl := Option.some.inj hcalls
      have hsame : s.database = u := by
        simp only [Database.State.call] at hu
        split at hu
        · exact Option.some.inj hu
        · cases hu
      rw [← hsame]
      show 3 * s.database.work + 2 * (s.database.tokens + s.puts.length) + (10 + 0) < _ + 11
      omega
  | @abort e todo done =>
      obtain rfl := Option.some.inj hcalls
      obtain ⟨-, rfl⟩ := Database.callOn_eq_some hu
      obtain ⟨hw, ht⟩ := hbegin _ rfl rfl
      rw [hw, ht]
      show 3 * (s.database.work + 6) + 2 * (s.database.tokens + s.puts.length) +
        (2 + 2 * done.length + 19 * todo.length + 0) < _ + (2 + 2 * done.length + 19 * (todo.length + 1))
      omega
  | @disconnect wait =>
      obtain rfl := Option.some.inj hcalls
      have hdisconnect : u.work ≤ s.database.work + 13 ∧ u.tokens = s.database.tokens := by
        simp only [Database.State.call] at hu
        split at hu
        · obtain rfl := Option.some.inj hu
          obtain ⟨hw, ht⟩ := hbegin _ rfl rfl
          exact ⟨hw.le, ht⟩
        · obtain rfl := Option.some.inj hu
          exact ⟨Nat.le_add_right _ _, rfl⟩
      obtain ⟨hw, ht⟩ := hdisconnect
      rw [ht]
      show 3 * u.work + 2 * (s.database.tokens + s.puts.length) + (11 + 0) < _ + (51 + 0)
      omega
  | _ => cases hcalls

/-- A step of the database underneath that is one of a thread lowers the work, whatever it puts
on `finishedQueries` or returns. -/
lemma work_withDatabase {b : Database.Action} {u : Database.State}
    (hu : system.next s.database b = some u) (hb : b.ofThread = true) :
    3 * u.work + 2 * (u.tokens + (s.puts ++ s.newPuts b).length +
        ((s.database.access b).elim [] Access.returns).length) <
      3 * s.database.work + 2 * (s.database.tokens + s.puts.length) := by
  have hwork := Database.State.work_lt_of_step (Database.step_of_next hu) hb
  have htokens := Database.State.tokens_of_step (Database.step_of_next hu) hb
  rw [List.length_append, length_newPuts]
  omega

lemma work_lt_of_step {a : Action} (h : Step s a t) (ha : a.ofThread = true) :
    t.work < s.work := by
  cases h with
  | @environment a b u hb hu =>
      rcases hb with ⟨c, rfl, rfl⟩ | ⟨rfl, rfl⟩
      · have hlt := work_withDatabase hu rfl
        show 3 * u.work + 2 * (u.tokens + (s.puts ++ s.newPuts (.worker c)).length) +
          Frame.stackRank s.frames < _
        unfold work
        omega
      · cases ha
  | @main c u hpc hu =>
      have hlt := work_withDatabase hu rfl
      have hframes : Frame.stackRank
          ((s.withDatabase (.main c) u).afterMain s.database.mainPC).frames ≤
          Frame.stackRank s.frames +
            2 * ((s.database.access (.main c)).elim [] Access.returns).length := by
        cases Database.step_of_next hu with
        | @main c b pc hspawn hnext =>
            rw [show s.database.access (.main c) = some b by simp [Database.State.access, hnext]]
            exact stackRank_afterMain hnext
        | spawn hspawn =>
            rw [afterMain_frames_eq (by simp [hspawn]) (by simp [hspawn])]
            exact Nat.le_add_right _ _
        | join hjoin =>
            rw [afterMain_frames_eq (by simp [hjoin]) (by simp [hjoin])]
            exact Nat.le_add_right _ _
      unfold work
      rw [afterMain_database, afterMain_puts]
      show 3 * u.work + 2 * (u.tokens + (s.puts ++ s.newPuts (.main c)).length) + _ < _
      omega
  | @lua f f' below effect t hidle hframes hnext ht =>
      have hperformed := performed ht
      unfold work
      show 3 * t.database.work + 2 * (t.database.tokens + t.puts.length) +
        Frame.stackRank (f'.toList ++ below) < _
      rw [hframes, Frame.stackRank_append, Frame.stackRank, hperformed.puts]
      cases hcalls : effect.calls with
      | none =>
          have hsame : t.database = s.database := by
            refine hperformed.database.resolve_right ?_
            rintro ⟨m, hm, -⟩
            exact absurd (hcalls.symm.trans hm) (by simp)
          have htake : effect ≠ .think .takeFinishedQueries := by
            rintro rfl
            cases hcalls
          have hrank := hnext.rank hcalls
          rw [hsame, if_neg htake]
          omega
      | some m =>
          obtain ⟨u, hu, hsame⟩ : ∃ u, system.next s.database (.call m) = some u ∧
              t.database = u := by
            cases effect with
            | think effect =>
                cases effect with
                | takeReconnectEvents | takeFinishedQueries =>
                    obtain ⟨v, hv, rfl⟩ := Option.map_eq_some_iff.1 ht
                    obtain ⟨u, hu, rfl⟩ := step_eq_some.1 hv
                    obtain rfl := Option.some.inj hcalls
                    exact ⟨u, hu, rfl⟩
                | _ => cases hcalls
            | call m' =>
                obtain ⟨u, hu, rfl⟩ := step_eq_some.1 ht
                obtain rfl := Option.some.inj hcalls
                exact ⟨u, hu, rfl⟩
            | runAborted | finishAborted => cases hcalls
          have hlt := work_of_calls hnext hcalls hu
          rw [hsame]
          split at hlt
          · rename_i htake
            rw [if_pos htake]
            simp only [List.length_nil]
            omega
          · rename_i htake
            rw [if_neg htake]
            omega
  | call => cases ha

lemma work_le_of_connectionLost {u : Database.State}
    (hu : system.next s.database .connectionLost = some u) :
    (s.withDatabase .connectionLost u).work = s.work := by
  cases Database.step_of_next hu with
  | connectionLost =>
      unfold work
      show 3 * s.database.work + 2 * (s.database.tokens + (s.puts ++ []).length) +
        Frame.stackRank s.frames = _
      rw [List.append_nil]

end State

lemma bounded : machine.Bounded Action.ofThread Action.ofNetwork State.work where
  lowers ha h := State.work_lt_of_step (step_of_next h) ha
  keeps ha h := by
    cases step_of_next h with
    | environment hb hu =>
        rcases hb with ⟨c, rfl, rfl⟩ | ⟨rfl, rfl⟩
        · cases ha
        · exact (State.work_le_of_connectionLost hu).le
    | main | lua | call => cases ha

end GmsvPg.Lua
