/-
# The callbacks of the connection's life

`onConnected` and `onConnectionFailed` are guarded by `m_dbCallbackRan`, which is set before
the callback is invoked: they are invoked once in all.  `onDisconnected` is guarded by
`m_tableReference`, which is released after the callback has returned, and which `connect`
takes again before it finds that it has to refuse.  So `onDisconnected` is invoked once unless
`think` gets to it inside its own invocation, or `connect` is called after it.
-/
import GmsvPg.Lua.LuaDatabase
import GmsvPg.Database.Publication

namespace GmsvPg.Lua

open Library Machine
open Database (Execution Thread Choice MainPC system)

/-! ### `onConnected` and `onConnectionFailed` -/

/-- A callback that tells the outcome of connecting. -/
def Callback.isConnection : Callback → Bool
  | .database .onConnected | .database .onConnectionFailed => true
  | _ => false

/-- `think` has set `m_dbCallbackRan` and is about to invoke the callback. -/
def Frame.atConnection : Frame → Bool
  | .think .connectionCallback _ => true
  | _ => false

/-- `onDisconnected` is running. -/
def Frame.inDisconnected : Frame → Bool
  | .think .inDisconnectedCallback _ => true
  | _ => false

lemma Frame.atConnection_collect (es : List Execution) (f : Frame) :
    (f.collect es).atConnection = f.atConnection := by
  cases f <;> rfl

lemma Frame.inDisconnected_collect (es : List Execution) (f : Frame) :
    (f.collect es).inDisconnected = f.inDisconnected := by
  cases f <;> rfl

lemma countP_modifyHead_collect {p : Frame → Bool}
    (hp : ∀ es f, p (f.collect es) = p f) (es : List Execution) (frames : List Frame) :
    (frames.modifyHead (Frame.collect es)).countP p = frames.countP p := by
  cases frames with
  | nil => rfl
  | cons f below => simp [List.countP_cons, hp]

lemma State.countP_afterMain {p : Frame → Bool} (hp : ∀ es f, p (f.collect es) = p f)
    (s : State) (pc : MainPC) : (s.afterMain pc).frames.countP p = s.frames.countP p := by
  rcases s.afterMain_frames pc with hframes | ⟨es, hframes⟩
  · rw [hframes]
  · rw [hframes, countP_modifyHead_collect hp]

/-- The connection callback is invoked from a point that is reached by setting
`m_dbCallbackRan`. -/
lemma Frame.Moves.connection_le {v : ThinkView Put} {f : Frame} {effect : Effect}
    {f' : Option Frame} (h : f.Moves v effect f') :
    effect.callback.toList.countP Callback.isConnection + f'.toList.countP atConnection ≤
        [f].countP atConnection + (decide (effect = .think .setCallbackRan)).toNat ∧
      (effect = .think .setCallbackRan → v.dbCallbackRan = false) := by
  cases h with
  | announce hdone hran htable => simp [Effect.callback, atConnection, hran]
  | connection =>
      cases hsuccess : v.connectionSuccessful <;>
        simp [Effect.callback, atConnection, Callback.isConnection]
  | @event event rest w =>
      cases hevent : event.success <;>
        simp [ReconnectEvent.callback, hevent, Effect.callback, atConnection,
          Callback.isConnection]
  | _ => simp [Effect.callback, atConnection, Callback.isConnection]

namespace State

variable {C : State → Action → Prop} {s : State}

/-- The callbacks that tell the outcome of connecting, with the one about to be invoked. -/
def connectionCallbacks (s : State) : ℕ :=
  s.invoked.countP Callback.isConnection + s.frames.countP Frame.atConnection

theorem connectionCallbacks_le (h : machine.Reach C s) :
    s.connectionCallbacks ≤ s.dbCallbackRan.toNat := by
  refine machine_invariant (I := fun s => s.connectionCallbacks ≤ s.dbCallbackRan.toNat)
    (Nat.le_refl 0) (fun s t a _ hI _ hstep => ?_) h
  unfold connectionCallbacks at hI ⊢
  cases hstep with
  | environment => exact hI
  | main hpc hdatabase =>
      rw [countP_afterMain Frame.atConnection_collect, afterMain_invoked, afterMain_dbCallbackRan]
      exact hI
  | @lua f f' below effect t hidle hframes hnext ht =>
      obtain ⟨hle, hran⟩ := hnext.connection_le
      have hperformed := performed ht
      rw [hframes, ← List.singleton_append, List.countP_append] at hI
      show t.invoked.countP _ + (f'.toList ++ below).countP _ ≤ t.dbCallbackRan.toNat
      rw [hperformed.invoked, hperformed.dbCallbackRan, List.countP_append, List.countP_append]
      by_cases heffect : effect = .think .setCallbackRan
      · have hfalse : s.dbCallbackRan = false := hran heffect
        simp only [heffect, hfalse, decide_true, Bool.or_true, Bool.toNat_true,
          Bool.toNat_false] at hle hI ⊢
        omega
      · simp only [heffect, decide_false, Bool.or_false, Bool.toNat_false] at hle ⊢
        omega
  | call hidle huser hcall =>
      cases callStep_of_call hcall with
      | begin hdatabase hf hframes =>
          rcases hframes with ⟨rfl, -⟩ | ⟨d, rfl, rfl⟩
          · exact hI
          · simpa [Frame.atConnection] using hI
      | waitQuery he hdatabase => simpa [Frame.atConnection] using hI
      | enter henter =>
          rcases henter with rfl | rfl | ⟨query, -, rfl⟩ <;>
            simpa [push, Frame.atConnection] using hI
      | connect | start | throw => exact hI

end State

/-! ### `onDisconnected` -/

/-- `think` invokes `onDisconnected` inside its own invocation, or `connect` takes a reference
to the table again after `onDisconnected` has released it. -/
def State.rearms (s : State) : Action → Bool
  | .lua =>
      match s.frames with
      | .think .testDisconnected _ :: below =>
          s.database.disconnected && s.tableReference && below.any Frame.inDisconnected
      | _ => false
  | .call .connect => !s.tableReference && s.database.disconnected
  | _ => false

/-- The condition on a step under which `onDisconnected` is invoked once. -/
def StaysDisarmed (s : State) (a : Action) : Prop := s.rearms a = false

instance (s : State) (a : Action) : Decidable (StaysDisarmed s a) :=
  inferInstanceAs (Decidable (_ = false))

lemma any_modifyHead_collect (es : List Execution) (frames : List Frame) :
    (frames.modifyHead (Frame.collect es)).any Frame.inDisconnected =
      frames.any Frame.inDisconnected := by
  cases frames with
  | nil => rfl
  | cons f below => simp [Frame.inDisconnected_collect]

/-- When `onDisconnected` returns, the table is released. -/
lemma Frame.Moves.freeTable_of_inDisconnected {v : ThinkView Put} {f : Frame} {effect : Effect}
    {f' : Option Frame} (h : f.Moves v effect f') (hf : f.inDisconnected = true) :
    effect = .think .freeTable := by
  cases h with
  | disconnectedReturn => rfl
  | _ => exact absurd hf (by simp [Frame.inDisconnected])

namespace State

variable {s : State}

/-- `onDisconnected` has been invoked at most once, after `disconnected` was set; it is running
still, or the table has been released. -/
structure Disarmed (s : State) : Prop where
  count : s.invoked.count (.database .onDisconnected) ≤ 1
  after : .database .onDisconnected ∈ s.invoked →
    s.database.disconnected = true ∧
      (s.frames.any Frame.inDisconnected = true ∨ s.tableReference = false)

/-- Once set, `disconnected` stays set. -/
lemma disconnected_of_step {t : State} {a : Action} {C : State → Action → Prop}
    (hr : machine.Reach C s) (h : Step s a t) (hs : s.database.disconnected = true) :
    t.database.disconnected = true := by
  rcases h.database with hsame | ⟨b, -, hb⟩
  · rw [hsame]
    exact hs
  · exact Database.State.disconnected_of_step (database_reachable hr)
      (Database.step_of_next hb) hs

/-- A step that does not invoke `onDisconnected` and takes no reference to a released table. -/
lemma Disarmed.keep {t : State} (hI : s.Disarmed)
    (hcount : t.invoked.count (.database .onDisconnected) =
      s.invoked.count (.database .onDisconnected))
    (hdisconnected : s.database.disconnected = true → t.database.disconnected = true)
    (hguard : s.database.disconnected = true →
      s.frames.any Frame.inDisconnected = true ∨ s.tableReference = false →
      t.frames.any Frame.inDisconnected = true ∨ t.tableReference = false) : t.Disarmed := by
  refine ⟨hcount ▸ hI.count, fun hmem => ?_⟩
  have hmem : Callback.database .onDisconnected ∈ s.invoked := by
    rw [← List.count_pos_iff] at hmem ⊢
    exact hcount ▸ hmem
  obtain ⟨hset, hreleased⟩ := hI.after hmem
  exact ⟨hdisconnected hset, hguard hset hreleased⟩

theorem disarmed_of_reach (h : machine.Reach StaysDisarmed s) : s.Disarmed := by
  refine machine_invariant (I := Disarmed) ⟨by simp, by simp⟩
    (fun s t a hr hI hC hstep => ?_) h
  have hflag := disconnected_of_step hr hstep
  cases hstep with
  | environment => exact hI.keep rfl hflag fun _ hg => hg
  | main hpc hdatabase =>
      refine hI.keep (by rw [afterMain_invoked]; rfl) hflag fun _ hg => ?_
      rw [afterMain_tableReference]
      rcases afterMain_frames (s := s.withDatabase _ _) s.database.mainPC with hframes | ⟨es, hframes⟩
      · rw [hframes]
        exact hg
      · rw [hframes, any_modifyHead_collect]
        exact hg
  | @lua f f' below effect t hidle hframes hnext ht =>
      have hperformed := performed ht
      by_cases hcallback : effect.callback = some (.database .onDisconnected)
      · obtain ⟨g, rfl, hinvokes⟩ := hnext.invokes hcallback
        obtain ⟨waited, rfl, rfl, hset, htable⟩ :
            ∃ waited, f = .think .testDisconnected waited ∧
              g = .think .inDisconnectedCallback waited ∧ s.database.disconnected = true ∧
                s.tableReference = true := by
          generalize hc : Callback.database .onDisconnected = c at hinvokes
          cases hinvokes with
          | disconnected hdisconnected htable => exact ⟨_, rfl, rfl, hdisconnected, htable⟩
          | connection => split at hc <;> exact absurd hc (by simp)
          | @reconnect event => 
              unfold ReconnectEvent.callback at hc
              split at hc <;> exact absurd hc (by simp)
          | finished | aborted => exact absurd hc (by simp)
        -- it has not been invoked before
        have hfirst : Callback.database .onDisconnected ∉ s.invoked := by
          intro hmem
          rcases (hI.after hmem).2 with hrunning | hreleased
          · have hbelow : below.any Frame.inDisconnected = true := by
              simpa [hframes, Frame.inDisconnected] using hrunning
            exact absurd hC (by simp [StaysDisarmed, rearms, hframes, hset, htable, hbelow])
          · exact absurd (htable.symm.trans hreleased) (by simp)
        refine ⟨?_, fun _ => ⟨hflag hset, .inl (by simp [Frame.inDisconnected])⟩⟩
        show t.invoked.count _ ≤ 1
        rw [hperformed.invoked, hcallback, List.count_append, List.count_eq_zero.2 hfirst]
        simp
      · refine hI.keep ?_ hflag fun _ hg => ?_
        · show t.invoked.count _ = _
          rw [hperformed.invoked, List.count_append]
          cases hc : effect.callback with
          | none => simp
          | some c =>
              have hne : c ≠ .database .onDisconnected := fun heq => hcallback (heq ▸ hc)
              simp [hne]
        · show (f'.toList ++ below).any _ = true ∨ t.tableReference = false
          rw [hperformed.tableReference]
          rcases hg with hrunning | hreleased
          · rw [hframes, List.any_cons, Bool.or_eq_true] at hrunning
            rcases hrunning with hf | hbelow
            · exact .inr (by simp [hnext.freeTable_of_inDisconnected hf])
            · exact .inl (by simp only [List.any_append, hbelow, Bool.or_true])
          · exact .inr (by simp [hreleased])
  | call hidle huser hcall =>
      cases callStep_of_call hcall with
      | begin hdatabase hf hframes =>
          refine hI.keep rfl hflag fun _ hg => hg.imp_left fun hany => ?_
          simp only [List.any_append, hany, Bool.or_true]
      | connect hdatabase =>
          refine hI.keep rfl hflag fun hset hg => ?_
          -- the table has not been released
          have htable : s.tableReference = true := by
            simpa [StaysDisarmed, rearms, hset] using hC
          rcases hg with hrunning | hreleased
          · exact .inl hrunning
          · exact absurd (htable.symm.trans hreleased) (by simp)
      | start => exact hI.keep rfl hflag fun _ hg => hg
      | waitQuery | enter =>
          refine hI.keep rfl hflag fun _ hg => hg.imp_left fun hany => ?_
          simp only [push, List.any_cons, hany, Bool.or_true]
      | throw => exact hI

end State

/-- **The callbacks of the connection's life are invoked once**, in every run in which `think`
does not invoke `onDisconnected` inside its own invocation and `connect` is not called after
it: `onConnected` and `onConnectionFailed` once in all, `onDisconnected` once, and that only
after the worker thread has set `disconnected`. -/
theorem lifecycle_callbacks_once {s : State} (h : machine.Reach StaysDisarmed s) :
    s.invoked.countP Callback.isConnection ≤ 1 ∧
      s.invoked.count (.database .onDisconnected) ≤ 1 ∧
      (.database .onDisconnected ∈ s.invoked → s.database.disconnected = true) := by
  have hdisarmed := State.disarmed_of_reach h
  refine ⟨?_, hdisarmed.count, fun hmem => (hdisarmed.after hmem).1⟩
  calc s.invoked.countP Callback.isConnection
    _ ≤ s.connectionCallbacks := Nat.le_add_right _ _
    _ ≤ s.dbCallbackRan.toNat := State.connectionCallbacks_le h
    _ ≤ 1 := Bool.toNat_le _

/-- The connection is made and left, and the callbacks tell it. -/
def disconnectedRun : List Action :=
  connectSteps ++ connectedSteps ++ [.call (.disconnect true)] ++ mainSteps 4 ++ luaSteps 1 ++
    mainSteps 7 ++ workerSteps 5 ++ mainSteps 1 ++ luaSteps 11

theorem lifecycle_callbacks_once_disconnectedRun :
    ∃ s, machine.runIf StaysDisarmed machine.init disconnectedRun = some s ∧
      s.invoked = [.database .onConnected, .database .onDisconnected] ∧
      s.invoked.countP Callback.isConnection ≤ 1 ∧
      s.invoked.count (.database .onDisconnected) ≤ 1 ∧
      (.database .onDisconnected ∈ s.invoked → s.database.disconnected = true) := by
  obtain ⟨s, hs⟩ : ∃ s, machine.runIf StaysDisarmed machine.init disconnectedRun = some s :=
    ⟨_, rfl⟩
  have hinvoked : (machine.runIf StaysDisarmed machine.init disconnectedRun).map (·.invoked) =
      some [.database .onConnected, .database .onDisconnected] := rfl
  have hinvoked : s.invoked = [.database .onConnected, .database .onDisconnected] := by
    simpa [hs] using hinvoked
  exact ⟨s, hs, hinvoked, lifecycle_callbacks_once (reach_of_runIf hs)⟩

/-- `connect` is called again, and refuses. -/
def connectAgainRun : List Action :=
  disconnectedRun ++ [.call .connect] ++ mainSteps 2 ++ [.call .think] ++ luaSteps 6

/-- Without the condition `onDisconnected` can be invoked again. -/
theorem onDisconnected_twice :
    ¬ ∀ s, machine.Reachable s →
      s.invoked.countP Callback.isConnection ≤ 1 ∧
        s.invoked.count (.database .onDisconnected) ≤ 1 ∧
        (.database .onDisconnected ∈ s.invoked → s.database.disconnected = true) := by
  intro h
  obtain ⟨s, hs⟩ : ∃ s, machine.run machine.init connectAgainRun = some s := ⟨_, rfl⟩
  have hinvoked : (machine.run machine.init connectAgainRun).map (·.invoked) =
      some [.database .onConnected, .database .onDisconnected, .database .onDisconnected] := rfl
  have hinvoked : s.invoked =
      [.database .onConnected, .database .onDisconnected, .database .onDisconnected] := by
    simpa [hs] using hinvoked
  have hle := (h s (reachable_of_run hs)).2.1
  rw [hinvoked] at hle
  exact absurd hle (by decide)

end GmsvPg.Lua
