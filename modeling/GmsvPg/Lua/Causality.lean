/-
# Callbacks and the order of events

`think` reads `m_connectionDone`, then the reconnect log, then `finishedQueries`; the worker
thread fills them in that order.  An execution that it put on `finishedQueries` between the
first read and the last overtakes what it announced before.  If each `think` finds announced
what precedes the entries it takes, the callbacks are run in the order of the events.
-/
import GmsvPg.Lua.Batches
import GmsvPg.Lua.LifeCycle

namespace GmsvPg.Database

/-- The reconnect log grows by what a step logs, except where it is emptied. -/
lemma State.reconnectLog_of_step {s t : State} {a : Action} (h : Step s a t)
    (ha : a ≠ .call .takeReconnectEvents) :
    t.reconnectLog = s.reconnectLog ++
      ((s.access a).bind (Access.logs s.toShared)).toList := by
  have happly : ∀ b : Access,
      (s.toShared.apply b).reconnectLog = s.reconnectLog ++ (b.logs s.toShared).toList := by
    intro b
    cases b with
    | connectSession error => cases error <;> exact (List.append_nil _).symm
    | addReconnect success => rfl
    | _ => exact (List.append_nil _).symm
  cases h with
  | @worker c b pc hnext =>
      have hb : s.access (.worker c) = some b := by simp [access, hnext]
      rw [hb]
      exact happly b
  | @main c b pc hspawn hnext =>
      have hb : s.access (.main c) = some b := by simp [access, hnext]
      rw [hb]
      exact happly b
  | @spawn c hpc =>
      have hb : s.access (.main c) = some .read := by simp [access, hpc, MainPC.next,
        ConnectCallStage.next]
      rw [hb]
      exact (List.append_nil _).symm
  | @join c hpc hworker =>
      have hb : s.access (.main c) = none := by simp [access, hpc, MainPC.next]
      rw [hb]
      exact (List.append_nil _).symm
  | call hidle hcall =>
      cases hcall with
      | takeReconnectEvents => exact absurd rfl ha
      | _ => exact (List.append_nil _).symm
  | connectionLost => exact (List.append_nil _).symm

end GmsvPg.Database

namespace GmsvPg.Lua

open Library Machine
open Database (Execution Thread Choice MainPC Access system)

/-- The reconnect event with its position. -/
def Logged.event (l : Logged) (n : ℕ) : ReconnectEvent := ⟨n, l.success, l.error⟩

/-- What the reconnect log holds of an event. -/
def Logged.entry (l : Logged) : Bool × Text := (l.success, l.error)

/-- The reconnect events that a `think` has yet to announce. -/
def Frame.events : Frame → List ReconnectEvent
  | .think stage _ => stage.events
  | _ => []

/-- `think` has decided to invoke a connection callback, and has not gone on after it. -/
def Frame.ranCallback : Frame → Bool
  | .think .connectionCallback _ | .think .inConnectionCallback _ | .think .testSuccessful _ =>
      true
  | _ => false

lemma Frame.events_collect (es : List Execution) (f : Frame) :
    (f.collect es).events = f.events := by
  cases f <;> rfl

/-- Reconnect events are taken whole, and announced from the front. -/
lemma Frame.Moves.events {v : ThinkView Put} {f : Frame} {effect : Effect} {f' : Option Frame}
    (h : f.Moves v effect f') :
    (if effect = .think .takeReconnectEvents then if v.hasTable then v.reconnectEvents else []
      else f.events) = f'.toList.flatMap Frame.events ∨
      ∃ event rest, f.events = event :: rest ∧ f'.toList.flatMap Frame.events = rest ∧
        effect = .think (.invoke event.callback) := by
  cases h with
  | event => exact .inr ⟨_, _, rfl, by simp [Frame.events, ThinkStage.events], rfl⟩
  | _ => exact .inl (by simp [Frame.events, ThinkStage.events])

lemma Frame.ranCallback_collect (es : List Execution) (f : Frame) :
    (f.collect es).ranCallback = f.ranCallback := by
  cases f <;> rfl

namespace State

/-- The event at a position was logged by the worker thread. -/
def byWorker (s : State) (n : ℕ) : Bool := s.eventLog[n]?.any fun l => decide (l.thread = .worker)

/-- The worker thread logged the event before the entry was put on `finishedQueries`. -/
def precedes (s : State) (n : ℕ) (p : Put) : Bool := s.byWorker n && decide (n < p.logged)

/-- The positions of the reconnect log. -/
def unread (s : State) : List ℕ := List.range' s.eventsTaken s.database.reconnectLog.length

/-- The positions of the events that are not yet announced. -/
def unannounced (s : State) : List ℕ :=
  (s.frames.flatMap Frame.events).map ReconnectEvent.position ++ s.unread

/-- `think` takes an entry of the worker thread before the outcome of connecting, or a reconnect
event, is announced that precedes it; or drops such an event, as it has no table. -/
def overtaken (s : State) : Action → Bool
  | .lua =>
      match s.frames with
      | .think .takeFinishedQueries _ :: _ =>
          s.puts.any fun p => decide (p.thread = .worker) &&
            (p.connectionDone && !s.dbCallbackRan || s.unannounced.any fun n => s.precedes n p)
      | .think .takeReconnectEvents _ :: _ =>
          !s.tableReference && s.puts.any fun p => decide (p.thread = .worker) &&
            s.unread.any fun n => s.precedes n p
      | _ => false
  | _ => false

end State

/-- The condition on a step under which callbacks are run in the order of the events. -/
def Causal (s : State) (a : Action) : Prop := s.overtaken a = false

instance (s : State) (a : Action) : Decidable (Causal s a) :=
  inferInstanceAs (Decidable (_ = false))

namespace State

variable {C : State → Action → Prop} {s t : State}

/-! ### The log -/

lemma eventLog_grows {a : Action} (h : Step s a t) : s.eventLog <+: t.eventLog := by
  cases h with
  | environment => exact List.prefix_append _ _
  | main =>
      rw [afterMain_eventLog]
      exact List.prefix_append _ _
  | lua hidle hframes hnext ht =>
      show s.eventLog <+: State.eventLog _
      rw [(performed ht).eventLog]
  | call hidle huser hcall => rw [(callStep_of_call hcall).called.eventLog]

lemma getElem?_eventLog {a : Action} (h : Step s a t) {n : ℕ} {l : Logged}
    (hn : s.eventLog[n]? = some l) : t.eventLog[n]? = some l := by
  obtain ⟨new, hnew⟩ := eventLog_grows h
  rw [← hnew, List.getElem?_append_left (List.getElem?_eq_some_iff.1 hn).1]
  exact hn

/-- The reconnect log, the positions in it, and what was taken from it. -/
structure Logs (s : State) : Prop where
  unread : s.database.reconnectLog = (s.eventLog.drop s.eventsTaken).map Logged.entry
  taken : s.eventsTaken ≤ s.eventLog.length
  events : ∀ f ∈ s.frames, ∀ event ∈ f.events,
    ∃ l, s.eventLog[event.position]? = some l ∧ l.event event.position = event
  puts : ∀ p ∈ s.batches, p.logged ≤ s.eventLog.length

lemma newEvents_entry (s : State) (b : Database.Action) :
    (s.newEvents b).map Logged.entry =
      ((s.database.access b).bind (Access.logs s.database.toShared)).toList := by
  unfold newEvents
  cases (s.database.access b).bind (Access.logs s.database.toShared) <;> rfl

/-- `takeReconnectEvents` empties the log. -/
lemma reconnectLog_of_perform (h : s.perform (.think .takeReconnectEvents) = some t) :
    t.database.reconnectLog = [] := by
  obtain ⟨u, hu, rfl⟩ := Option.map_eq_some_iff.1 h
  obtain ⟨v, hv, rfl⟩ := step_eq_some.1 hu
  have hv : (if s.database.mainPC = .idle then
      some { s.database with reconnectLog := [] } else none) = some v := hv
  split at hv
  · obtain rfl := Option.some.inj hv
    rfl
  · exact absurd hv (by simp)

/-- What a step does to the reconnect log and to the record of it. -/
inductive LogStep (s : State) (a : Action) (t : State) : Prop
  /-- events are added -/
  | grow (new : List Logged) (hlog : t.eventLog = s.eventLog ++ new)
      (hunread : t.database.reconnectLog = s.database.reconnectLog ++ new.map Logged.entry)
      (htaken : t.eventsTaken = s.eventsTaken) : LogStep s a t
  /-- `think` takes all of it -/
  | take {w : Option Execution} {below : List Frame} (ha : a = .lua)
      (hframes : s.frames = .think .takeReconnectEvents w :: below)
      (hframes' : t.frames = .think (.reconnectEvents
        (if s.tableReference then s.view.reconnectEvents else [])) w :: below)
      (hlog : t.eventLog = s.eventLog) (hunread : t.database.reconnectLog = [])
      (htaken : t.eventsTaken = s.logged) : LogStep s a t

lemma logStep_of_step {a : Action} (h : Step s a t) : LogStep s a t := by
  -- the functions of this layer add nothing
  have hkeep : t.eventLog = s.eventLog → t.eventsTaken = s.eventsTaken →
      (t.database = s.database ∨ ∃ m, m ≠ .takeReconnectEvents ∧
        system.next s.database (.call m) = some t.database) → LogStep s a t := by
    intro hlog htaken hdatabase
    refine .grow [] (by simp [hlog]) ?_ htaken
    rcases hdatabase with hsame | ⟨m, hne, hm⟩
    · simp [hsame]
    · simpa [Database.State.access] using
        Database.State.reconnectLog_of_step (Database.step_of_next hm) (by simpa using hne)
  cases h with
  | @environment a b u hb hdatabase =>
      refine .grow (s.newEvents b) rfl ?_ rfl
      rw [newEvents_entry]
      refine Database.State.reconnectLog_of_step (Database.step_of_next hdatabase) ?_
      rcases hb with ⟨c, -, rfl⟩ | ⟨-, rfl⟩ <;> simp
  | @main c u hpc hdatabase =>
      refine .grow (s.newEvents (.main c)) (by rw [afterMain_eventLog]; rfl) ?_
        (by rw [afterMain_eventsTaken]; rfl)
      rw [newEvents_entry, afterMain_database]
      exact Database.State.reconnectLog_of_step (Database.step_of_next hdatabase) (by simp)
  | @lua f f' below effect t hidle hframes hnext ht =>
      have hperformed := performed ht
      by_cases htake : effect = .think .takeReconnectEvents
      · subst htake
        cases hnext
        have hempty := reconnectLog_of_perform ht
        exact .take rfl hframes rfl hperformed.eventLog hempty
          (hperformed.eventsTaken.trans (if_pos rfl))
      · refine hkeep hperformed.eventLog (hperformed.eventsTaken.trans (if_neg htake)) ?_
        rcases hperformed.database with hsame | ⟨m, hcalls, hm⟩
        · exact .inl hsame
        · refine .inr ⟨m, ?_, hm⟩
          rintro rfl
          cases hnext <;> first | exact htake rfl | cases hcalls
  | @call f t hidle huser hcall =>
      have hcalled := (callStep_of_call hcall).called
      refine hkeep hcalled.eventLog hcalled.eventsTaken ?_
      cases callStep_of_call hcall with
      | begin hdatabase hf hframes =>
          refine .inr ⟨_, ?_, hdatabase⟩
          rintro rfl
          rcases hframes with ⟨-, hdirect⟩ | ⟨d, hm, -⟩
          · cases hdirect
          · cases hm
      | connect hdatabase | start hdatabase => exact .inr ⟨_, by simp, hdatabase⟩
      | waitQuery he hdatabase => exact hdatabase.imp_right fun h => ⟨_, by simp, h⟩
      | enter | throw => exact .inl rfl

lemma Logs.logged (h : s.Logs) : s.logged = s.eventLog.length := by
  have hlength := congrArg List.length h.unread
  have htaken := h.taken
  rw [List.length_map, List.length_drop] at hlength
  rw [State.logged]
  omega

/-- What is in the reconnect log is on record at its position. -/
lemma Logs.view (h : s.Logs) {event : ReconnectEvent} (he : event ∈ s.view.reconnectEvents) :
    ∃ l, s.eventLog[event.position]? = some l ∧ l.event event.position = event := by
  obtain ⟨⟨entry, n⟩, hmem, rfl⟩ := List.mem_map.1 he
  obtain ⟨hle, hlt, hentry⟩ := List.mem_zipIdx hmem
  have hn : s.eventsTaken + (n - s.eventsTaken) = n := Nat.add_sub_cancel' hle
  have hlt : n < s.eventLog.length := by
    have hlogged := h.logged
    rw [State.logged] at hlogged
    omega
  simp only [h.unread, List.getElem_map, List.getElem_drop, hn] at hentry
  refine ⟨s.eventLog[n], List.getElem?_eq_getElem hlt, ?_⟩
  rw [hentry]
  rfl

theorem logs_of_reach (h : machine.Reach C s) : s.Logs := by
  refine machine_invariant (I := Logs) ⟨rfl, Nat.le_refl 0, by simp, by simp [batches, taken,
    delivered]⟩ (fun s t a _ hI _ hstep => ?_) h
  have hlength : s.eventLog.length ≤ t.eventLog.length := (eventLog_grows hstep).length_le
  refine ⟨?_, ?_, fun g hg event he => ?_, fun p hp => ?_⟩
  · cases logStep_of_step hstep with
    | grow new hlog hunread htaken =>
        rw [hunread, hlog, htaken, hI.unread, List.drop_append_of_le_length hI.taken,
          List.map_append]
    | take ha hframes hframes' hlog hunread htaken =>
        rw [hunread, hlog, htaken, hI.logged, List.drop_length]
        rfl
  · cases logStep_of_step hstep with
    | grow new hlog hunread htaken =>
        rw [htaken]
        exact hI.taken.trans hlength
    | take ha hframes hframes' hlog hunread htaken =>
        rw [htaken, hI.logged]
        exact hlength
  · have hkeep : (∃ l, s.eventLog[event.position]? = some l ∧ l.event event.position = event) →
        ∃ l, t.eventLog[event.position]? = some l ∧ l.event event.position = event :=
      fun h => h.imp fun _ hl => ⟨getElem?_eventLog hstep hl.1, hl.2⟩
    refine hkeep ?_
    rcases frame_of_step Frame.events_collect hstep hg with
      ⟨f, hf, hsame⟩ | ⟨f, below, effect, u, -, hframes, hnext, -, -⟩ | ⟨c, -, -, hentered⟩
    · exact hI.events f hf event (hsame ▸ he)
    · have hf : f ∈ s.frames := hframes ▸ List.mem_cons_self
      rcases hnext.events with hevents | ⟨first, rest, hevents, hrest, -⟩
      · have he : event ∈ (some g).toList.flatMap Frame.events := by simpa using he
        rw [← hevents] at he
        split at he
        · split at he
          · exact hI.view he
          · exact absurd he List.not_mem_nil
        · exact hI.events f hf event he
      · have he : event ∈ (some g).toList.flatMap Frame.events := by simpa using he
        rw [hrest] at he
        exact hI.events f hf event (hevents ▸ List.mem_cons_of_mem _ he)
    · cases hentered <;> exact absurd he List.not_mem_nil
  · rcases batches_of_step hstep with ⟨-, hperm⟩ | ⟨b, -, -, hperm⟩
    · exact (hI.puts p (hperm.subset hp)).trans hlength
    · rcases List.mem_append.1 (hperm.subset hp) with hp | hp
      · exact (hI.puts p hp).trans hlength
      · obtain ⟨e, -, rfl⟩ := List.mem_map.1 hp
        exact (Nat.le_of_eq hI.logged).trans hlength

/-! ### The outcome of connecting -/

/-- The callback that tells the outcome of connecting. -/
def connectionCallback (s : State) : Callback :=
  .database (if s.database.success then .onConnected else .onConnectionFailed)

/-- Once `m_dbCallbackRan` is set, the outcome is announced, or `think` is about to do that. -/
structure Ran (s : State) : Prop where
  done : s.dbCallbackRan = true → s.database.connectionDone = true
  frames : ∀ f ∈ s.frames, f.ranCallback = true → s.dbCallbackRan = true
  announced : s.dbCallbackRan = true → s.connectionCallback ∈ s.invoked ∨
    ∃ w below, s.frames = .think .connectionCallback w :: below

lemma connectionDone_of_step {a : Action} (h : Step s a t)
    (hdone : s.database.connectionDone = true) : t.database.connectionDone = true := by
  rcases h.database with hsame | ⟨b, -, hb⟩
  · exact hsame ▸ hdone
  · exact Database.State.connectionDone_of_step (Database.step_of_next hb) hdone

lemma success_of_step {a : Action} (hr : machine.Reach C s) (h : Step s a t)
    (hdone : s.database.connectionDone = true) : t.database.success = s.database.success := by
  rcases h.database with hsame | ⟨b, -, hb⟩
  · rw [hsame]
  · exact Database.State.success_of_step (database_reachable hr) (Database.step_of_next hb) hdone

lemma connectionCallback_of_step {a : Action} (hr : machine.Reach C s) (h : Step s a t)
    (hdone : s.database.connectionDone = true) : t.connectionCallback = s.connectionCallback := by
  rw [connectionCallback, connectionCallback, success_of_step hr h hdone]

lemma dbCallbackRan_of_step {a : Action} (h : Step s a t) (hran : s.dbCallbackRan = true) :
    t.dbCallbackRan = true := by
  cases h with
  | environment => exact hran
  | main =>
      rw [afterMain_dbCallbackRan]
      exact hran
  | lua hidle hframes hnext ht =>
      show State.dbCallbackRan _ = true
      rw [(performed ht).dbCallbackRan, hran]
      rfl
  | call hidle huser hcall => exact (callStep_of_call hcall).called.dbCallbackRan.trans hran

/-- The flag is set at one point of `think`. -/
lemma ran_of_step {a : Action} (h : Step s a t) (hran : t.dbCallbackRan = true) :
    s.dbCallbackRan = true ∨ t.database.connectionDone = true ∧
      ∃ w below, t.frames = .think .connectionCallback w :: below := by
  cases hstep : h with
  | environment => exact .inl hran
  | main =>
      rw [afterMain_dbCallbackRan] at hran
      exact .inl hran
  | @lua f f' below effect u hidle hframes hnext hu =>
      have hran : u.dbCallbackRan = true := hran
      rw [(performed hu).dbCallbackRan, Bool.or_eq_true] at hran
      refine hran.imp_right fun heffect => ?_
      obtain rfl := of_decide_eq_true heffect
      cases hnext with
      | announce hdone => exact ⟨connectionDone_of_step h hdone, _, below, rfl⟩
  | call hidle huser hcall =>
      exact .inl ((callStep_of_call hcall).called.dbCallbackRan.symm.trans hran)

/-- At the point after the flag was set, the next thing is the callback. -/
lemma announced_of_point {a : Action} {w : Option Execution} {below : List Frame}
    (hr : machine.Reach C s) (h : Step s a t) (hdone : s.database.connectionDone = true)
    (hframes : s.frames = .think .connectionCallback w :: below) :
    t.connectionCallback ∈ t.invoked ∨
      ∃ w below, t.frames = .think .connectionCallback w :: below := by
  cases hstep : h with
  | environment => exact .inr ⟨w, below, hframes⟩
  | @main c u hpc hdatabase =>
      refine .inr ⟨w, below, ?_⟩
      rcases afterMain_frames (s := s.withDatabase (.main c) u) s.database.mainPC with
        hafter | ⟨es, hafter⟩
      · exact hafter.trans hframes
      · rw [hafter]
        show s.frames.modifyHead _ = _
        rw [hframes]
        rfl
  | @lua f f' below' effect u hidle hframes' hnext hu =>
      left
      rw [connectionCallback_of_step hr h hdone]
      obtain ⟨rfl, -⟩ := List.cons_eq_cons.1 (hframes'.symm.trans hframes)
      cases hnext
      show s.connectionCallback ∈ u.invoked
      rw [(performed hu).invoked]
      exact List.mem_append_right _ (List.mem_singleton_self _)
  | call hidle huser hcall =>
      rw [inUserCode, hframes] at huser
      cases huser

theorem ran_of_reach (h : machine.Reach C s) : s.Ran := by
  refine machine_invariant (I := Ran) ⟨by simp, by simp, by simp⟩
    (fun s t a hr hI _ hstep => ⟨fun hran => ?_, fun g hg hpoint => ?_, fun hran => ?_⟩) h
  · rcases ran_of_step hstep hran with hbefore | ⟨hdone, -⟩
    · exact connectionDone_of_step hstep (hI.done hbefore)
    · exact hdone
  · rcases frame_of_step Frame.ranCallback_collect hstep hg with
      ⟨f, hf, hsame⟩ | ⟨f, below, effect, u, -, hframes, hnext, hu, rfl⟩ | ⟨c, -, -, hentered⟩
    · exact dbCallbackRan_of_step hstep (hI.frames f hf (hsame ▸ hpoint))
    · have hf : f ∈ s.frames := hframes ▸ List.mem_cons_self
      cases hnext with
      | announce hdone =>
          show u.dbCallbackRan = true
          rw [(performed hu).dbCallbackRan]
          exact Bool.or_true _
      | connection | connectionReturn => exact dbCallbackRan_of_step hstep (hI.frames _ hf rfl)
      | _ => cases hpoint
    · cases hentered <;> cases hpoint
  · rcases ran_of_step hstep hran with hbefore | ⟨-, hpoint⟩
    · rcases hI.announced hbefore with hinvoked | ⟨w, below, hframes⟩
      · rw [connectionCallback_of_step hr hstep (hI.done hbefore)]
        exact .inl (invoked_subset hstep hinvoked)
      · exact announced_of_point hr hstep (hI.done hbefore) hframes
    · exact .inr hpoint

/-! ### A `think` without a table -/

lemma byWorker_iff {n : ℕ} :
    s.byWorker n = true ↔ ∃ l, s.eventLog[n]? = some l ∧ l.thread = .worker := by
  simp [byWorker, Option.any_eq_true]

lemma mem_newEvents {b : Database.Action} {l : Logged} (h : l ∈ s.newEvents b)
    (hl : l.thread = .worker) : ∃ c success pc, b = .worker c ∧
      s.database.workerPC.next s.database.toShared c = some (.addReconnect success, pc) := by
  obtain ⟨entry, hentry, rfl⟩ := List.mem_map.1 h
  cases b with
  | worker c =>
      obtain ⟨x, haccess, hlogs⟩ := Option.bind_eq_some_iff.1 (Option.mem_toList.1 hentry)
      obtain ⟨⟨x', pc⟩, hnext, rfl⟩ := Option.map_eq_some_iff.1 haccess
      cases x' with
      | addReconnect success => exact ⟨c, success, pc, rfl, hnext⟩
      | _ => cases hlogs
  | _ => cases hl

/-- The events of the worker thread are those it logs. -/
lemma byWorker_of_step {a : Action} (h : Step s a t) {n : ℕ} (hn : t.byWorker n = true) :
    s.byWorker n = true ∨ ∃ c success pc,
      s.database.workerPC.next s.database.toShared c = some (.addReconnect success, pc) := by
  obtain ⟨l, hl, hthread⟩ := byWorker_iff.1 hn
  have hsame : t.eventLog = s.eventLog → s.byWorker n = true := fun hlog =>
    byWorker_iff.2 ⟨l, hlog ▸ hl, hthread⟩
  have hnew : ∀ b, t.eventLog = s.eventLog ++ s.newEvents b → s.byWorker n = true ∨
      ∃ c success pc,
        s.database.workerPC.next s.database.toShared c = some (.addReconnect success, pc) := by
    intro b hlog
    rw [hlog, List.getElem?_append] at hl
    split at hl
    · exact .inl (byWorker_iff.2 ⟨l, hl, hthread⟩)
    · obtain ⟨c, success, pc, -, hnext⟩ := mem_newEvents (List.mem_of_getElem? hl) hthread
      exact .inr ⟨c, success, pc, hnext⟩
  cases h with
  | environment => exact hnew _ rfl
  | main => exact hnew _ (afterMain_eventLog _)
  | lua hidle hframes hnext ht => exact .inl (hsame (performed ht).eventLog)
  | call hidle huser hcall => exact .inl (hsame (callStep_of_call hcall).called.eventLog)

/-- What is on record does not change. -/
lemma byWorker_of_lt {a : Action} (h : Step s a t) {n : ℕ} (hlt : n < s.eventLog.length)
    (hn : t.byWorker n = true) : s.byWorker n = true := by
  obtain ⟨new, hnew⟩ := eventLog_grows h
  rw [byWorker, ← hnew, List.getElem?_append_left hlt] at hn
  exact hn

/-- What the worker thread logged, it logged after it had connected. -/
theorem success_of_byWorker (h : machine.Reach C s) {n : ℕ} :
    s.byWorker n = true → s.database.connectionDone = true ∧ s.database.success = true := by
  refine machine_invariant (I := fun s => s.byWorker n = true →
    s.database.connectionDone = true ∧ s.database.success = true) (by simp [byWorker])
    (fun s t a hr hI _ hstep hn => ?_) h
  have hbefore : s.database.connectionDone = true ∧ s.database.success = true := by
    rcases byWorker_of_step hstep hn with hn | ⟨c, success, pc, hnext⟩
    · exact hI hn
    · have hpublishes : s.database.workerPC.Publishes s.database.connectionDone
          s.database.success s.database.disconnected :=
        Database.State.publishes_of_reach (database_reachable hr)
      obtain ⟨e, r, hpc⟩ := Database.WorkerPC.next_addReconnect hnext
      rw [hpc] at hpublishes
      exact ⟨hpublishes.1, hpublishes.2.1⟩
  exact ⟨connectionDone_of_step hstep hbefore.1, (success_of_step hr hstep hbefore.1).trans hbefore.2⟩

/-- Without a table the worker thread was not started, or could not connect, or has ended. -/
structure Tableless (s : State) : Prop where
  connecting : ∀ stage, s.database.mainPC = .connect stage → s.tableReference = true
  table : s.tableReference = false → s.database.workerPC = .notStarted ∨
    (s.database.connectionDone = true ∧ s.database.success = false) ∨
      s.database.disconnected = true
  frames : ∀ f ∈ s.frames, f.inDisconnected = true → s.database.disconnected = true

/-- `connect` takes a reference to the table first. -/
lemma connecting_of_step {a : Action} (h : Step s a t)
    (hI : ∀ stage, s.database.mainPC = .connect stage → s.tableReference = true) :
    ∀ stage, t.database.mainPC = .connect stage → t.tableReference = true := by
  intro stage hpc
  cases h with
  | environment hb hdatabase => exact hI stage ((mainPC_of_environment hb hdatabase).symm.trans hpc)
  | @main c u hmain hdatabase =>
      rw [afterMain_database] at hpc
      rw [afterMain_tableReference]
      cases Database.step_of_next hdatabase with
      | main hspawn hnext =>
          obtain rfl := hpc
          obtain ⟨stage', hsource⟩ := MainPC.next_source hnext
          exact hI stage' hsource
      | spawn | join => cases hpc
  | @lua f f' below effect u hidle hframes hnext hu =>
      have hpc : u.database.mainPC = .connect stage := hpc
      rcases (performed hu).database with hsame | ⟨m, hcalls, hm⟩
      · rw [hsame, hidle] at hpc
        cases hpc
      · refine absurd hpc (Database.State.mainPC_ne_connect hm ?_ stage)
        rintro rfl
        cases hnext <;> cases hcalls
  | call hidle huser hcall =>
      cases callStep_of_call hcall with
      | begin hdatabase hf hframes =>
          refine absurd hpc (Database.State.mainPC_ne_connect hdatabase ?_ stage)
          rintro rfl
          rcases hframes with ⟨-, hdirect⟩ | ⟨d, hm, -⟩
          · cases hdirect
          · cases hm
      | connect => rfl
      | start hdatabase =>
          exact absurd hpc (Database.State.mainPC_ne_connect hdatabase (by simp) stage)
      | waitQuery he hdatabase =>
          rcases hdatabase with rfl | hdatabase
          · exact hI stage hpc
          · exact absurd hpc (Database.State.mainPC_ne_connect hdatabase (by simp) stage)
      | enter | throw => exact hI stage hpc

/-- The table is released after a failure to connect, or after a disconnection. -/
lemma table_of_step {a : Action} (hr : machine.Reach C s) (h : Step s a t)
    (htable : t.tableReference = false)
    (hI : ∀ f ∈ s.frames, f.inDisconnected = true → s.database.disconnected = true) :
    s.tableReference = false ∨
      (s.database.connectionDone = true ∧ s.database.success = false) ∨
      s.database.disconnected = true := by
  cases h with
  | environment => exact .inl htable
  | main =>
      rw [afterMain_tableReference] at htable
      exact .inl htable
  | @lua f f' below effect u hidle hframes hnext hu =>
      have htable : u.tableReference = false := htable
      have hf : f ∈ s.frames := hframes ▸ List.mem_cons_self
      rw [(performed hu).tableReference, Bool.and_eq_false_iff] at htable
      refine htable.imp_right fun heffect => ?_
      have heffect : effect = .think .freeTable := by simpa using heffect
      subst heffect
      cases hnext with
      | failed hfailed =>
          have hran := ran_of_reach hr
          exact .inl ⟨hran.done (hran.frames _ hf rfl), hfailed⟩
      | disconnectedReturn => exact .inr (hI _ hf rfl)
  | call hidle huser hcall =>
      cases callStep_of_call hcall with
      | connect => cases htable
      | begin | start | waitQuery | enter | throw => exact .inl htable

theorem tableless_of_reach (h : machine.Reach C s) : s.Tableless := by
  refine machine_invariant (I := Tableless) ⟨by simp, fun _ => .inl rfl, by simp⟩
    (fun s t a hr hI _ hstep => ⟨?_, ?_, fun g hg hpoint => ?_⟩) h
  · exact connecting_of_step hstep hI.connecting
  · intro htable
    have hflags : (s.database.connectionDone = true ∧ s.database.success = false) ∨
        s.database.disconnected = true →
        (t.database.connectionDone = true ∧ t.database.success = false) ∨
          t.database.disconnected = true :=
      Or.imp (fun h => ⟨connectionDone_of_step hstep h.1, (success_of_step hr hstep h.1).trans h.2⟩)
        (disconnected_of_step hr hstep)
    rcases table_of_step hr hstep htable hI.frames with hbefore | hnow
    · rcases hI.table hbefore with hstart | hnow
      · -- the thread is started by `connect`, which has a table
        rcases hstep.database with hsame | ⟨b, -, hb⟩
        · exact .inl (hsame ▸ hstart)
        · rcases Database.State.workerPC_of_step (Database.step_of_next hb) with
            hsame | ⟨c, -, hne⟩ | hspawn
          · exact .inl (hsame.trans hstart)
          · exact absurd hstart hne
          · exact absurd ((hI.connecting _ hspawn).symm.trans hbefore) (by simp)
      · exact .inr (hflags hnow)
    · exact .inr (hflags hnow)
  · rcases frame_of_step Frame.inDisconnected_collect hstep hg with
      ⟨f, hf, hsame⟩ | ⟨f, below, effect, u, -, hframes, hnext, -, -⟩ | ⟨c, -, -, hentered⟩
    · exact disconnected_of_step hr hstep (hI.frames f hf (hsame ▸ hpoint))
    · cases hnext with
      | disconnected hdisconnected => exact disconnected_of_step hr hstep hdisconnected
      | _ => cases hpoint
    · cases hentered <;> cases hpoint

lemma disconnected_of_tableless (h : machine.Reach C s) (htable : s.tableReference = false)
    {n : ℕ} (hn : s.byWorker n = true) : s.database.disconnected = true := by
  obtain ⟨hdone, hsuccess⟩ := success_of_byWorker h hn
  rcases (tableless_of_reach h).table htable with hpc | ⟨-, hfailed⟩ | hdisconnected
  · have hpublishes : s.database.workerPC.Publishes s.database.connectionDone
        s.database.success s.database.disconnected :=
      Database.State.publishes_of_reach (database_reachable h)
    rw [hpc] at hpublishes
    exact absurd (hdone.symm.trans hpublishes.1) (by simp)
  · exact absurd (hsuccess.symm.trans hfailed) (by simp)
  · exact hdisconnected

/-! ### What is announced -/

/-- The callback of the event at a position was invoked. -/
def Announced (s : State) (n : ℕ) : Prop :=
  ∃ l, s.eventLog[n]? = some l ∧ .database (l.event n).callback ∈ s.invoked

/-- The events of the worker thread are announced, or on the way, or were dropped when the
worker thread had put its last entry on `finishedQueries`, before them. -/
def Accounted (s : State) : Prop :=
  ∀ n, s.byWorker n = true → s.Announced n ∨ n ∈ s.unannounced ∨
    s.database.disconnected = true ∧ ∀ p ∈ s.puts, p.thread = .worker → p.logged ≤ n

/-- What precedes the entries of a batch is announced. -/
def Batched (s : State) : Prop :=
  ∀ f ∈ s.frames, ∀ p ∈ f.rest, p.thread = .worker →
    (p.connectionDone = true → s.dbCallbackRan = true) ∧
      ∀ n, s.precedes n p = true → s.Announced n

lemma announced_of_step {a : Action} {n : ℕ} (h : Step s a t) (hn : s.Announced n) :
    t.Announced n := by
  obtain ⟨l, hl, hinvoked⟩ := hn
  exact ⟨l, getElem?_eventLog h hl, invoked_subset h hinvoked⟩

/-- What a `think` has yet to announce it announces, or keeps. -/
lemma events_of_step {a : Action} (h : Step s a t) {event : ReconnectEvent}
    (he : event ∈ s.frames.flatMap Frame.events) :
    event ∈ t.frames.flatMap Frame.events ∨ .database event.callback ∈ t.invoked := by
  cases h with
  | environment => exact .inl he
  | main =>
      rw [flatMap_afterMain Frame.events_collect]
      exact .inl he
  | @lua f f' below effect u hidle hframes hnext hu =>
      show event ∈ (f'.toList ++ below).flatMap Frame.events ∨ _ ∈ u.invoked
      rw [hframes, List.flatMap_cons] at he
      rw [List.flatMap_append, (performed hu).invoked]
      rcases List.mem_append.1 he with he | he
      · rcases hnext.events with hevents | ⟨first, rest, hevents, hrest, rfl⟩
        · by_cases htake : effect = .think .takeReconnectEvents
          · subst htake
            cases hnext
            cases he
          · rw [if_neg htake] at hevents
            exact .inl (List.mem_append_left _ (hevents ▸ he))
        · rw [hevents] at he
          rcases List.mem_cons.1 he with rfl | he
          · exact .inr (List.mem_append_right _ (List.mem_singleton_self _))
          · exact .inl (List.mem_append_left _ (hrest ▸ he))
      · exact .inl (List.mem_append_right _ he)
  | call hidle huser hcall =>
      left
      rcases (callStep_of_call hcall).called.frames with hframes | ⟨g, -, hframes⟩
      · exact hframes ▸ he
      · rw [hframes, List.flatMap_cons]
        exact List.mem_append_right _ he

/-- Once `disconnected` is set, the worker thread puts nothing on `finishedQueries`. -/
lemma puts_of_step {a : Action} (hr : machine.Reach C s) (h : Step s a t)
    (hd : s.database.disconnected = true) {p : Put} (hp : p ∈ t.puts) (hthread : p.thread = .worker) :
    p ∈ s.puts := by
  have hnew : ∀ b, p ∉ s.newPuts b := by
    intro b hmem
    obtain ⟨e, he, rfl⟩ := List.mem_map.1 hmem
    cases b with
    | worker c =>
        obtain ⟨x, haccess, hputs⟩ := Option.bind_eq_some_iff.1 (Option.mem_toList.1 he)
        obtain ⟨⟨x', pc⟩, hnext, rfl⟩ := Option.map_eq_some_iff.1 haccess
        have hpublishes := Database.State.publishes_of_reach (database_reachable hr)
        rcases Database.WorkerPC.next_disconnected hnext hpublishes hd with rfl | ⟨v, rfl⟩ <;>
          cases hputs
    | _ => cases hthread
  cases h with
  | environment => exact (List.mem_append.1 hp).resolve_right (hnew _)
  | main =>
      rw [afterMain_puts] at hp
      exact (List.mem_append.1 hp).resolve_right (hnew _)
  | lua hidle hframes hnext hu =>
      have hp : p ∈ State.puts _ := hp
      rw [show State.puts _ = _ from (performed hu).puts] at hp
      split at hp
      · cases hp
      · exact hp
  | call hidle huser hcall =>
      rw [(callStep_of_call hcall).called.puts] at hp
      exact hp

/-- What `think` reads of the reconnect log are its positions. -/
lemma view_positions : s.view.reconnectEvents.map ReconnectEvent.position = s.unread := by
  have hpositions : s.view.reconnectEvents.map ReconnectEvent.position =
      (s.database.reconnectLog.zipIdx s.eventsTaken).map Prod.snd := by
    rw [view, List.map_map]
    rfl
  rw [hpositions, List.zipIdx_map_snd, unread]

theorem accounted_of_reach (h : machine.Reach Causal s) : s.Accounted := by
  refine h.invariant (I := Accounted) (by simp [Accounted, byWorker, machine])
    (fun s t a hr hI hC hnext n hn => ?_)
  have hstep := step_of_next hnext
  have hlogs := logs_of_reach (.step hr hC hnext)
  obtain ⟨l, hl, hthread⟩ := byWorker_iff.1 hn
  by_cases hunread : t.eventsTaken ≤ n
  · -- it is in the reconnect log
    refine .inr (.inl (List.mem_append_right _ (List.mem_range'_1.2 ⟨hunread, ?_⟩)))
    have hlt := (List.getElem?_eq_some_iff.1 hl).1
    have hlogged := hlogs.logged
    rw [logged] at hlogged
    omega
  · have hlogs := logs_of_reach hr
    have hlt : n < s.eventLog.length := by
      cases logStep_of_step hstep with
      | grow new hlog hgrow htaken =>
          have htaken := htaken ▸ hlogs.taken
          omega
      | take ha hframes hframes' hlog hempty htaken =>
          have htaken := htaken.trans hlogs.logged
          omega
    have hbefore : s.byWorker n = true := byWorker_of_lt hstep hlt hn
    rcases hI n hbefore with hannounced | hway | ⟨hd, hlast⟩
    · exact .inl (announced_of_step hstep hannounced)
    · rcases List.mem_append.1 hway with hway | hway
      · -- a `think` is to announce it
        obtain ⟨event, he, rfl⟩ := List.mem_map.1 hway
        rcases events_of_step hstep he with he' | hinvoked
        · exact .inr (.inl (List.mem_append_left _ (List.mem_map_of_mem he')))
        · obtain ⟨f, hf, he⟩ := List.mem_flatMap.1 he
          obtain ⟨l', hl', hevent⟩ := hlogs.events f hf event he
          exact .inl ⟨l', getElem?_eventLog hstep hl', hevent ▸ hinvoked⟩
      · obtain ⟨hle, -⟩ := List.mem_range'_1.1 hway
        cases logStep_of_step hstep with
        | grow new hlog hgrow htaken => exact absurd (htaken ▸ hle) hunread
        | take ha hframes hframes' hlog hempty htaken =>
            -- it is taken now, or dropped
            cases htable : s.tableReference with
            | true =>
                refine .inr (.inl (List.mem_append_left _ ?_))
                rw [hframes', htable, List.flatMap_cons, List.map_append]
                refine List.mem_append_left _ ?_
                show n ∈ s.view.reconnectEvents.map ReconnectEvent.position
                rw [view_positions]
                exact hway
            | false =>
                have hd := disconnected_of_tableless hr htable hbefore
                refine .inr (.inr ⟨disconnected_of_step hr hstep hd, fun p hp hp' => ?_⟩)
                have hp := puts_of_step hr hstep hd hp hp'
                -- else the event would precede an entry that is still to be delivered
                by_contra hlogged
                have hdropped : s.overtaken a = true := by
                  subst ha
                  simp only [overtaken, hframes, htable]
                  refine List.any_eq_true.2 ⟨p, hp, ?_⟩
                  have hany : s.unread.any (fun n => s.precedes n p) = true :=
                    List.any_eq_true.2 ⟨n, hway, by
                      simpa [precedes, hbefore] using hlogged⟩
                  simp [hp', hany]
                exact absurd (hC.symm.trans hdropped) (by simp)
    · exact .inr (.inr ⟨disconnected_of_step hr hstep hd, fun p hp hp' =>
        hlast p (puts_of_step hr hstep hd hp hp') hp'⟩)

lemma mem_batches_of_rest {f : Frame} (hf : f ∈ s.frames) {p : Put} (hp : p ∈ f.rest) :
    p ∈ s.batches :=
  List.mem_append_left _ (List.mem_append_right _ (List.mem_flatMap.2 ⟨f, hf, hp⟩))

theorem batched_of_reach (h : machine.Reach Causal s) : s.Batched := by
  refine machine_invariant (I := Batched) (by simp [Batched])
    (fun s t a hr hI hC hstep g hg p hp hthread => ?_) h
  -- what an entry of an older batch needs, stays true
  have hkeep : p ∈ s.batches → ((p.connectionDone = true → s.dbCallbackRan = true) ∧
      ∀ n, s.precedes n p = true → s.Announced n) →
      (p.connectionDone = true → t.dbCallbackRan = true) ∧
        ∀ n, t.precedes n p = true → t.Announced n := by
    intro hmem ⟨hran, hannounced⟩
    refine ⟨fun hdone => dbCallbackRan_of_step hstep (hran hdone), fun n hn => ?_⟩
    obtain ⟨hworker, hlt⟩ := Bool.and_eq_true_iff.1 hn
    have hlogged : n < s.eventLog.length :=
      (of_decide_eq_true hlt).trans_le ((logs_of_reach hr).puts p hmem)
    refine announced_of_step hstep (hannounced n (Bool.and_eq_true_iff.2 ⟨?_, hlt⟩))
    exact byWorker_of_lt hstep hlogged hworker
  rcases frame_of_step Frame.rest_collect hstep hg with
    ⟨f, hf, hsame⟩ | ⟨f, below, effect, u, ha, hframes, hnext, hu, rfl⟩ | ⟨c, -, -, hentered⟩
  · rw [hsame] at hp
    exact hkeep (mem_batches_of_rest hf hp) (hI f hf p hp hthread)
  · have hf : f ∈ s.frames := hframes ▸ List.mem_cons_self
    obtain ⟨hrest, -⟩ := hnext.rest
    have hp : p ∈ if effect = .think .takeFinishedQueries then s.view.finishedQueries
        else f.rest := by
      rw [hrest]
      exact List.mem_append_right _ (by simpa using hp)
    split at hp
    · -- it is taken now, when nothing overtakes
      refine hkeep (List.mem_append_right _ hp) ?_
      subst effect
      cases hnext
      have hnone : s.overtaken a = false := hC
      simp only [ha, overtaken, hframes] at hnone
      have hp' := List.any_eq_false.1 hnone p hp
      simp only [hthread, decide_true, Bool.true_and, Bool.or_eq_true, not_or, Bool.and_eq_true,
        Bool.not_eq_true', not_and, Bool.not_eq_false, List.any_eq_true, not_exists] at hp'
      refine ⟨hp'.1, fun n hn => ?_⟩
      obtain ⟨hworker, hlt⟩ := Bool.and_eq_true_iff.1 hn
      rcases accounted_of_reach hr n hworker with hannounced | hway | ⟨-, hlast⟩
      · exact hannounced
      · exact absurd hn (hp'.2 n hway)
      · exact absurd (of_decide_eq_true hlt) (Nat.not_lt.2 (hlast p hp hthread))
    · exact hkeep (mem_batches_of_rest hf hp) (hI f hf p hp hthread)
  · exact absurd hp (by simp [hentered.idle.1])

end State

/-- **Causality.**  In every run in which each `think` that takes entries of the worker thread
finds announced what precedes them, and no `think` without a table drops such an event: when
the terminal callback of an entry that the worker thread put on `finishedQueries` is invoked,
the callback for the outcome of connecting has been invoked, if `m_connectionDone` was set
before, and so have the callbacks of the reconnect events that the worker thread had logged
before. -/
theorem causality {s t : State} {p : Put} (h : machine.Reach Causal s)
    (hnext : machine.next s .lua = some t) (hinvoked : t.invoked = s.invoked ++ [.finished p])
    (hp : p.thread = .worker) :
    (p.connectionDone = true → s.connectionCallback ∈ s.invoked) ∧
      ∀ n l, n < p.logged → s.eventLog[n]? = some l → l.thread = .worker →
        .database (l.event n).callback ∈ s.invoked := by
  obtain ⟨f, g, below, hframes, -, hinvokes, -⟩ := invokes_of_next hnext hinvoked
  cases hinvokes with
  | finished =>
      obtain ⟨hconnection, hevents⟩ := State.batched_of_reach h _
        (hframes ▸ List.mem_cons_self) p List.mem_cons_self hp
      refine ⟨fun hdone => ?_, fun n l hn hl hthread => ?_⟩
      · -- the callback is not about to be invoked, as its `think` would be on top
        refine ((State.ran_of_reach h).announced (hconnection hdone)).resolve_right ?_
        rintro ⟨w, below', hframes'⟩
        rw [hframes] at hframes'
        cases hframes'
      · obtain ⟨l', hl', hannounced⟩ := hevents n
          (by simp [State.precedes, State.byWorker, hl, hthread, hn])
        obtain rfl : l' = l := Option.some.inj (hl'.symm.trans hl)
        exact hannounced

/-- The connection is lost; a query is started, for which the worker thread connects again; the
next `think` announces both, and is about to run the callback of the query. -/
def reconnectedRun : List Action :=
  connectSteps ++ connectedSteps ++ [.connectionLost] ++ startSteps 0 0 ++ workerSteps 13 ++
    [.worker (.connected none)] ++ workerSteps 4 ++ [.worker (.left none)] ++ workerSteps 9 ++
    [.call .think] ++ luaSteps 9

set_option maxRecDepth 2000 in
theorem causality_reconnectedRun :
    ∃ s t, machine.runIf Causal machine.init reconnectedRun = some s ∧
      machine.next s .lua = some t ∧
      t.invoked = s.invoked ++ [.finished ⟨⟨0, 0, 0⟩, 0, .worker, true, 1⟩] ∧
      s.invoked = [.database .onConnected, .database (.onReconnect 0)] ∧
      s.connectionCallback ∈ s.invoked ∧
      ∀ n l, n < 1 → s.eventLog[n]? = some l → l.thread = .worker →
        .database (l.event n).callback ∈ s.invoked := by
  obtain ⟨s, hs⟩ : ∃ s, machine.runIf Causal machine.init reconnectedRun = some s := ⟨_, rfl⟩
  have hbefore : (machine.runIf Causal machine.init reconnectedRun).map (·.invoked) =
      some [.database .onConnected, .database (.onReconnect 0)] := rfl
  have hbefore : s.invoked = [.database .onConnected, .database (.onReconnect 0)] := by
    simpa [hs] using hbefore
  have hafter : ((machine.runIf Causal machine.init reconnectedRun).bind
      fun s => machine.next s .lua).map (·.invoked) =
        some [.database .onConnected, .database (.onReconnect 0),
          .finished ⟨⟨0, 0, 0⟩, 0, .worker, true, 1⟩] := rfl
  obtain ⟨t, ht, hinvoked⟩ : ∃ t, machine.next s .lua = some t ∧
      t.invoked = s.invoked ++ [.finished ⟨⟨0, 0, 0⟩, 0, .worker, true, 1⟩] := by
    rw [hs] at hafter
    rw [hbefore]
    exact Option.map_eq_some_iff.1 hafter
  obtain ⟨hconnection, hevents⟩ := causality (reach_of_runIf hs) ht hinvoked rfl
  exact ⟨s, t, hs, ht, hinvoked, hbefore, hconnection rfl, hevents⟩

/-- `think` finds that the connection thread is still connecting; it connects and executes a
query before `think` goes on. -/
def overtakenRun : List Action :=
  connectSteps ++ startSteps 0 0 ++ [.call .think] ++ luaSteps 1 ++ connectedSteps ++
    executeSteps ++ luaSteps 3

/-- Without the condition the callback of a query overtakes `onConnected`. -/
theorem callback_before_onConnected :
    ¬ ∀ s t p, machine.Reachable s → machine.next s .lua = some t →
      t.invoked = s.invoked ++ [.finished p] → p.thread = .worker →
      (p.connectionDone = true → s.connectionCallback ∈ s.invoked) ∧
        ∀ n l, n < p.logged → s.eventLog[n]? = some l → l.thread = .worker →
          .database (l.event n).callback ∈ s.invoked := by
  intro h
  obtain ⟨s, hs⟩ : ∃ s, machine.run machine.init overtakenRun = some s := ⟨_, rfl⟩
  have hbefore : (machine.run machine.init overtakenRun).map (·.invoked) = some [] := rfl
  have hbefore : s.invoked = [] := by simpa [hs] using hbefore
  have hafter : ((machine.run machine.init overtakenRun).bind
      fun s => machine.next s .lua).map (·.invoked) =
        some [.finished ⟨⟨0, 0, 0⟩, 0, .worker, true, 0⟩] := rfl
  obtain ⟨t, ht, hinvoked⟩ : ∃ t, machine.next s .lua = some t ∧
      t.invoked = s.invoked ++ [.finished ⟨⟨0, 0, 0⟩, 0, .worker, true, 0⟩] := by
    rw [hs] at hafter
    rw [hbefore]
    exact Option.map_eq_some_iff.1 hafter
  have hannounced := (h s t _ (reachable_of_run hs) ht hinvoked rfl).1 rfl
  rw [hbefore] at hannounced
  exact List.not_mem_nil hannounced

end GmsvPg.Lua
