/-
# The ledger of reconnect events

`attemptReconnect` logs an event, whichever thread calls it, and `think` announces what it takes
from the log.  This file keeps the books of the events by their positions: each was announced,
or is in the list of a `think` that is to announce it, or is still in the log, or was dropped by
a `think` without a table; and it is in one of these places only.  What is announced is what
was logged.
-/
import GmsvPg.Lua.Causality

namespace GmsvPg.Lua

open Library Machine
open Database (Execution Choice MainPC Access system)

/-- The reconnect event that a callback announces. -/
def Callback.announces : Callback → Option ℕ
  | .database (.onReconnect n) | .database (.onReconnectFailed n _) => some n
  | _ => none

/-- Of the callbacks of the database table, those of reconnect events announce one. -/
lemma Frame.Moves.announces {v : ThinkView Put} {f : Frame} {effect : Effect}
    {f' : Option Frame} (h : f.Moves v effect f') (htake : effect ≠ .think .takeReconnectEvents) :
    f.events.map ReconnectEvent.position =
      (effect.callback.bind Callback.announces).toList ++
        (f'.toList.flatMap Frame.events).map ReconnectEvent.position := by
  cases h with
  | @connection w =>
      cases v.connectionSuccessful <;>
        simp [Effect.callback, Callback.announces, Frame.events, ThinkStage.events]
  | @event event rest w =>
      cases hsuccess : event.success <;>
        simp [Effect.callback, Callback.announces, Frame.events, ThinkStage.events,
          ReconnectEvent.callback, hsuccess]
  | takeReconnectEvents => exact absurd rfl htake
  | _ => simp [Effect.callback, Callback.announces, Frame.events, ThinkStage.events]

namespace State

variable {C : State → Action → Prop} {s t : State}

/-- The positions of the events that were announced, in order. -/
def announcements (s : State) : List ℕ := s.invoked.filterMap Callback.announces

/-- A `think` without a table takes events from the log. -/
def drops (s : State) : Action → Bool
  | .lua =>
      match s.frames with
      | .think .takeReconnectEvents _ :: _ =>
          !s.tableReference && !s.database.reconnectLog.isEmpty
      | _ => false
  | _ => false

end State

/-- The condition on a step under which no reconnect event is dropped. -/
def DropsNothing (s : State) (a : Action) : Prop := s.drops a = false

instance (s : State) (a : Action) : Decidable (DropsNothing s a) :=
  inferInstanceAs (Decidable (_ = false))

namespace State

variable {C : State → Action → Prop} {s t : State}

/-- The books are balanced: every event was announced, or is not yet announced, or is one of
those dropped. -/
def Balanced (s : State) (dropped : List ℕ) : Prop :=
  (s.announcements ++ s.unannounced ++ dropped).Perm (List.range s.logged)

/-- Events that are added are not yet announced. -/
lemma Balanced.grow {dropped new : List ℕ} {k : ℕ} (hI : s.Balanced dropped)
    (hannouncements : t.announcements = s.announcements)
    (hunannounced : t.unannounced = s.unannounced ++ new) (hnew : new = List.range' s.logged k)
    (hlogged : t.logged = s.logged + k) : t.Balanced dropped := by
  have hrange : List.range (s.logged + k) = List.range s.logged ++ List.range' s.logged k := by
    rw [List.range_eq_range', List.range_eq_range', ← List.range'_append_1, Nat.zero_add]
  unfold Balanced
  rw [hannouncements, hunannounced, hlogged, hrange, ← hnew]
  have hmove : (s.announcements ++ (s.unannounced ++ new) ++ dropped).Perm
      (s.announcements ++ s.unannounced ++ dropped ++ new) := by
    rw [List.append_assoc, List.append_assoc, List.append_assoc, List.append_assoc]
    exact (List.perm_append_comm.append_left _).append_left _
  exact hmove.trans (hI.append_right new)

lemma unannounced_of_events {new : List Logged}
    (hframes : t.frames.flatMap Frame.events = s.frames.flatMap Frame.events)
    (hunread : t.database.reconnectLog = s.database.reconnectLog ++ new.map Logged.entry)
    (htaken : t.eventsTaken = s.eventsTaken) :
    t.unannounced = s.unannounced ++ List.range' s.logged new.length ∧
      t.logged = s.logged + new.length := by
  constructor
  · rw [unannounced, unannounced, unread, unread, hframes, hunread, htaken, List.length_append,
      List.length_map, ← List.range'_append_1, logged, List.append_assoc]
  · rw [logged, logged, hunread, htaken, List.length_append, List.length_map, Nat.add_assoc]

lemma flatMap_events_of_called {f : Call} (h : Called s f t) :
    t.frames.flatMap Frame.events = s.frames.flatMap Frame.events := by
  rcases h.frames with hframes | ⟨g, hentered, hframes⟩
  · rw [hframes]
  · rw [hframes, List.flatMap_cons]
    cases hentered <;> rfl

/-- A step that takes nothing from the log keeps the books balanced. -/
lemma Balanced.of_grow {dropped : List ℕ} {a : Action} {new : List Logged}
    (hI : s.Balanced dropped) (h : Step s a t) (hne : ∀ w below,
      a = .lua → s.frames ≠ .think .takeReconnectEvents w :: below)
    (hlog : t.eventLog = s.eventLog ++ new)
    (hunread : t.database.reconnectLog = s.database.reconnectLog ++ new.map Logged.entry)
    (htaken : t.eventsTaken = s.eventsTaken) : t.Balanced dropped := by
  cases h with
  | @environment a b u =>
      obtain ⟨hnew, hlogged⟩ := unannounced_of_events (s := s) (t := s.withDatabase b u) rfl
        hunread htaken
      exact hI.grow rfl hnew rfl hlogged
  | @main c u hpc hdatabase =>
      have hframes := flatMap_afterMain Frame.events_collect (s.withDatabase (.main c) u)
        s.database.mainPC
      obtain ⟨hnew, hlogged⟩ := unannounced_of_events (s := s) hframes hunread htaken
      refine hI.grow ?_ hnew rfl hlogged
      rw [announcements, afterMain_invoked]
      rfl
  | @call f t hidle huser hcall =>
      have hcalled := (callStep_of_call hcall).called
      obtain ⟨hnew, hlogged⟩ := unannounced_of_events (s := s)
        (flatMap_events_of_called hcalled) hunread htaken
      refine hI.grow ?_ hnew rfl hlogged
      rw [announcements, hcalled.invoked]
      rfl
  | @lua f f' below effect t hidle hframes hnext ht =>
      have hperformed := performed ht
      have hlog : t.eventLog = s.eventLog ++ new := hlog
      obtain rfl : new = [] := by
        rw [hperformed.eventLog] at hlog
        exact List.append_cancel_left (hlog.symm.trans (List.append_nil _).symm)
      have htake : effect ≠ .think .takeReconnectEvents := by
        rintro rfl
        cases hnext
        exact hne _ below rfl hframes
      have hmove := hnext.announces htake
      have hunread : t.database.reconnectLog = s.database.reconnectLog := by
        simpa using hunread
      have htaken : t.eventsTaken = s.eventsTaken := htaken
      unfold Balanced at hI ⊢
      show ((t.invoked.filterMap Callback.announces ++
        (((f'.toList ++ below).flatMap Frame.events).map ReconnectEvent.position ++
          List.range' t.eventsTaken t.database.reconnectLog.length)) ++ dropped).Perm
        (List.range (t.eventsTaken + t.database.reconnectLog.length))
      rw [hunread, htaken, hperformed.invoked, List.filterMap_append, List.flatMap_append,
        List.map_append]
      refine (List.Perm.of_eq ?_).trans hI
      rw [announcements, unannounced, hframes, List.flatMap_cons, List.map_append, hmove]
      cases effect.callback with
      | none => simp [unread]
      | some c => cases hc : c.announces <;> simp [hc, unread]

/-- A `think` takes all of the log: it is to announce the events, or drops them. -/
lemma Balanced.take {dropped : List ℕ} {w : Option Execution} {below : List Frame}
    (hI : s.Balanced dropped) (hframes : s.frames = .think .takeReconnectEvents w :: below)
    (hframes' : t.frames = .think (.reconnectEvents
      (if s.tableReference then s.view.reconnectEvents else [])) w :: below)
    (hinvoked : t.invoked = s.invoked) (hunread : t.database.reconnectLog = [])
    (htaken : t.eventsTaken = s.logged) :
    t.Balanced (if s.tableReference then dropped else dropped ++ s.unread) := by
  unfold Balanced at hI ⊢
  rw [unannounced, hframes, List.flatMap_cons] at hI
  rw [announcements, hinvoked, unannounced, unread, hframes', hunread, logged, htaken, hunread,
    List.flatMap_cons, List.map_append]
  show (s.announcements ++ ((if s.tableReference then s.view.reconnectEvents else []).map
    ReconnectEvent.position ++ (below.flatMap Frame.events).map ReconnectEvent.position ++ []) ++
      (if s.tableReference then dropped else dropped ++ s.unread)).Perm (List.range (s.logged + 0))
  have hI : (s.announcements ++ ((below.flatMap Frame.events).map ReconnectEvent.position ++
      s.unread) ++ dropped).Perm (List.range s.logged) := hI
  rw [List.append_nil]
  cases s.tableReference with
  | true =>
      refine List.Perm.trans ?_ hI
      rw [if_pos rfl, if_pos rfl, view_positions]
      exact (List.perm_append_comm.append_left _).append_right _
  | false =>
      refine List.Perm.trans ?_ hI
      show (s.announcements ++ ([] ++ (below.flatMap Frame.events).map ReconnectEvent.position) ++
        (dropped ++ s.unread)).Perm _
      rw [List.nil_append, List.append_assoc, List.append_assoc, List.append_assoc]
      exact (List.perm_append_comm.append_left _).append_left _

/-- The books are balanced in every reachable state; as long as no `think` without a table takes
events, none is dropped. -/
theorem balanced_of_reach (h : machine.Reach C s) :
    ∃ dropped, s.Balanced dropped ∧
      ((∀ s a, C s a → DropsNothing s a) → dropped = []) := by
  refine machine_invariant (I := fun s => ∃ dropped, s.Balanced dropped ∧
    ((∀ s a, C s a → DropsNothing s a) → dropped = []))
    ⟨[], List.Perm.refl _, fun _ => rfl⟩ (fun s t a hr ⟨dropped, hI, hnone⟩ hC hstep => ?_) h
  by_cases htake : ∃ w below, a = .lua ∧ s.frames = .think .takeReconnectEvents w :: below
  · obtain ⟨w, below, rfl, hframes⟩ := htake
    cases hstep with
    | @lua f f' below' effect t hidle hframes' hnext ht =>
        obtain ⟨rfl, rfl⟩ := List.cons_eq_cons.1 (hframes.symm.trans hframes')
        cases hnext
        have hempty := reconnectLog_of_perform ht
        refine ⟨_, hI.take hframes rfl ?_ hempty ?_, fun hkeeps => ?_⟩
        · exact (performed ht).invoked.trans (List.append_nil _)
        · exact (performed ht).eventsTaken.trans (if_pos rfl)
        · have hdrops := hkeeps s .lua hC
          rw [hnone hkeeps]
          cases htable : s.tableReference with
          | true => rfl
          | false =>
              have hempty : s.database.reconnectLog = [] := by
                simpa [DropsNothing, drops, hframes, htable] using hdrops
              simp [unread, hempty]
    | environment hb => exact absurd hb (by simp)
  · refine ⟨dropped, ?_, hnone⟩
    have hne : ∀ w below, a = .lua → s.frames ≠ .think .takeReconnectEvents w :: below :=
      fun w below ha hframes => htake ⟨w, below, ha, hframes⟩
    cases logStep_of_step hstep with
    | grow new hlog hunread htaken => exact hI.of_grow hstep hne hlog hunread htaken
    | take ha hframes => exact absurd hframes (hne _ _ ha)

/-- What a callback tells of a reconnect event was logged. -/
def Truthful (s : State) : Callback → Prop
  | .database (.onReconnect n) => ∃ l, s.eventLog[n]? = some l ∧ l.success = true
  | .database (.onReconnectFailed n error) =>
      ∃ l, s.eventLog[n]? = some l ∧ l.success = false ∧ l.error = error
  | _ => True

lemma truthful_of_step {a : Action} {c : Callback} (h : Step s a t) (hc : s.Truthful c) :
    t.Truthful c := by
  unfold Truthful at hc ⊢
  split
  · obtain ⟨l, hl, hsuccess⟩ := hc
    exact ⟨l, getElem?_eventLog h hl, hsuccess⟩
  · obtain ⟨l, hl, hfailed⟩ := hc
    exact ⟨l, getElem?_eventLog h hl, hfailed⟩
  · trivial

theorem truthful_of_reach (h : machine.Reach C s) : ∀ c ∈ s.invoked, s.Truthful c := by
  refine machine_invariant (I := fun s => ∀ c ∈ s.invoked, s.Truthful c) (by simp)
    (fun s t a hr hI _ hstep => ?_) h
  suffices hnew : ∀ c ∈ t.invoked, s.Truthful c from
    fun c hc => truthful_of_step hstep (hnew c hc)
  intro c hc
  cases hstep with
  | environment => exact hI c hc
  | main =>
      rw [afterMain_invoked] at hc
      exact hI c hc
  | @lua f f' below effect t hidle hframes hnext ht =>
      have hc : c ∈ t.invoked := hc
      rw [(performed ht).invoked] at hc
      rcases List.mem_append.1 hc with hc | hc
      · exact hI c hc
      · obtain ⟨g, -, hinvokes⟩ := hnext.invokes (Option.mem_toList.1 hc)
        cases hinvokes with
        | connection => cases s.view.connectionSuccessful <;> trivial
        | @reconnect event rest w =>
            have hmem : event ∈ (Frame.think (.reconnectEvents (event :: rest)) w).events :=
              List.mem_cons_self
            obtain ⟨l, hl, hevent⟩ := (logs_of_reach hr).events _ (hframes ▸ List.mem_cons_self)
              event hmem
            rw [← hevent] at hl ⊢
            cases hsuccess : l.success with
            | true => 
                simp only [Logged.event, ReconnectEvent.callback, hsuccess, if_true]
                exact ⟨l, hl, hsuccess⟩
            | false =>
                simp only [Logged.event, ReconnectEvent.callback, hsuccess]
                exact ⟨l, hl, hsuccess, rfl⟩
        | finished | disconnected | aborted => trivial
  | call hidle huser hcall =>
      rw [(callStep_of_call hcall).called.invoked] at hc
      exact hI c hc

/-- **The ledger of reconnect events.**  In every run an event is announced once at most, by
`onReconnect` if the attempt succeeded and by `onReconnectFailed` with the logged error if it
failed, and none that was announced is still to be announced.  As long as no `think` without a
table takes events, each logged event is announced, in the list of a `think`, or in the log. -/
theorem reconnect_events_once (h : machine.Reach C s) :
    (s.announcements ++ s.unannounced).Nodup ∧ (∀ c ∈ s.invoked, s.Truthful c) ∧
      ((∀ s a, C s a → DropsNothing s a) →
        (s.announcements ++ s.unannounced).Perm (List.range s.eventLog.length)) := by
  obtain ⟨dropped, hbalanced, hnone⟩ := balanced_of_reach h
  have hnodup := (hbalanced.nodup_iff.2 List.nodup_range).of_append_left
  refine ⟨hnodup, truthful_of_reach h, fun hkeeps => ?_⟩
  rw [Balanced, hnone hkeeps, List.append_nil, (logs_of_reach h).logged] at hbalanced
  exact hbalanced

/-- The connection is lost twice: the worker thread connects again for a query, and the second
time `ping` tries to, in vain.  The next `think` has announced the first. -/
def lostTwiceRun : List Action :=
  connectSteps ++ connectedSteps ++ [.connectionLost] ++ startSteps 0 0 ++ workerSteps 13 ++
    [.worker (.connected none)] ++ workerSteps 4 ++ [.worker (.left none)] ++ workerSteps 9 ++
    [.connectionLost, .call .ping] ++ mainSteps 9 ++
    [.main (.connected (some "refused".toList))] ++ mainSteps 3 ++ .call .think :: luaSteps 6

set_option maxRecDepth 2000 in
theorem reconnect_events_once_lostTwiceRun :
    ∃ s, machine.runIf DropsNothing machine.init lostTwiceRun = some s ∧
      s.announcements = [0] ∧ s.unannounced = [1] ∧
      (s.announcements ++ s.unannounced).Nodup ∧ (∀ c ∈ s.invoked, s.Truthful c) ∧
      (s.announcements ++ s.unannounced).Perm (List.range s.eventLog.length) := by
  obtain ⟨s, hs⟩ : ∃ s, machine.runIf DropsNothing machine.init lostTwiceRun = some s := ⟨_, rfl⟩
  have hstate : (machine.runIf DropsNothing machine.init lostTwiceRun).map
      (fun s => (s.announcements, s.unannounced)) = some ([0], [1]) := rfl
  rw [hs] at hstate
  simp only [Option.map_some, Option.some.injEq, Prod.mk.injEq] at hstate
  obtain ⟨hannouncements, hunannounced⟩ := hstate
  obtain ⟨hnodup, htruthful, hall⟩ := reconnect_events_once (reach_of_runIf hs)
  exact ⟨s, hs, hannouncements, hunannounced, hnodup, htruthful, hall fun _ _ h => h⟩

end State

end GmsvPg.Lua
