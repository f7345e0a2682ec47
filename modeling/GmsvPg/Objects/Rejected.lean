/-
# Calls that throw

`start` and `connect` change the objects before the check that can fail.  Here a call is followed
to the point where it throws, while the other threads go on: it leaves the objects as they were
exactly when what `start` has added can be told apart from what was there, and when `connect`
finds the table referenced.
-/
import GmsvPg.Objects.Running

namespace GmsvPg.Objects

open Library Machine
open Database (Execution Choice MainPC)

/-! ### The course of a call -/

/-- The steps from the begin of an operation of `Database` to its end: of the main thread in it,
and meanwhile of the other threads. -/
def Action.inside : Action → Bool
  | .worker _ _ | .connectionLost _ | .main _ _ => true
  | _ => false

namespace State

variable {s t u v : State}

/-- The queues of the databases. -/
def queues (s : State) : List (List Execution) := s.databases.map fun o => o.layer.database.queue

/-- A step that is not the worker thread's leaves the queues as they are. -/
def Spares (s : State) (a : Action) (t : State) : Prop :=
  (∃ d c, a = .worker d c) ∨ t.queues = s.queues

/-- No step but those of the worker threads changes a queue. -/
def KeepsQueues (s : State) : List Action → Prop
  | [] => True
  | a :: as => ∀ t, machine.next s a = some t → s.Spares a t ∧ t.KeepsQueues as

/-- The objects are as they were. -/
structure NoTrace (s t : State) : Prop where
  runningQueryData :
    t.queries.map QueryObject.runningQueryData = s.queries.map QueryObject.runningQueryData
  hasBeenStarted :
    t.queries.map QueryObject.hasBeenStarted = s.queries.map QueryObject.hasBeenStarted
  tableReference :
    t.databases.map DatabaseObject.tableReference = s.databases.map DatabaseObject.tableReference
  outstanding : t.registry.outstanding = s.registry.outstanding

/-- A call leads to a state in which it has thrown. -/
structure Throws (s : State) (f : Call) (as : List Action) (t : State) : Prop where
  run : machine.run s (.call f :: as) = some t
  inside : ∀ a ∈ as, a.inside = true
  idle : t.idle = true
  thrown : t.thrown = s.thrown + 1

/-- No data staged in the transaction is in the list of its query, or the list has such data only,
in the order in which it was staged; and the table of the database is referenced already. -/
def Harmless (s : State) : Call → Prop
  | .start q _ => ∀ x : QueryObject, s.queries[q]? = some x →
      ∀ (c : ℕ) (y : QueryObject), s.queries[c]? = some y →
        (∀ data ∈ stagedData x.staged c, data ∉ y.runningQueryData) ∨
          y.runningQueryData.Sublist (stagedData x.staged c)
  | .database d .connect => ∀ o : DatabaseObject, s.databases[d]? = some o → o.tableReference ≠ 0
  | _ => True

/-! ### What the other threads leave -/

/-- The objects are the same, except for the layers of the databases. -/
structure SameObjects (s t : State) : Prop where
  queries : t.queries = s.queries
  registry : t.registry = s.registry
  thrown : t.thrown = s.thrown
  databases : t.databases.map (fun o => (o.tableReference, o.executions)) =
    s.databases.map fun o => (o.tableReference, o.executions)

lemma SameObjects.refl (s : State) : s.SameObjects s := ⟨rfl, rfl, rfl, rfl⟩

lemma SameObjects.trans (h : s.SameObjects t) (h' : t.SameObjects u) : s.SameObjects u :=
  ⟨h'.queries.trans h.queries, h'.registry.trans h.registry, h'.thrown.trans h.thrown,
    h'.databases.trans h.databases⟩

lemma sameObjects_setLayer (d : ℕ) (layer : Lua.State) : s.SameObjects (s.setLayer d layer) :=
  ⟨rfl, rfl, rfl, map_modify_eq fun _ _ => rfl⟩

lemma SameObjects.database (h : s.SameObjects t) {d : ℕ} {o : DatabaseObject}
    (ho : s.databases[d]? = some o) : ∃ o' : DatabaseObject, t.databases[d]? = some o' ∧
      o'.tableReference = o.tableReference ∧ o'.executions = o.executions := by
  have hsame := congrArg (·[d]?) h.databases
  simp only [List.getElem?_map, ho, Option.map_some] at hsame
  obtain ⟨o', ho', hsame⟩ := Option.map_eq_some_iff.1 hsame
  exact ⟨o', ho', congrArg Prod.fst hsame, congrArg Prod.snd hsame⟩

lemma queues_setLayer {d : ℕ} {o : DatabaseObject} {layer : Lua.State}
    (ho : s.databases[d]? = some o) (h : layer.database.queue = o.layer.database.queue) :
    (s.setLayer d layer).queues = s.queues :=
  map_modify_eq fun o' ho' => by
    obtain rfl := Option.some.inj (ho.symm.trans ho')
    exact h

/-- The main thread is at a point of an operation of the database, and in no other operation. -/
structure AtWork (s : State) (d : ℕ) (P : MainPC → Prop) : Prop where
  point : ∃ o, s.databases[d]? = some o ∧ P o.layer.database.mainPC
  others : ∀ (i : ℕ) (o : DatabaseObject), i ≠ d → s.databases[i]? = some o →
    o.layer.database.mainPC = .idle

lemma AtWork.not_idle {d : ℕ} {P : MainPC → Prop} (h : s.AtWork d P) (hP : ¬ P .idle) :
    s.idle = false := by
  obtain ⟨o, ho, hpoint⟩ := h.point
  cases hidle : s.idle with
  | false => rfl
  | true => exact absurd (idle_database hidle ho ▸ hpoint) hP

lemma database_setLayer {d i : ℕ} {o' : DatabaseObject} {layer : Lua.State}
    (h : (s.setLayer d layer).databases[i]? = some o') :
    ∃ o : DatabaseObject, s.databases[i]? = some o ∧
      o'.layer = if d = i then layer else o.layer := by
  rw [setLayer, modifyDatabase, List.getElem?_modify] at h
  obtain ⟨o, ho, rfl⟩ := Option.map_eq_some_iff.1 h
  refine ⟨o, ho, ?_⟩
  split <;> rfl

/-- The main thread goes on in the operation. -/
lemma AtWork.setLayer {d : ℕ} {P Q : MainPC → Prop} (h : s.AtWork d P) {layer : Lua.State}
    (hQ : Q layer.database.mainPC) : (s.setLayer d layer).AtWork d Q := by
  obtain ⟨o, ho, -⟩ := h.point
  refine ⟨⟨{ o with layer := layer }, ?_, hQ⟩, fun i o' hi ho' => ?_⟩
  · rw [State.setLayer, modifyDatabase, List.getElem?_modify_eq, ho]
    rfl
  · obtain ⟨o, ho, hlayer⟩ := database_setLayer ho'
    rw [hlayer, if_neg hi.symm]
    exact h.others i o hi ho

/-- The main thread leaves the operation. -/
lemma AtWork.leaves {d : ℕ} {P : MainPC → Prop} (h : s.AtWork d P) {layer : Lua.State}
    (hidle : layer.database.mainPC = .idle) : (s.setLayer d layer).idle = true := by
  refine List.all_eq_true.2 fun o' ho' => decide_eq_true ?_
  obtain ⟨i, hi⟩ := List.mem_iff_getElem?.1 ho'
  obtain ⟨o, ho, hlayer⟩ := database_setLayer hi
  rw [hlayer]
  split
  · exact hidle
  · rename_i hne
    exact h.others i o (fun heq => hne heq.symm) ho

/-! ### The steps of the other threads -/

/-- What a step of the other threads does: it moves a layer, but not the main thread in it. -/
structure OtherStep (s : State) (a : Action) (t : State) (i : ℕ) (o : DatabaseObject)
    (layer : Lua.State) : Prop where
  database : s.databases[i]? = some o
  state : t = s.setLayer i layer
  mainPC : layer.database.mainPC = o.layer.database.mainPC
  spares : s.Spares a t

lemma otherStep_of_thread {a : Action} {i : ℕ} {o : DatabaseObject} {b : Lua.Action}
    {layer : Lua.State}
    (ha : (∃ c, a = .worker i c ∧ b = .worker c) ∨ a = .connectionLost i ∧ b = .connectionLost)
    (ho : s.databases[i]? = some o) (hlayer : Lua.machine.next o.layer b = some layer) :
    s.OtherStep a (s.setLayer i layer) i o layer := by
  have hpc := mainPC_of_environment (by rcases ha with ⟨c, -, rfl⟩ | ⟨-, rfl⟩ <;> simp) hlayer
  refine ⟨ho, rfl, hpc, ?_⟩
  rcases ha with ⟨c, rfl, rfl⟩ | ⟨rfl, rfl⟩
  · exact .inl ⟨i, c, rfl⟩
  · refine .inr (queues_setLayer ho ?_)
    have hlayer : o.layer.step .connectionLost = some layer := hlayer
    obtain ⟨v, hv, rfl⟩ := Lua.State.step_eq_some.1 hlayer
    cases Database.step_of_next hv with
    | connectionLost => rfl

/-- Outside of every operation only the other threads go on. -/
lemma otherStep_of_idle {a : Action} (hidle : s.idle = true) (ha : a.inside = true)
    (h : machine.next s a = some t) :
    ∃ i o layer, s.OtherStep a t i o layer := by
  cases step_of_next h with
  | @thread a i o b layer hthread ho hlayer =>
      exact ⟨i, o, layer, otherStep_of_thread hthread ho hlayer⟩
  | @main d c o layer ho hlayer =>
      cases Lua.step_of_next hlayer with
      | environment hb => rcases hb with ⟨c, hc, -⟩ | ⟨hc, -⟩ <;> cases hc
      -- the main thread is in no operation
      | main hpc => exact absurd (idle_database hidle ho) hpc
  | go | call | collectQuery | collectDatabase | close => cases ha

namespace OtherStep

variable {a : Action} {i : ℕ} {o : DatabaseObject} {layer : Lua.State}

lemma sameObjects (h : s.OtherStep a t i o layer) : s.SameObjects t := by
  rw [h.state]
  exact sameObjects_setLayer i layer

lemma mainPC_eq (h : s.OtherStep a t i o layer) {j : ℕ} {v : DatabaseObject}
    (hv : t.databases[j]? = some v) : ∃ u : DatabaseObject, s.databases[j]? = some u ∧
      v.layer.database.mainPC = u.layer.database.mainPC := by
  rw [h.state] at hv
  obtain ⟨u, hu, hlayer⟩ := database_setLayer hv
  refine ⟨u, hu, ?_⟩
  rw [hlayer]
  split
  · rename_i hi
    subst hi
    obtain rfl := Option.some.inj (h.database.symm.trans hu)
    exact h.mainPC
  · rfl

lemma idle (h : s.OtherStep a t i o layer) (hidle : s.idle = true) : t.idle = true := by
  refine List.all_eq_true.2 fun v hv => decide_eq_true ?_
  obtain ⟨j, hj⟩ := List.mem_iff_getElem?.1 hv
  obtain ⟨u, hu, hpc⟩ := h.mainPC_eq hj
  exact hpc.trans (idle_database hidle hu)

lemma atWork (h : s.OtherStep a t i o layer) {d : ℕ} {P : MainPC → Prop}
    (hwork : s.AtWork d P) : t.AtWork d P := by
  refine ⟨?_, fun j v hj hv => ?_⟩
  · obtain ⟨u, hu, hpoint⟩ := hwork.point
    obtain ⟨v, hv, -⟩ := h.sameObjects.database hu
    obtain ⟨u', hu', hpc⟩ := h.mainPC_eq hv
    obtain rfl := Option.some.inj (hu.symm.trans hu')
    exact ⟨v, hv, hpc ▸ hpoint⟩
  · obtain ⟨u, hu, hpc⟩ := h.mainPC_eq hv
    exact hpc.trans (hwork.others j u hj hu)

end OtherStep

/-! ### Runs to the end of an operation -/

lemma keepsQueues_cons {a : Action} {as : List Action} (h : machine.next s a = some t)
    (hspares : s.Spares a t) (hrest : t.KeepsQueues as) : s.KeepsQueues (a :: as) := by
  intro t' ht'
  obtain rfl := Option.some.inj (h.symm.trans ht')
  exact ⟨hspares, hrest⟩

/-- After the end of an operation the objects stay. -/
lemma run_idle {as : List Action} (hs : s.idle = true) (has : ∀ a ∈ as, a.inside = true)
    (hrun : machine.run s as = some t) : s.KeepsQueues as ∧ s.SameObjects t := by
  induction as generalizing s with
  | nil =>
      obtain rfl := Option.some.inj hrun
      exact ⟨trivial, .refl s⟩
  | cons a as ih =>
      obtain ⟨u, hu, hrun⟩ := Option.bind_eq_some_iff.1 hrun
      obtain ⟨i, o, layer, hother⟩ := otherStep_of_idle hs (has a List.mem_cons_self) hu
      obtain ⟨hkeeps, hsame⟩ :=
        ih (hother.idle hs) (fun b hb => has b (List.mem_cons_of_mem a hb)) hrun
      exact ⟨keepsQueues_cons hu hother.spares hkeeps, hother.sameObjects.trans hsame⟩

/-- A run through an operation that is left in two ways: as `R` says, or without a throw. -/
theorem run_inside {P R : State → Prop} {n : ℕ} (hP : ∀ u, P u → u.idle = false)
    (hstep : ∀ u v a, P u → a.inside = true → machine.next u a = some v →
      P v ∧ u.Spares a v ∨ v.idle = true ∧ v.thrown = n ∨ v.idle = true ∧ R v ∧ u.Spares a v)
    {as : List Action} (hs : P s) (has : ∀ a ∈ as, a.inside = true)
    (hrun : machine.run s as = some t) (hidle : t.idle = true) (hthrown : t.thrown ≠ n) :
    s.KeepsQueues as ∧ ∃ v, R v ∧ v.SameObjects t := by
  induction as generalizing s with
  | nil =>
      obtain rfl := Option.some.inj hrun
      exact absurd (hidle.symm.trans (hP s hs)) (by simp)
  | cons a as ih =>
      obtain ⟨u, hu, hrun⟩ := Option.bind_eq_some_iff.1 hrun
      have hrest : ∀ b ∈ as, b.inside = true := fun b hb => has b (List.mem_cons_of_mem a hb)
      -- the operation goes on, or it has ended here and `run_idle` says what follows
      rcases hstep s u a hs (has a List.mem_cons_self) hu with
        ⟨hu', hspares⟩ | ⟨hidle', hn⟩ | ⟨hidle', hR, hspares⟩
      · obtain ⟨hkeeps, hend⟩ := ih hu' hrest hrun
        exact ⟨keepsQueues_cons hu hspares hkeeps, hend⟩
      · exact absurd ((run_idle hidle' hrest hrun).2.thrown.trans hn) hthrown
      · obtain ⟨hkeeps, hsame⟩ := run_idle hidle' hrest hrun
        exact ⟨keepsQueues_cons hu hspares hkeeps, u, hR, hsame⟩

/-! ### `start` -/

/-- What is left after a call of `start` that has thrown: the data staged in the query was added
and finished again. -/
structure Undone (s : State) (x : QueryObject) (t : State) : Prop where
  length : t.queries.length = s.queries.length
  queries : ∀ (c : ℕ) (y : QueryObject), s.queries[c]? = some y →
    t.queries[c]? = some { y with
      runningQueryData :=
        finishAll (stagedData x.staged c) (y.runningQueryData ++ stagedData x.staged c) }
  tableReference :
    t.databases.map DatabaseObject.tableReference = s.databases.map DatabaseObject.tableReference
  outstanding : t.registry.outstanding = s.registry.outstanding

lemma SameObjects.undone {x : QueryObject} (h : t.SameObjects u) (hundone : s.Undone x t) :
    s.Undone x u := by
  refine ⟨?_, ?_, ?_, ?_⟩
  · rw [h.queries]
    exact hundone.length
  · rw [h.queries]
    exact hundone.queries
  · have htables := congrArg (List.map Prod.fst) h.databases
    rw [List.map_map, List.map_map] at htables
    exact htables.trans hundone.tableReference
  · rw [h.registry]
    exact hundone.outstanding

lemma tables_modify {f : DatabaseObject → DatabaseObject} (l : List DatabaseObject) (d : ℕ)
    (hf : ∀ o, (f o).tableReference = o.tableReference) :
    (l.modify d f).map DatabaseObject.tableReference = l.map DatabaseObject.tableReference :=
  map_modify_eq fun o _ => hf o

/-- The callbacks that were referenced are released. -/
lemma outstanding_referenceCallbacks (r : Registry) (fields : CallbackFields) :
    ((referenceCallbacks r fields).2.releaseAll
      (referenceCallbacks r fields).1.fields).outstanding = r.outstanding := by
  rw [Registry.outstanding_releaseAll]
  simp only [referenceCallbacks, CallbackReferences.fields, Registry.heldAll_cons,
    Registry.heldAll_nil, Registry.outstanding_createIf, Multiset.card_add, Multiset.card_zero]
  omega

/-- A query has no data staged for it in itself. -/
lemma Running.stagedData_self (h : s.Running) {q : ℕ} {x : QueryObject}
    (hx : s.queries[q]? = some x) : Objects.stagedData x.staged q = [] := by
  cases hu : x.isTransaction with
  | true => exact h.stagedData_eq_nil hx hx hu
  | false =>
      rw [h.staged_eq_nil hx hu]
      rfl

/-- The check that the transaction was not started has thrown. -/
lemma Running.undone_throws (h : s.Running) {q n : ℕ} {fields : CallbackFields} {x : QueryObject}
    {o : DatabaseObject} {e : Execution} (hx : s.queries[q]? = some x)
    (ho : s.databases[x.database]? = some o) (he : e = o.layer.database.newExecution q n) :
    s.Undone x (({ s.addStaged x.staged with
      registry := (referenceCallbacks s.registry fields).2 } : State).finishData q (.execution e)
        ⟨q, (referenceCallbacks s.registry fields).1, x.staged, false⟩).throw := by
  refine ⟨(h.trims_throws hx).length, fun c y hy => ?_, ?_, ?_⟩
  · rw [Reruns.throws x.staged _ q e _ c, hy]
    refine congrArg some (congrArg (fun l => { y with runningQueryData := l }) ?_)
    show (if q = c then _ else _ : List Data) = _
    split
    · rename_i hc
      subst hc
      obtain rfl := Option.some.inj (hx.symm.trans hy)
      rw [h.stagedData_self hx, List.append_nil]
      exact finishQueryData_of_notMem (he ▸ h.notMem_execution hx ho)
    · rfl
  · rw [databases_throws]
  · rw [throw, finishData_eq]
    exact outstanding_referenceCallbacks s.registry fields

/-- The data of the execution is found while it is being enqueued. -/
lemma executionData_of_begun {q n : ℕ} {x : QueryObject} {o : DatabaseObject} {e : Execution}
    {r : Registry} {layer layer' : Lua.State} {data : ExecutionData}
    (ho : s.databases[x.database]? = some o) (he : e = o.layer.database.newExecution q n)
    (hcounted : o.executions.length = o.layer.database.started)
    (hsame : (s.begun q x e r layer data).SameObjects u) :
    (u.setLayer x.database layer').executionData x.database e = some data := by
  have hdata : e.data = o.executions.length := by rw [hcounted, he]; rfl
  obtain ⟨o', ho', -, hexecutions⟩ := hsame.database (d := x.database)
    (o := { o with layer := layer, executions := o.executions ++ [data] })
    (by rw [databases_begun, List.getElem?_modify_eq, ho]; rfl)
  rw [executionData, setLayer, modifyDatabase, List.getElem?_modify_eq, ho']
  show o'.executions[e.data]? = _
  rw [hexecutions, hdata]
  exact List.getElem?_concat_length

/-- `enqueueQuery` has thrown. -/
lemma Running.undone_finish (h : s.Running) {q n : ℕ} {fields : CallbackFields} {x : QueryObject}
    {o : DatabaseObject} {e : Execution} {layer layer' : Lua.State} (hx : s.queries[q]? = some x)
    (ho : s.databases[x.database]? = some o) (he : e = o.layer.database.newExecution q n)
    (hcounted : o.executions.length = o.layer.database.started)
    (hsame : (s.begun q x e (referenceCallbacks s.registry fields).2 layer
      ⟨q, (referenceCallbacks s.registry fields).1, x.staged, false⟩).SameObjects u) :
    s.Undone x ((u.setLayer x.database layer').finishLuaQueryData x.database e).throw := by
  have hquery : e.query = q := by rw [he]; rfl
  rw [finishLuaQueryData, executionData_of_begun ho he hcounted hsame]
  refine ⟨?_, fun c y hy => ?_, ?_, ?_⟩
  · have hlength : (u.setLayer x.database layer').queries.length = s.queries.length := by
      show u.queries.length = _
      rw [hsame.queries]
      exact unstages_begun.length
    exact (trims_finishData e.query (.execution e) _).length.trans hlength
  · have hbegun : s.Reruns u fun c l =>
        l ++ Objects.stagedData x.staged c ++ if q = c then [.execution e] else [] :=
      fun c => (congrArg (·[c]?) hsame.queries).trans (reruns_begun c)
    have hfinished : u.Reruns ((u.setLayer x.database layer').finishData e.query (.execution e)
        ⟨q, (referenceCallbacks s.registry fields).1, x.staged, false⟩) fun c l =>
          if e.query = c then Objects.finishQueryData (.execution e)
            (finishAll (Objects.stagedData x.staged c) l)
          else finishAll (Objects.stagedData x.staged c) l :=
      reruns_finishData (s := u.setLayer x.database layer') e.query (.execution e) _
    refine ((hbegun.trans hfinished) c).trans ?_
    rw [hy, hquery]
    refine congrArg some (congrArg (fun l => { y with runningQueryData := l }) ?_)
    show (if q = c then _ else _ : List Data) = _
    split
    · rename_i hc
      subst hc
      obtain rfl := Option.some.inj (hx.symm.trans hy)
      rw [h.stagedData_self hx, List.append_nil]
      -- the execution was added last, and is in its list once
      exact finishQueryData_append (he ▸ h.notMem_execution hx ho)
    · rw [List.append_nil]
  · show (((u.setLayer x.database layer').finishData e.query (.execution e)
      _).databases.modify _ _).map DatabaseObject.tableReference = _
    have htables := congrArg (List.map Prod.fst) hsame.databases
    rw [List.map_map, List.map_map, databases_begun] at htables
    rw [tables_modify, finishData_eq]
    · refine (tables_modify _ _ ?_).trans (htables.trans (tables_modify _ _ ?_))
      all_goals exact fun _ => rfl
    · exact fun _ => rfl
  · show ((u.setLayer x.database layer').finishData e.query (.execution e)
      _).registry.outstanding = _
    rw [finishData_eq]
    show (u.registry.releaseAll _).outstanding = _
    rw [hsame.registry]
    exact outstanding_referenceCallbacks s.registry fields

/-- A list is what it was exactly when the call is harmless. -/
lemma Running.noTrace_iff (h : s.Running) {q : ℕ} {fields : CallbackFields} {x : QueryObject}
    (hx : s.queries[q]? = some x) (hundone : s.Undone x t) :
    s.NoTrace t ↔ s.Harmless (.start q fields) := by
  have hlist : ∀ (c : ℕ) (y : QueryObject), s.queries[c]? = some y →
      (finishAll (Objects.stagedData x.staged c)
        (y.runningQueryData ++ Objects.stagedData x.staged c) = y.runningQueryData ↔
          (∀ data ∈ Objects.stagedData x.staged c, data ∉ y.runningQueryData) ∨
            y.runningQueryData.Sublist (Objects.stagedData x.staged c)) :=
    fun c y hy => finishAll_append (h.nodup c y hy) (h.nodup_stagedData hx c)
  constructor
  · intro hnone x' hx' c y hy
    obtain rfl := Option.some.inj (hx.symm.trans hx')
    refine (hlist c y hy).1 ?_
    have hget := congrArg (·[c]?) hnone.runningQueryData
    simp only [List.getElem?_map, hundone.queries c y hy, hy, Option.map_some] at hget
    exact Option.some.inj hget
  · intro hharmless
    have hqueries : t.queries = s.queries := by
      refine List.ext_getElem? fun c => ?_
      cases hy : s.queries[c]? with
      | none =>
          refine List.getElem?_eq_none ?_
          rw [hundone.length]
          exact List.getElem?_eq_none_iff.1 hy
      | some y => rw [hundone.queries c y hy, (hlist c y hy).2 (hharmless x hx c y hy)]
    exact ⟨by rw [hqueries], by rw [hqueries], hundone.tableReference, hundone.outstanding⟩

/-- The layers of the databases are the same. -/
def SameLayers (s t : State) : Prop :=
  t.databases.map DatabaseObject.layer = s.databases.map DatabaseObject.layer

lemma SameLayers.of_eq (h : t.databases = s.databases) : s.SameLayers t := by
  rw [SameLayers, h]

lemma Same.sameLayers (h : s.Same t) : s.SameLayers t := by
  have hlayers : ∀ v : State, v.databases.map DatabaseObject.layer = v.cores.map Core.layer := by
    intro v
    show _ = (v.databases.map DatabaseObject.core).map Core.layer
    rw [List.map_map]
    rfl
  rw [SameLayers, hlayers, hlayers, h.cores]

lemma SameLayers.idle_eq (h : s.SameLayers t) : t.idle = s.idle := by
  have hlayers : ∀ v : State, v.idle = (v.databases.map DatabaseObject.layer).all fun l =>
      decide (l.database.mainPC = .idle) := by
    intro v
    rw [List.all_map]
    rfl
  rw [hlayers, hlayers, h]

lemma SameLayers.queues_eq (h : s.SameLayers t) : t.queues = s.queues := by
  have hlayers : ∀ v : State, v.queues =
      (v.databases.map DatabaseObject.layer).map fun l => l.database.queue := by
    intro v
    rw [List.map_map]
    rfl
  rw [hlayers, hlayers, h]

lemma SameLayers.database (h : s.SameLayers t) {d : ℕ} {o : DatabaseObject}
    (ho : s.databases[d]? = some o) :
    ∃ o' : DatabaseObject, t.databases[d]? = some o' ∧ o'.layer = o.layer := by
  have hlayer := congrArg (·[d]?) h
  simp only [List.getElem?_map, ho, Option.map_some] at hlayer
  exact Option.map_eq_some_iff.1 hlayer

/-- The main thread takes no step in a database in which it is in no operation. -/
lemma AtWork.main_eq {d i : ℕ} {P : MainPC → Prop} (h : s.AtWork d P) {o : DatabaseObject}
    {c : Choice} {layer : Lua.State} (ho : s.databases[i]? = some o)
    (hlayer : Lua.machine.next o.layer (.main c) = some layer) : i = d := by
  by_contra hne
  cases Lua.step_of_next hlayer with
  | environment hb => rcases hb with ⟨c, hc, -⟩ | ⟨hc, -⟩ <;> cases hc
  | main hpc => exact hpc (h.others i o hne ho)

/-- A step in the course of `enqueueQuery` in a call of `start`, from the state `b` in which it
begins. -/
lemma Running.enqueue_step (h : s.Running) {q n : ℕ} {fields : CallbackFields} {x : QueryObject}
    {o : DatabaseObject} {e : Execution} {layer : Lua.State} {b : State}
    (hx : s.queries[q]? = some x) (ho : s.databases[x.database]? = some o)
    (he : e = o.layer.database.newExecution q n)
    (hcounted : o.executions.length = o.layer.database.started)
    (hb : b = s.begun q x e (referenceCallbacks s.registry fields).2 layer
      ⟨q, (referenceCallbacks s.registry fields).1, x.staged, false⟩)
    {a : Action} (hsame : b.SameObjects u)
    (hwork : u.AtWork x.database fun pc => ∃ stage, pc = .enqueue e stage)
    (ha : a.inside = true) (hnext : machine.next u a = some v) :
    (b.SameObjects v ∧ v.AtWork x.database fun pc => ∃ stage, pc = .enqueue e stage) ∧
        u.Spares a v ∨
      v.idle = true ∧ v.thrown = s.thrown ∨ v.idle = true ∧ s.Undone x v ∧ u.Spares a v := by
  cases step_of_next hnext with
  | @thread a i o' b' layer' hthread ho' hlayer' =>
      have hother := otherStep_of_thread hthread ho' hlayer'
      exact .inl ⟨⟨hsame.trans hother.sameObjects, hother.atWork hwork⟩, hother.spares⟩
  | @main i c o' layer' ho' hlayer' =>
      obtain rfl := hwork.main_eq ho' hlayer'
      obtain ⟨o'', ho'', henqueuing⟩ := hwork.point
      obtain rfl := Option.some.inj (ho'.symm.trans ho'')
      have hstep := startStep_of_main (s := u) (d := x.database) hlayer' henqueuing
      generalize (u.setLayer x.database layer').afterMain x.database o'.layer.database.mainPC
        layer'.database.mainPC = v at hstep
      cases hstep with
      | inside hinside hqueue =>
          exact .inl ⟨⟨hsame.trans (sameObjects_setLayer _ _), hwork.setLayer hinside⟩,
            .inr (queues_setLayer ho' hqueue)⟩
      | accepted hidle =>
          exact .inr (.inl ⟨hwork.leaves hidle, hsame.thrown.trans (hb ▸ thrown_begun)⟩)
      | throws hidle hqueue =>
          -- the catch block of `start` finishes the data that was built
          have hfinish :=
            (same_finishLuaQueryData (s := u.setLayer x.database layer') x.database e).sameLayers
          refine .inr (.inr ⟨hfinish.idle_eq.trans (hwork.leaves hidle), ?_,
            .inr (hfinish.queues_eq.trans (queues_setLayer ho' hqueue))⟩)
          exact h.undone_finish hx ho he hcounted (hb ▸ hsame)
  | go | call | collectQuery | collectDatabase | close => cases ha

end State

/-! ### `connect` -/

/-- How `Database::connect` goes on: inside the operation, to its end, or out of it by an
exception. -/
inductive ConnectStep (s t : Database.State) : Prop
  | inside {stage stage' : Database.ConnectCallStage} (hpc : s.mainPC = .connect stage)
      (hnext : t.mainPC = .connect stage') (hqueue : t.queue = s.queue)
  | connects (hpc : s.mainPC = .connect .spawn) (hidle : t.mainPC = .idle)
  | throws {stage : Database.ConnectCallStage} (hpc : s.mainPC = .connect stage)
      (hstage : stage = .testStatus ∨ stage = .exchange) (hidle : t.mainPC = .idle)
      (hqueue : t.queue = s.queue)

lemma connectStep_of_next {s t : Database.State} {c : Choice} {stage : Database.ConnectCallStage}
    (h : Database.system.next s (.main c) = some t) (hpc : s.mainPC = .connect stage) :
    ConnectStep s t := by
  cases Database.step_of_next h with
  | spawn hspawn => exact .connects hspawn rfl
  | join hjoin =>
      rw [hpc] at hjoin
      cases hjoin
  | @main c a pc hspawn hnext =>
      rw [hpc] at hnext
      have hnext : stage.next s.toShared = (a, pc) := Option.some.inj hnext
      cases stage with
      | testStatus =>
          obtain ⟨rfl, rfl⟩ := Prod.mk.inj hnext
          by_cases hstatus : s.status = .notConnected
          · exact .inside hpc (if_pos hstatus) rfl
          · exact .throws hpc (.inl rfl) (if_neg hstatus) rfl
      | exchange =>
          simp only [Database.ConnectCallStage.next] at hnext
          split at hnext <;> obtain ⟨rfl, rfl⟩ := Prod.mk.inj hnext
          · exact .throws hpc (.inr rfl) rfl rfl
          · exact .inside hpc rfl rfl
      | storeCanWait | storeConnecting =>
          obtain ⟨rfl, rfl⟩ := Prod.mk.inj hnext
          exact .inside hpc rfl rfl
      | spawn => exact absurd hpc hspawn

namespace State

variable {s t u v : State}

/-- A step in the course of a call of `connect`, from the state `b` in which it begins. -/
lemma connect_step {d : ℕ} {a : Action} {b : State} (hsame : b.SameObjects u)
    (hwork : u.AtWork d fun pc => ∃ stage, pc = .connect stage)
    (ha : a.inside = true) (hnext : machine.next u a = some v) :
    (b.SameObjects v ∧ v.AtWork d fun pc => ∃ stage, pc = .connect stage) ∧ u.Spares a v ∨
      v.idle = true ∧ v.thrown = b.thrown ∨
        v.idle = true ∧ b.throw.SameObjects v ∧ u.Spares a v := by
  cases step_of_next hnext with
  | @thread a i o layer' layer hthread ho hlayer =>
      have hother := otherStep_of_thread hthread ho hlayer
      exact .inl ⟨⟨hsame.trans hother.sameObjects, hother.atWork hwork⟩, hother.spares⟩
  | @main i c o layer ho hlayer =>
      obtain rfl := hwork.main_eq ho hlayer
      obtain ⟨o', ho', stage, hpc⟩ := hwork.point
      obtain rfl := Option.some.inj (ho.symm.trans ho')
      have hlayerSame := hsame.trans (sameObjects_setLayer i layer)
      cases connectStep_of_next (database_of_main hlayer) hpc with
      | @inside stage stage' hpc hnext hqueue =>
          have hafter : (u.setLayer i layer).afterMain i (.connect stage) (.connect stage') =
              u.setLayer i layer := by cases stage <;> simp [afterMain]
          rw [hpc, hnext, hafter]
          exact .inl ⟨⟨hlayerSame, hwork.setLayer ⟨stage', hnext⟩⟩,
            .inr (queues_setLayer ho hqueue)⟩
      | connects hpc hidle =>
          rw [hpc, hidle]
          exact .inr (.inl ⟨hwork.leaves hidle, hsame.thrown⟩)
      | @throws stage hpc hstage hidle hqueue =>
          have hafter : (u.setLayer i layer).afterMain i (.connect stage) .idle =
              (u.setLayer i layer).throw := by rcases hstage with rfl | rfl <;> rfl
          rw [hpc, hidle, hafter]
          -- `connect` has no catch block: the objects stay as they were when it began
          refine .inr (.inr ⟨hwork.leaves hidle, ?_, .inr (queues_setLayer ho hqueue)⟩)
          exact ⟨hlayerSame.queries, hlayerSame.registry, congrArg (· + 1) hlayerSame.thrown,
            hlayerSame.databases⟩
  | go | call | collectQuery | collectDatabase | close => cases ha

/-! ### The calls -/

/-- A call has begun an operation of a database. -/
lemma atWork_of_modify (hidle : s.idle = true) {d : ℕ} {o : DatabaseObject} {layer : Lua.State}
    {f : DatabaseObject → DatabaseObject} {P : MainPC → Prop} (ho : s.databases[d]? = some o)
    (ht : t.databases = s.databases.modify d f) (hf : ∀ o, (f o).layer = layer)
    (hP : P layer.database.mainPC) : t.AtWork d P := by
  refine ⟨⟨f o, ?_, ?_⟩, fun i o' hi ho' => ?_⟩
  · rw [ht, List.getElem?_modify_eq, ho]
    rfl
  · rwa [hf]
  · rw [ht, List.getElem?_modify_ne _ _ hi.symm] at ho'
    exact idle_database hidle ho'

/-- What begins has not changed the queues. -/
lemma queues_of_modify {d : ℕ} {o : DatabaseObject} {layer : Lua.State}
    {f : DatabaseObject → DatabaseObject} (ho : s.databases[d]? = some o)
    (ht : t.databases = s.databases.modify d f) (hf : ∀ o, (f o).layer = layer)
    (hqueue : layer.database.queue = o.layer.database.queue) : t.queues = s.queues := by
  rw [queues, ht]
  refine map_modify_eq fun o' ho' => ?_
  obtain rfl := Option.some.inj (ho.symm.trans ho')
  rw [hf, hqueue]

/-- A call of `start` that throws: the queues are kept, and what it has added is undone. -/
lemma undone_of_throws (h : machine.Reachable s) {q : ℕ} {fields : CallbackFields}
    {as : List Action} (hthrows : s.Throws (.start q fields) as t) :
    s.KeepsQueues (.call (.start q fields) :: as) ∧
      ∃ x, s.queries[q]? = some x ∧ s.Undone x t := by
  have hI := running_of_reach h
  obtain ⟨u, hu, hrun⟩ := Option.bind_eq_some_iff.1 hthrows.run
  cases step_of_next hu with
  | thread hthread => rcases hthread with ⟨c, hc, -⟩ | ⟨hc, -⟩ <;> cases hc
  | @call f u hidle huser hcall =>
      cases hcall with
      | @startThrows q fields x o queries e hx ho hqueries he ht hstarted =>
          -- the transaction was started: it throws before an operation of `Database` begins
          subst hqueries
          obtain ⟨hx, -⟩ := query_of_live hx
          have hdatabases := databases_throws (s := s) x.staged
            (referenceCallbacks s.registry fields).2 q (.execution e)
            ⟨q, (referenceCallbacks s.registry fields).1, x.staged, false⟩
          have hlayers := SameLayers.of_eq hdatabases
          obtain ⟨hkeeps, hsame⟩ := run_idle (hlayers.idle_eq.trans hidle) hthrows.inside hrun
          exact ⟨keepsQueues_cons hu (.inr hlayers.queues_eq) hkeeps, x, hx,
            hsame.undone (hI.undone_throws hx ho he)⟩
      | @start q fields x o queries e layer hx ho hqueries he hstarted hlayer =>
          subst hqueries
          obtain ⟨hx, -⟩ := query_of_live hx
          have hcounted : o.executions.length = o.layer.database.started := by
            have hlength := counted h o.built (List.mem_of_getElem? (built_of_database ho))
            exact List.length_map _ ▸ hlength
          have hdatabase := database_of_start hlayer
          rw [← he] at hdatabase
          obtain ⟨b, hb⟩ : ∃ b, b = s.begun q x e (referenceCallbacks s.registry fields).2 layer
              ⟨q, (referenceCallbacks s.registry fields).1, x.staged, false⟩ := ⟨_, rfl⟩
          have hdatabases := hb ▸ databases_begun
          have hwork : b.AtWork x.database fun pc => ∃ stage, pc = .enqueue e stage :=
            atWork_of_modify hidle ho hdatabases (fun _ => rfl)
              ⟨_, congrArg Database.State.mainPC hdatabase⟩
          have hqueues : b.queues = s.queues := queues_of_modify ho hdatabases (fun _ => rfl)
            (by rw [hdatabase])
          have hu : machine.next s (.call (.start q fields)) = some b := hb ▸ hu
          have hrun : machine.run b as = some t := hb ▸ hrun
          obtain ⟨hkeeps, v, hundone, hsame⟩ := run_inside
            (P := fun u => b.SameObjects u ∧
              u.AtWork x.database fun pc => ∃ stage, pc = .enqueue e stage)
            (fun u hP => hP.2.not_idle (by simp))
            (fun u v a hP ha hnext => hI.enqueue_step hx ho he hcounted hb hP.1 hP.2 ha hnext)
            ⟨.refl b, hwork⟩ hthrows.inside hrun hthrows.idle (by rw [hthrows.thrown]; omega)
          exact ⟨keepsQueues_cons hu (.inr hqueues) hkeeps, x, hx, hsame.undone hundone⟩

lemma thrown_referenceTable (d : ℕ) (o : DatabaseObject) :
    (s.referenceTable d o).thrown = s.thrown := by
  unfold referenceTable
  split <;> rfl

lemma sameLayers_referenceTable (d : ℕ) (o : DatabaseObject) :
    s.SameLayers (s.referenceTable d o) := by
  unfold referenceTable
  split
  · exact map_modify_eq fun _ _ => rfl
  · exact .of_eq rfl

/-- `connect` begins. -/
lemma database_of_connect {l layer : Lua.State}
    (h : Lua.machine.next l (.call .connect) = some layer) :
    layer.database = { l.database with mainPC := .connect .testStatus } := by
  cases Lua.step_of_next h with
  | environment hb => rcases hb with ⟨c, hc, -⟩ | ⟨hc, -⟩ <;> cases hc
  | @call f t hidle huser hcall =>
      obtain ⟨v, hv, rfl⟩ := Lua.State.step_eq_some.1 hcall
      have hv : (if l.database.mainPC = .idle then
          some { l.database with mainPC := .connect .testStatus } else none) = some v := hv
      rw [if_pos hidle] at hv
      obtain rfl := Option.some.inj hv
      rfl

/-- A call of `connect` that throws has referenced the table, if it was not. -/
lemma sameObjects_of_throws {d : ℕ} {as : List Action}
    (hthrows : s.Throws (.database d .connect) as t) :
    s.KeepsQueues (.call (.database d .connect) :: as) ∧
      ∃ o, s.databases[d]? = some o ∧ (s.referenceTable d o).throw.SameObjects t := by
  obtain ⟨u, hu, hrun⟩ := Option.bind_eq_some_iff.1 hthrows.run
  cases step_of_next hu with
  | thread hthread => rcases hthread with ⟨c, hc, -⟩ | ⟨hc, -⟩ <;> cases hc
  | @call f u hidle huser hcall =>
      cases hcall with
      | database ho hf => exact absurd rfl hf.1
      | @connect d o layer ho hlayer =>
          obtain ⟨ho, -⟩ := database_of_live ho
          have hdatabase := database_of_connect hlayer
          have hlayers := s.sameLayers_referenceTable d o
          obtain ⟨o', ho', hlayer'⟩ := hlayers.database ho
          have hwork : ((s.referenceTable d o).setLayer d layer).AtWork d
              fun pc => ∃ stage, pc = .connect stage :=
            atWork_of_modify (hlayers.idle_eq.trans hidle) ho' rfl (fun _ => rfl)
              ⟨_, congrArg Database.State.mainPC hdatabase⟩
          have hqueues : ((s.referenceTable d o).setLayer d layer).queues = s.queues := by
            refine (queues_setLayer ho' ?_).trans hlayers.queues_eq
            rw [hlayer', hdatabase]
          obtain ⟨hkeeps, v, hsame, hsame'⟩ := run_inside
            (P := fun u => ((s.referenceTable d o).setLayer d layer).SameObjects u ∧
              u.AtWork d fun pc => ∃ stage, pc = .connect stage)
            (fun u hP => hP.2.not_idle (by simp))
            (fun u v a hP ha hnext => connect_step hP.1 hP.2 ha hnext)
            ⟨.refl _, hwork⟩ hthrows.inside hrun hthrows.idle (by
              rw [hthrows.thrown]
              show s.thrown + 1 ≠ (s.referenceTable d o).thrown
              rw [thrown_referenceTable]
              omega)
          refine ⟨keepsQueues_cons hu (.inr hqueues) hkeeps, o, ho, ?_⟩
          have hthrow : (s.referenceTable d o).throw.SameObjects
              ((s.referenceTable d o).setLayer d layer).throw :=
            ⟨rfl, rfl, rfl, (sameObjects_setLayer d layer).databases⟩
          exact hthrow.trans (hsame.trans hsame')

/-- A call of `connect` that throws has pinned the table, if it was not referenced. -/
lemma noTrace_connect_iff {d : ℕ} {o : DatabaseObject} (ho : s.databases[d]? = some o)
    (hsame : (s.referenceTable d o).throw.SameObjects t) :
    s.NoTrace t ↔ o.tableReference ≠ 0 := by
  have htables := congrArg (List.map Prod.fst) hsame.databases
  rw [List.map_map, List.map_map] at htables
  constructor
  · intro hnone hzero
    -- the table has a new reference, which is not 0
    have htable : (s.referenceTable d o).throw.databases[d]? =
        some { o with tableReference := s.registry.fresh } := by
      rw [referenceTable, if_pos hzero]
      show (s.databases.modify d _)[d]? = _
      rw [List.getElem?_modify_eq, ho]
      rfl
    have hsame := congrArg (·[d]?) (htables.symm.trans hnone.tableReference)
    simp only [List.getElem?_map, htable, ho, Option.map_some, Function.comp_apply,
      Option.some.injEq, hzero] at hsame
    exact absurd hsame (Nat.succ_ne_zero _)
  · intro hne
    rw [referenceTable, if_neg hne] at hsame htables
    have hqueries : t.queries = s.queries := hsame.queries
    have hregistry : t.registry = s.registry := hsame.registry
    exact ⟨by rw [hqueries], by rw [hqueries], htables, by rw [hregistry]⟩

end State

/-- **Rejected operations.**  A call of `start` or `connect` that throws keeps the queues, and
leaves the objects as they were exactly when it is harmless. -/
theorem rejected_leaves_no_trace {s t : State} {f : Call} {as : List Action}
    (h : machine.Reachable s)
    (hf : (∃ q fields, f = .start q fields) ∨ ∃ d, f = .database d .connect)
    (hthrows : s.Throws f as t) :
    (s.KeepsQueues (.call f :: as) ∧ s.NoTrace t) ↔ s.Harmless f := by
  rcases hf with ⟨q, fields, rfl⟩ | ⟨d, rfl⟩
  · obtain ⟨hkeeps, x, hx, hundone⟩ := State.undone_of_throws h hthrows
    rw [and_iff_right hkeeps]
    exact (State.running_of_reach h).noTrace_iff hx hundone
  · obtain ⟨hkeeps, o, ho, hsame⟩ := State.sameObjects_of_throws hthrows
    rw [and_iff_right hkeeps, State.noTrace_connect_iff ho hsame]
    constructor
    · intro hne o' ho'
      obtain rfl := Option.some.inj (ho.symm.trans ho')
      exact hne
    · exact fun hharmless => hharmless o ho

/-! ### Runs -/

/-- A query, and a transaction in which it is staged. -/
def stagedSteps : List Action :=
  [.call .create, .call (.query 0 false), .call (.query 0 true), .call (.addQuery 1 0)]

/-- A call of `start` without callbacks. -/
def startCall (q : ℕ) : Call := .start q ⟨false, false, false, false⟩

/-- A query or a transaction is started, and is accepted. -/
def startSteps (q : ℕ) : List Action := .call (startCall q) :: List.replicate 4 (.main 0 .go)

/-- A pending transaction whose query runs in it only is started again. -/
theorem rejected_leaves_no_trace_alone :
    ∃ s t, machine.run machine.init (stagedSteps ++ startSteps 1) = some s ∧
      s.Throws (startCall 1) [] t ∧ s.KeepsQueues [.call (startCall 1)] ∧ s.NoTrace t := by
  have hboth : (machine.run machine.init (stagedSteps ++ startSteps 1)).bind (fun s =>
      (machine.run s [.call (startCall 1)]).map fun t => (s.thrown, t.thrown, t.idle,
        s.queries.map fun x => (x.staged, x.runningQueryData))) =
          some (0, 1, true, [([], [.staged 0]), ([(0, 0)], [.execution ⟨1, 0, 1⟩])]) := rfl
  obtain ⟨s, hs, hboth⟩ := Option.bind_eq_some_iff.1 hboth
  obtain ⟨t, ht, hboth⟩ := Option.map_eq_some_iff.1 hboth
  obtain ⟨hbefore, hafter, hidle, hqueries⟩ : s.thrown = 0 ∧ t.thrown = 1 ∧ t.idle = true ∧
      s.queries.map (fun x => (x.staged, x.runningQueryData)) =
        [([], [.staged 0]), ([(0, 0)], [.execution ⟨1, 0, 1⟩])] := by
    simpa only [Prod.mk.injEq] using hboth
  have hthrows : s.Throws (startCall 1) [] t := ⟨ht, by simp, hidle, by rw [hbefore, hafter]⟩
  refine ⟨s, t, hs, hthrows,
    (rejected_leaves_no_trace (reachable_of_run hs) (.inl ⟨1, _, rfl⟩) hthrows).2 ?_⟩
  intro x hx c y hy
  have hstaged : x.staged = [(0, 0)] := by
    have hget := congrArg (·[1]?) hqueries
    rw [List.getElem?_map, hx] at hget
    exact congrArg Prod.fst (Option.some.inj hget)
  rw [hstaged]
  cases c with
  | zero =>
      have hget := congrArg (·[0]?) hqueries
      rw [List.getElem?_map, hy] at hget
      have hrunning : y.runningQueryData = [.staged 0] :=
        congrArg Prod.snd (Option.some.inj hget)
      rw [hrunning]
      exact .inr (List.Sublist.refl _)
  | succ c => exact .inl (by simp [stagedData])

/-- The query runs alone too: the second `start` of the transaction, which throws, takes away the
data that the pending execution has staged in it. -/
theorem pending_data_removed :
    ¬ ∀ (s t : State) (f : Call) (as : List Action), machine.Reachable s →
      ((∃ q fields, f = .start q fields) ∨ ∃ d, f = .database d .connect) →
      s.Throws f as t → s.KeepsQueues (.call f :: as) ∧ s.NoTrace t := by
  intro h
  have hboth : (machine.run machine.init (stagedSteps ++ startSteps 0 ++ startSteps 1)).bind
      (fun s => (machine.run s [.call (startCall 1)]).map fun t => (s.thrown, t.thrown, t.idle,
        s.queries.map (·.runningQueryData), t.queries.map (·.runningQueryData))) =
          some (0, 1, true, [[.execution ⟨0, 0, 0⟩, .staged 0], [.execution ⟨1, 1, 1⟩]],
            [[.execution ⟨0, 0, 0⟩], [.execution ⟨1, 1, 1⟩]]) := rfl
  obtain ⟨s, hs, hboth⟩ := Option.bind_eq_some_iff.1 hboth
  obtain ⟨t, ht, hboth⟩ := Option.map_eq_some_iff.1 hboth
  obtain ⟨hbefore, hafter, hidle, hrunning, hrunning'⟩ : s.thrown = 0 ∧ t.thrown = 1 ∧
      t.idle = true ∧
      s.queries.map (·.runningQueryData) =
        [[.execution ⟨0, 0, 0⟩, .staged 0], [.execution ⟨1, 1, 1⟩]] ∧
      t.queries.map (·.runningQueryData) = [[.execution ⟨0, 0, 0⟩], [.execution ⟨1, 1, 1⟩]] := by
    simpa only [Prod.mk.injEq] using hboth
  have hthrows : s.Throws (startCall 1) [] t := ⟨ht, by simp, hidle, by rw [hbefore, hafter]⟩
  have hnone := (h s t (startCall 1) [] (reachable_of_run hs) (.inl ⟨1, _, rfl⟩) hthrows).2
  have hsame := hnone.runningQueryData
  rw [hrunning, hrunning'] at hsame
  exact absurd hsame (by decide)

end GmsvPg.Objects
