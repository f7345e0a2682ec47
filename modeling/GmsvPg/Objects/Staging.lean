/-
# What is built and what is staged

`start` builds the data of an execution, and `addQuery` data that is staged in a transaction.
Everything else that happens to the objects leaves what was built as it is, and of what is
staged it can only clear all that a transaction has.
-/
import GmsvPg.Objects.InUse
import GmsvPg.Objects.RunningData

namespace GmsvPg.Objects

open Library
open Database (Execution MainPC)

/-! ### The executions that a layer builds -/

/-- `enqueueQuery` is at work on an execution. -/
def Enqueuing (s : Database.State) (e : Execution) : Prop := ∃ stage, s.mainPC = .enqueue e stage

lemma Enqueuing.not_idle {s : Database.State} {e : Execution} (h : Enqueuing s e) :
    s.mainPC ≠ .idle := by
  obtain ⟨stage, hpc⟩ := h
  rw [hpc]
  exact nofun

/-- No execution is built, and none is enqueued that was not being enqueued before. -/
structure BuildsNone (s t : Database.State) : Prop where
  started : t.started = s.started
  enqueuing : ∀ e, Enqueuing t e → Enqueuing s e

lemma BuildsNone.refl (s : Database.State) : BuildsNone s s := ⟨rfl, fun _ h => h⟩

/-- The main thread has left its operation, or has begun one that enqueues nothing. -/
lemma BuildsNone.of_pc {s t : Database.State} (hstarted : t.started = s.started)
    (hpc : ∀ e stage, t.mainPC ≠ .enqueue e stage) : BuildsNone s t := by
  refine ⟨hstarted, fun e h => ?_⟩
  obtain ⟨stage, he⟩ := h
  exact absurd he (hpc e stage)

/-- Only `start` builds an execution. -/
lemma buildsNone_of_next {s t : Database.State} {a : Database.Action}
    (h : Database.system.next s a = some t)
    (ha : ∀ query children, a ≠ .call (.start query children)) : BuildsNone s t := by
  cases Database.step_of_next h with
  | worker | connectionLost => exact ⟨rfl, fun _ h => h⟩
  | @main c b pc hspawn hnext =>
      refine ⟨rfl, fun e he => ?_⟩
      obtain ⟨stage, rfl⟩ : ∃ stage, pc = .enqueue e stage := he
      exact MainPC.next_source hnext
  | spawn | join => exact .of_pc rfl fun _ _ => nofun
  | @call m t hidle hcall =>
      cases hcall with
      | @start query children => exact absurd rfl (ha query children)
      | enter hentry => exact .of_pc rfl fun e stage heq => by subst heq; cases hentry
      | swapToFront | takeFinished | takeReconnectEvents | setAutoReconnect | none =>
          exact ⟨rfl, fun _ h => h⟩

/-- The same for the layer of a database. -/
lemma buildsNone_of_layer {l layer : Lua.State} {b : Lua.Action}
    (h : Lua.machine.next l b = some layer)
    (hb : ∀ query children, b ≠ .call (.start query children)) :
    BuildsNone l.database layer.database := by
  cases Lua.step_of_next h with
  | @environment b c t hc ht =>
      refine buildsNone_of_next ht fun query children => ?_
      rcases hc with ⟨c, -, rfl⟩ | ⟨-, rfl⟩ <;> exact nofun
  | @main c t hpc ht =>
      rw [Lua.State.afterMain_database]
      exact buildsNone_of_next ht fun _ _ => nofun
  | @lua f f' below effect t hidle hframes hnext ht =>
      have hperformed := (Lua.State.performed ht).database
      rcases hperformed with hsame | ⟨m, hcalls, hm⟩
      · rw [show _ = l.database from hsame]
        exact .refl l.database
      · -- a function of the layer begins no execution
        refine buildsNone_of_next hm fun query children => ?_
        rintro ⟨⟩
        cases hnext <;> cases hcalls
  | @call f t hidle huser hcall =>
      cases Lua.callStep_of_call hcall with
      | @begin f m t frames ht hf hframes =>
          refine buildsNone_of_next ht fun query children => ?_
          rintro ⟨⟩
          rcases hframes with ⟨-, hdirect⟩ | ⟨d, hm, -⟩
          · cases hdirect
          · cases hm
      | connect ht => exact buildsNone_of_next ht fun _ _ => nofun
      | @start query children => exact absurd rfl (hb query children)
      | @waitQuery query shouldSwap e t he ht =>
          rcases ht with rfl | ht
          · exact .refl l.database
          · exact buildsNone_of_next ht fun _ _ => nofun
      | enter | throw => exact .refl l.database

/-- `start` builds one, and begins to enqueue it. -/
lemma database_of_start {l layer : Lua.State} {query children : ℕ}
    (h : Lua.machine.next l (.call (.start query children)) = some layer) :
    layer.database = { l.database with
      started := l.database.started + 1
      mainPC := .enqueue (l.database.newExecution query children) .testShuttingDown } := by
  cases Lua.step_of_next h with
  | environment hb => rcases hb with ⟨c, hc, -⟩ | ⟨hc, -⟩ <;> cases hc
  | @call f t hidle huser hcall =>
      obtain ⟨u, hu, rfl⟩ := Option.map_eq_some_iff.1 hcall
      obtain ⟨v, hv, rfl⟩ := Lua.State.step_eq_some.1 hu
      have hv : (if l.database.mainPC = .idle then
          some { l.database with
            started := l.database.started + 1
            mainPC := .enqueue (l.database.newExecution query children) .testShuttingDown }
          else none) = some v := hv
      rw [if_pos hidle] at hv
      obtain rfl := Option.some.inj hv
      rfl

/-! ### What is kept -/

/-- What was built for a database: how many executions, and for the data of each its query and
what was staged in it. -/
def DatabaseObject.built (o : DatabaseObject) : ℕ × List (ℕ × List (ℕ × ℕ)) :=
  (o.layer.database.started, o.executions.map fun x => (x.query, x.queries))

/-- The data staged in a transaction, with the queries it was built for. -/
def QueryObject.staged (x : QueryObject) : List (ℕ × ℕ) :=
  x.addedQueries.map fun added => (added.query, added.data)

/-- A query is left as it is, except that what is staged in it may be cleared. -/
structure QueryObject.Clears (x y : QueryObject) : Prop where
  database : y.database = x.database
  isTransaction : y.isTransaction = x.isTransaction
  staged : y.staged = x.staged ∨ y.staged = []

lemma QueryObject.Clears.refl (x : QueryObject) : x.Clears x := ⟨rfl, rfl, .inl rfl⟩

lemma QueryObject.Clears.trans {x y z : QueryObject} (h : x.Clears y) (h' : y.Clears z) :
    x.Clears z := by
  refine ⟨h'.database.trans h.database, h'.isTransaction.trans h.isTransaction, ?_⟩
  rcases h'.staged with hz | hz
  · rw [hz]
    exact h.staged
  · exact .inr hz

lemma QueryObject.Clears.staged_getElem? {x y : QueryObject} (h : x.Clears y) {i : ℕ}
    {child : ℕ × ℕ} (hi : y.staged[i]? = some child) : x.staged[i]? = some child := by
  rcases h.staged with hsame | hnone
  · rwa [hsame] at hi
  · rw [hnone] at hi
    exact absurd hi (by simp)

lemma QueryObject.Clears.staged_subset {x y : QueryObject} (h : x.Clears y) {child : ℕ × ℕ}
    (hchild : child ∈ y.staged) : child ∈ x.staged := by
  obtain ⟨i, hi⟩ := List.mem_iff_getElem?.1 hchild
  exact List.mem_of_getElem? (h.staged_getElem? hi)

/-- Nothing is added to what is running, and what was started stays so. -/
structure QueryObject.Trims (x y : QueryObject) : Prop where
  hasBeenStarted : x.hasBeenStarted = true → y.hasBeenStarted = true
  running : y.runningQueryData.Subperm x.runningQueryData

lemma QueryObject.Trims.refl (x : QueryObject) : x.Trims x := ⟨id, List.Subperm.refl _⟩

lemma QueryObject.Trims.trans {x y z : QueryObject} (h : x.Trims y) (h' : y.Trims z) :
    x.Trims z :=
  ⟨fun hx => h'.hasBeenStarted (h.hasBeenStarted hx), h'.running.trans h.running⟩

/-- A change of an element that a function does not see. -/
lemma map_modify_eq {α β : Type} {l : List α} {i : ℕ} {f : α → α} {g : α → β}
    (h : ∀ x, l[i]? = some x → g (f x) = g x) : (l.modify i f).map g = l.map g := by
  refine List.ext_getElem? fun j => ?_
  rw [List.getElem?_map, List.getElem?_map, List.getElem?_modify]
  by_cases hj : i = j
  · subst hj
    cases hx : l[i]? with
    | none => rfl
    | some x => simp [h x hx]
  · cases l[j]? <;> simp [hj]

namespace State

variable {s t u : State}

/-- Nothing is built or staged; what is staged in a transaction may be cleared. -/
structure Unstages (s t : State) : Prop where
  stagedCount : t.stagedCount = s.stagedCount
  built : t.databases.map DatabaseObject.built = s.databases.map DatabaseObject.built
  length : t.queries.length = s.queries.length
  queries : ∀ (q : ℕ) (y : QueryObject), t.queries[q]? = some y →
    ∃ x : QueryObject, s.queries[q]? = some x ∧ x.Clears y

lemma Unstages.refl (s : State) : s.Unstages s :=
  ⟨rfl, rfl, rfl, fun _ y hy => ⟨y, hy, .refl y⟩⟩

lemma Unstages.trans (h : s.Unstages t) (h' : t.Unstages u) : s.Unstages u := by
  refine ⟨h'.stagedCount.trans h.stagedCount, h'.built.trans h.built, h'.length.trans h.length,
    fun q z hz => ?_⟩
  obtain ⟨y, hy, hyz⟩ := h'.queries q z hz
  obtain ⟨x, hx, hxy⟩ := h.queries q y hy
  exact ⟨x, hx, hxy.trans hyz⟩

/-- The databases and the queries are as before. -/
lemma Unstages.of_eq (hstaged : t.stagedCount = s.stagedCount)
    (hdatabases : t.databases = s.databases) (hqueries : t.queries = s.queries) : s.Unstages t := by
  refine ⟨hstaged, by rw [hdatabases], by rw [hqueries], fun q y hy => ⟨y, ?_, .refl y⟩⟩
  rw [← hqueries]
  exact hy

lemma Unstages.database (h : s.Unstages t) {d : ℕ} {o o' : DatabaseObject}
    (ho : s.databases[d]? = some o) (ho' : t.databases[d]? = some o') : o'.built = o.built := by
  have hbuilt := congrArg (·[d]?) h.built
  simpa only [List.getElem?_map, ho, ho', Option.map_some, Option.some.injEq] using hbuilt

lemma unstages_modifyDatabase {d : ℕ} {f : DatabaseObject → DatabaseObject}
    (hf : ∀ o, s.databases[d]? = some o → (f o).built = o.built) :
    s.Unstages (s.modifyDatabase d f) :=
  ⟨rfl, map_modify_eq hf, rfl, fun _ y hy => ⟨y, hy, .refl y⟩⟩

lemma unstages_modifyQuery {q : ℕ} {f : QueryObject → QueryObject}
    (hf : ∀ x : QueryObject, x.Clears (f x)) : s.Unstages (s.modifyQuery q f) := by
  refine ⟨rfl, rfl, List.length_modify _ _ _, fun i y hy => ?_⟩
  have hy : (s.queries.modify q f)[i]? = some y := hy
  rw [List.getElem?_modify] at hy
  obtain ⟨x, hx, rfl⟩ := Option.map_eq_some_iff.1 hy
  refine ⟨x, hx, ?_⟩
  split
  · exact hf x
  · exact .refl x

lemma unstages_addQueryData (q : ℕ) (data : Data) : s.Unstages (s.addQueryData q data) :=
  unstages_modifyQuery fun _ => ⟨rfl, rfl, .inl rfl⟩

lemma unstages_addStaged (queries : List (ℕ × ℕ)) : s.Unstages (s.addStaged queries) := by
  induction queries generalizing s with
  | nil => exact .refl s
  | cons child queries ih =>
      exact (unstages_addQueryData child.1 (.staged child.2)).trans ih

/-- Nothing is built or staged, and nothing is added to what is running; data may be finished,
and what was enqueued may be left. -/
structure Trims (s t : State) : Prop extends Unstages s t where
  trims : ∀ (q : ℕ) (x y : QueryObject), s.queries[q]? = some x → t.queries[q]? = some y →
    x.Trims y
  enqueuing : ∀ (d : ℕ) (o o' : DatabaseObject) (e : Execution), s.databases[d]? = some o →
    t.databases[d]? = some o' → Enqueuing o'.layer.database e → Enqueuing o.layer.database e

/-- The databases and the queries are as before. -/
lemma Trims.of_eq (hstaged : t.stagedCount = s.stagedCount)
    (hdatabases : t.databases = s.databases) (hqueries : t.queries = s.queries) : s.Trims t := by
  refine ⟨.of_eq hstaged hdatabases hqueries, fun q x y hx hy => ?_, fun d o o' e ho ho' he => ?_⟩
  · rw [hqueries] at hy
    obtain rfl := Option.some.inj (hx.symm.trans hy)
    exact .refl x
  · rw [hdatabases] at ho'
    obtain rfl := Option.some.inj (ho.symm.trans ho')
    exact he

lemma Trims.refl (s : State) : s.Trims s := .of_eq rfl rfl rfl

lemma Trims.database_exists (h : s.Trims t) {d : ℕ} {o' : DatabaseObject}
    (ho' : t.databases[d]? = some o') : ∃ o, s.databases[d]? = some o := by
  have hbuilt := congrArg (·[d]?) h.built
  simp only [List.getElem?_map, ho', Option.map_some] at hbuilt
  obtain ⟨o, ho, -⟩ := Option.map_eq_some_iff.1 hbuilt.symm
  exact ⟨o, ho⟩

lemma Unstages.query_exists (h : s.Unstages t) {q : ℕ} {x : QueryObject}
    (hx : s.queries[q]? = some x) : ∃ y, t.queries[q]? = some y := by
  obtain ⟨hlt, -⟩ := List.getElem?_eq_some_iff.1 hx
  exact ⟨_, List.getElem?_eq_getElem (h.length ▸ hlt)⟩

lemma Trims.trans (h : s.Trims t) (h' : t.Trims u) : s.Trims u := by
  refine ⟨h.toUnstages.trans h'.toUnstages, fun q x z hx hz => ?_, fun d o o'' e ho ho'' he => ?_⟩
  · obtain ⟨y, hy, -⟩ := h'.queries q z hz
    exact (h.trims q x y hx hy).trans (h'.trims q y z hy hz)
  · obtain ⟨o', ho'⟩ := h'.database_exists ho''
    exact h.enqueuing d o o' e ho ho' (h'.enqueuing d o' o'' e ho' ho'' he)

lemma trims_modifyDatabase {d : ℕ} {f : DatabaseObject → DatabaseObject}
    (hf : ∀ o, s.databases[d]? = some o → (f o).built = o.built ∧
      ∀ e, Enqueuing (f o).layer.database e → Enqueuing o.layer.database e) :
    s.Trims (s.modifyDatabase d f) := by
  refine ⟨unstages_modifyDatabase fun o ho => (hf o ho).1, fun q x y hx hy => ?_,
    fun i o o' e ho ho' he => ?_⟩
  · obtain rfl := Option.some.inj (hx.symm.trans hy)
    exact .refl x
  · have ho' : (s.databases.modify d f)[i]? = some o' := ho'
    rw [List.getElem?_modify, ho] at ho'
    obtain rfl := Option.some.inj ho'
    split at he
    · rename_i hi
      subst hi
      exact (hf o ho).2 e he
    · exact he

lemma trims_modifyQuery {q : ℕ} {f : QueryObject → QueryObject}
    (hf : ∀ x : QueryObject, x.Clears (f x) ∧ x.Trims (f x)) : s.Trims (s.modifyQuery q f) := by
  refine ⟨unstages_modifyQuery fun x => (hf x).1, fun i x y hx hy => ?_,
    fun d o o' e ho ho' he => ?_⟩
  · have hy : (s.queries.modify q f)[i]? = some y := hy
    rw [List.getElem?_modify, hx] at hy
    obtain rfl := Option.some.inj hy
    split
    · exact (hf x).2
    · exact .refl x
  · obtain rfl := Option.some.inj (ho.symm.trans ho')
    exact he

lemma trims_setLayer {d : ℕ} {layer : Lua.State}
    (h : ∀ o, s.databases[d]? = some o → BuildsNone o.layer.database layer.database) :
    s.Trims (s.setLayer d layer) :=
  trims_modifyDatabase fun o ho => by
    refine ⟨?_, (h o ho).enqueuing⟩
    rw [DatabaseObject.built, DatabaseObject.built, (h o ho).started]

/-! ### The operations -/

lemma trims_finishQueryData (q : ℕ) (data : Data) : s.Trims (s.finishQueryData q data) :=
  trims_modifyQuery fun x => ⟨⟨rfl, rfl, .inl rfl⟩, id,
    (finishQueryData_sublist data x.runningQueryData).subperm⟩

lemma trims_finishStaged (queries : List (ℕ × ℕ)) : s.Trims (s.finishStaged queries) := by
  induction queries generalizing s with
  | nil => exact .refl s
  | cons child queries ih =>
      exact (trims_finishQueryData child.1 (.staged child.2)).trans ih

lemma trims_finishData (q : ℕ) (data : Data) (x : ExecutionData) :
    s.Trims (s.finishData q data x) := by
  have hstaged : s.Trims { s.finishStaged x.queries with
      registry := s.registry.releaseAll x.references.fields } :=
    (trims_finishStaged x.queries).trans (.of_eq rfl rfl rfl)
  exact hstaged.trans (trims_finishQueryData q data)

lemma trims_finishLuaQueryData (d : ℕ) (e : Execution) : s.Trims (s.finishLuaQueryData d e) := by
  unfold finishLuaQueryData
  split
  · exact .refl s
  · refine (trims_finishData _ _ _).trans (trims_modifyDatabase fun o _ => ⟨?_, fun _ h => h⟩)
    exact congrArg (Prod.mk _) (map_modify_eq fun _ _ => rfl)

lemma trims_clearAddedQueries (u : ℕ) : s.Trims (s.clearAddedQueries u) := by
  unfold clearAddedQueries
  split
  · exact .refl s
  · have hcleared : s.Trims (s.modifyQuery u fun x => { x with addedQueries := [] }) :=
      trims_modifyQuery fun x => ⟨⟨rfl, rfl, .inr rfl⟩, id, List.Subperm.refl _⟩
    exact hcleared.trans (.of_eq rfl rfl rfl)

lemma trims_endCallback (d : ℕ) (e : Execution) (loc : Local) :
    s.Trims (s.endCallback d e loc) := by
  cases loc with
  | none => exact .refl s
  | query dataReference => exact .of_eq rfl rfl rfl
  | transaction =>
      show s.Trims (s.clearAddedQueriesFromCallbackTable d e)
      unfold clearAddedQueriesFromCallbackTable
      split
      · exact trims_clearAddedQueries e.query
      · exact .refl s

lemma trims_pushResults {α : Type} (l : List α) :
    s.Trims (l.foldl (fun s _ => s.pushResults) s) := by
  induction l generalizing s with
  | nil => exact .refl s
  | cons a l ih => exact Trims.trans (t := s.pushResults) (.of_eq rfl rfl rfl) ih

lemma trims_runCallback (d : ℕ) (e : Execution) : s.Trims (s.runCallback d e).1 := by
  unfold runCallback
  split
  · simp only
    split
    · exact .refl s
    · split
      · exact .refl s
      · exact .refl s
      · split
        · split
          · exact .refl s
          · exact trims_pushResults _
        · exact .of_eq rfl rfl rfl
  · exact .refl s

/-- A database whose executions and whose layer are kept. -/
lemma trims_keepLayer {d : ℕ} {f : DatabaseObject → DatabaseObject}
    (hlayer : ∀ o, (f o).layer = o.layer) (hexecutions : ∀ o, (f o).executions = o.executions) :
    s.Trims (s.modifyDatabase d f) := by
  refine trims_modifyDatabase fun o _ => ⟨?_, fun e he => ?_⟩
  · rw [DatabaseObject.built, hlayer, hexecutions]
    rfl
  · rwa [hlayer] at he

lemma trims_freeTable (d : ℕ) : s.Trims (s.freeTable d) := by
  unfold freeTable
  split
  · exact .refl s
  · have hmodified : s.Trims (s.modifyDatabase d fun o => { o with tableReference := 0 }) :=
      trims_keepLayer (fun _ => rfl) fun _ => rfl
    exact hmodified.trans (.of_eq rfl rfl rfl)

lemma trims_referenceTable (d : ℕ) (o : DatabaseObject) : s.Trims (s.referenceTable d o) := by
  unfold referenceTable
  split
  · have hmodified : s.Trims (s.modifyDatabase d fun o =>
        { o with tableReference := s.registry.fresh }) :=
      trims_keepLayer (fun _ => rfl) fun _ => rfl
    exact hmodified.trans (.of_eq rfl rfl rfl)
  · exact .refl s

lemma trims_perform (d : ℕ) (loc : Local) (effect : Lua.Effect) :
    s.Trims (s.perform d loc effect).1 := by
  cases effect with
  | think effect =>
      cases effect with
      | freeTable => exact trims_freeTable d
      | runCallback p => exact trims_runCallback d p.execution
      | finishQueryData p =>
          exact (trims_endCallback d p.execution loc).trans
            (trims_finishLuaQueryData d p.execution)
      | _ => exact .refl s
  | finishAborted e =>
      exact (trims_endCallback d e loc).trans (trims_finishLuaQueryData d e)
  | _ => exact .refl s

lemma trims_afterMain (d : ℕ) (pc pc' : MainPC) : s.Trims (s.afterMain d pc pc') := by
  unfold afterMain
  split
  · exact (trims_finishLuaQueryData d _).trans (.of_eq rfl rfl rfl)
  · split
    · exact trims_modifyQuery fun x => ⟨⟨rfl, rfl, .inl rfl⟩, fun _ => rfl, List.Subperm.refl _⟩
    · exact .refl s
  · split
    · exact .of_eq rfl rfl rfl
    · exact .refl s
  · split
    · exact .of_eq rfl rfl rfl
    · exact .refl s
  · split
    · split
      · exact .of_eq rfl rfl rfl
      · exact .refl s
    · exact .refl s
  · exact .refl s

lemma trims_destroyQuery (q : ℕ) (x : QueryObject) : s.Trims (s.destroyQuery q x) := by
  have hdestroyed : (s.clearAddedQueries q).Trims
      ((s.clearAddedQueries q).modifyQuery q fun x =>
        { x with databaseReference := 0, destroyed := true }) :=
    trims_modifyQuery fun x => ⟨⟨rfl, rfl, .inl rfl⟩, id, List.Subperm.refl _⟩
  exact ((trims_clearAddedQueries q).trans hdestroyed).trans (.of_eq rfl rfl rfl)

/-! ### The steps -/

/-- The main thread is in no operation, in any database. -/
lemma idle_database (h : s.idle = true) {d : ℕ} {o : DatabaseObject}
    (ho : s.databases[d]? = some o) : o.layer.database.mainPC = .idle := by
  simpa using List.all_eq_true.1 h o (List.mem_of_getElem? ho)

/-- The layer of a database has moved by a step that is no `start`. -/
lemma trims_layer {d : ℕ} {o : DatabaseObject} {layer : Lua.State}
    (ho : s.databases[d]? = some o) (h : BuildsNone o.layer.database layer.database) :
    s.Trims (s.setLayer d layer) :=
  trims_setLayer fun o' ho' => by
    obtain rfl := Option.some.inj (ho.symm.trans ho')
    exact h

/-- The same in user code or a function of the layer, which may have changed the objects too. -/
lemma Trims.layer (h : s.Trims t) (hidle : s.idle = true) {d : ℕ} {o : DatabaseObject}
    {layer : Lua.State} (ho : s.databases[d]? = some o)
    (hlayer : BuildsNone o.layer.database layer.database) : s.Trims (t.setLayer d layer) := by
  refine h.trans (trims_setLayer fun o' ho' => ⟨?_, fun e he => ?_⟩)
  · have hsame : o'.layer.database.started = o.layer.database.started :=
      congrArg Prod.fst (h.database ho ho')
    rw [hsame]
    exact hlayer.started
  · exact absurd (idle_database hidle ho) (hlayer.enqueuing e he).not_idle

lemma trims_go (hidle : s.idle = true) (h : GoStep s t) : s.Trims t := by
  cases h with
  | @function d loc below o f frames effect f' layer u hstack ho hframes hnext hlayer =>
      exact ((s.trims_perform d loc effect).layer hidle ho
        (buildsNone_of_layer hlayer fun _ _ => nofun)).trans (.of_eq rfl rfl rfl)
  | hooksDone | shutdownDone | shutdown => exact .of_eq rfl rfl rfl
  | @hook d reference rest below o layer hstack ho hlayer =>
      exact (trims_layer ho (buildsNone_of_layer hlayer fun _ _ => nofun)).trans
        (.of_eq rfl rfl rfl)
  | @destroying d stage delete below o t hstack ho ht =>
      cases ht with
      | @operation m layer stage hm hlayer =>
          obtain ⟨u, hu, rfl⟩ := Lua.State.step_eq_some.1 hlayer
          refine (trims_layer ho (buildsNone_of_next hu fun query children heq => ?_)).trans
            (.of_eq rfl rfl rfl)
          obtain rfl := Database.Action.call.inj heq
          exact hm query children rfl
      | @finish e => exact (trims_finishLuaQueryData d e).trans (.of_eq rfl rfl rfl)
      | release =>
          have hmodified : s.Trims (s.modifyDatabase d fun o =>
              { o with tableReference := 0, destroyed := o.destroyed || delete }) :=
            trims_keepLayer (fun _ => rfl) fun _ => rfl
          exact hmodified.trans (.of_eq rfl rfl rfl)

end State

/-- The step is a call that makes a database, a query, or data. -/
def Action.makes : Action → Bool
  | .call .create | .call (.query _ _) | .call (.addQuery _ _) | .call (.start _ _) => true
  | _ => false

lemma trims_of_step {s t : State} {a : Action} (h : Step s a t) (ha : a.makes = false) :
    s.Trims t := by
  cases h with
  | @thread a d o b layer hthread ho hlayer =>
      refine State.trims_layer ho (buildsNone_of_layer hlayer fun query children => ?_)
      rcases hthread with ⟨c, -, rfl⟩ | ⟨-, rfl⟩ <;> exact nofun
  | @main d c o layer ho hlayer =>
      exact (State.trims_layer ho (buildsNone_of_layer hlayer fun _ _ => nofun)).trans
        (State.trims_afterMain d _ _)
  | go hidle hgo => exact State.trims_go hidle hgo
  | @collectQuery q x => exact s.trims_destroyQuery q x
  | collectDatabase | close => exact .of_eq rfl rfl rfl
  | @call f t hidle huser hcall =>
      cases hcall with
      | create | query | addQuery | addQueryThrows | startThrows | start => cases ha
      | @clearQueries u => exact s.trims_clearAddedQueries u
      | getData => exact .of_eq rfl rfl rfl
      | @connect d o layer ho hlayer =>
          obtain ⟨ho, -⟩ := State.database_of_live ho
          exact (s.trims_referenceTable d o).layer hidle ho
            (buildsNone_of_layer hlayer fun _ _ => nofun)
      | @database d f o layer stack ho hf hlayer =>
          obtain ⟨ho, -⟩ := State.database_of_live ho
          have hbuilds := buildsNone_of_layer hlayer fun query children heq => by
            obtain rfl := Lua.Action.call.inj heq
            exact hf.2 query children rfl
          exact (State.trims_layer ho hbuilds).trans (.of_eq rfl rfl rfl)
      | thinkHooks => exact .of_eq rfl rfl rfl

/-! ### What is built -/

/-- Data that `start` or `addQuery` builds for a query. -/
inductive DataName
  /-- the data of an execution, which are numbered for each database -/
  | execution (database number : ℕ)
  /-- data staged for a transaction -/
  | staged (data : ℕ)
deriving DecidableEq, Repr

/-- The data that a call builds for a query, and the query. -/
def State.builds (s : State) : Action → Option (DataName × ℕ)
  | .call (.start q _) =>
      (s.liveQuery q).bind fun x => s.databases[x.database]?.bind fun o =>
        if x.isTransaction then none
        else some (.execution x.database o.layer.database.started, q)
  | .call (.addQuery u q) =>
      (s.liveQuery u).bind fun x => (s.liveQuery q).bind fun y =>
        if x.isTransaction && !y.isTransaction && decide (x.database = y.database) then
          some (.staged s.stagedCount, q)
        else none
  | _ => none

/-- A step, by what it builds and stages. -/
inductive StagingStep (s : State) (a : Action) (t : State) : Prop
  | unstages (hbuilds : s.builds a = none) (h : s.Unstages t)
  | create (hbuilds : s.builds a = none) (hstaged : t.stagedCount = s.stagedCount)
      (hdatabases : t.databases = s.databases ++ [({} : DatabaseObject)])
      (hqueries : t.queries = s.queries)
  | query {x : QueryObject} (hbuilds : s.builds a = none) (hx : x.staged = [])
      (hstaged : t.stagedCount = s.stagedCount) (hdatabases : t.databases = s.databases)
      (hqueries : t.queries = s.queries ++ [x])
  | addQuery {u q : ℕ} (hbuilds : s.builds a = some (.staged s.stagedCount, q))
      (hq : q < s.queries.length) (hstaged : t.stagedCount = s.stagedCount + 1)
      (hdatabases : t.databases = s.databases)
      (hqueries : t.queries = s.queries.modify u fun x =>
        { x with addedQueries := x.addedQueries ++ [⟨s.registry.fresh, q, s.stagedCount⟩] })
  | start {q : ℕ} {x : QueryObject} {o : DatabaseObject} {layer : Lua.State} {y : ExecutionData}
      {v : State}
      (hx : s.queries[q]? = some x) (ho : s.databases[x.database]? = some o)
      (hbuilds : s.builds a = if x.isTransaction then none
        else some (.execution x.database o.layer.database.started, q))
      (hlayer : layer.database.started = o.layer.database.started + 1)
      (hquery : y.query = q) (hqueries : y.queries = x.staged) (hv : s.Unstages v)
      (hstart : t = v.modifyDatabase x.database fun o =>
        { o with layer := layer, executions := o.executions ++ [y] })

lemma call_of_next {s t : State} {f : Call} (h : machine.next s (.call f) = some t) :
    s.call f = some t := by
  simp only [machine] at h
  split at h
  · exact h
  · cases h

lemma stagingStep_addQuery {s t : State} {u q : ℕ} (h : s.addQuery u q = some t) :
    StagingStep s (.call (.addQuery u q)) t := by
  obtain ⟨x, hx, h⟩ := Option.bind_eq_some_iff.1 h
  obtain ⟨y, hy, rfl⟩ := Option.map_eq_some_iff.1 h
  have hbuilds : s.builds (.call (.addQuery u q)) =
      if x.isTransaction && !y.isTransaction && decide (x.database = y.database) then
        some (.staged s.stagedCount, q)
      else none := by
    rw [State.builds, hx, Option.bind_some, hy, Option.bind_some]
  split
  · rename_i hsame
    rw [if_pos hsame] at hbuilds
    obtain ⟨hlt, -⟩ := List.getElem?_eq_some_iff.1 (State.query_of_live hy).1
    exact .addQuery hbuilds hlt rfl rfl rfl
  · rename_i hsame
    rw [if_neg hsame] at hbuilds
    exact .unstages hbuilds (.refl s)

/-- The part of `builds` that is about `start`. -/
lemma builds_start {s : State} {q : ℕ} {fields : CallbackFields} {x : QueryObject}
    {o : DatabaseObject} (hx : s.liveQuery q = some x) (ho : s.databases[x.database]? = some o) :
    s.builds (.call (.start q fields)) =
      if x.isTransaction then none
      else some (.execution x.database o.layer.database.started, q) := by
  rw [State.builds, hx, Option.bind_some, ho, Option.bind_some]

/-- Only the calls that make something build data. -/
lemma builds_of_not_makes {s : State} {a : Action} (ha : a.makes = false) : s.builds a = none := by
  cases a with
  | call f =>
      cases f with
      | create | query | addQuery | start => cases ha
      | clearQueries | getData | database | thinkHooks => rfl
  | worker | connectionLost | main | go | collect | close => rfl

lemma stagingStep {s t : State} {a : Action} (h : machine.next s a = some t) :
    StagingStep s a t := by
  have hstep := step_of_next h
  cases hmakes : a.makes with
  | false =>
      exact .unstages (builds_of_not_makes hmakes) (trims_of_step hstep hmakes).toUnstages
  | true =>
      cases hstep with
      | thread hthread => rcases hthread with ⟨c, rfl, -⟩ | ⟨rfl, -⟩ <;> cases hmakes
      | main | go | collectQuery | collectDatabase | close => cases hmakes
      | @call f t hidle huser hcall =>
          cases hcall with
          | clearQueries | getData | connect | database | thinkHooks => cases hmakes
          | create => exact .create rfl rfl rfl rfl
          | query ho => exact .query rfl rfl rfl rfl rfl
          | addQuery | addQueryThrows => exact stagingStep_addQuery (call_of_next h)
          | @startThrows q fields x o queries e hx ho hqueries he ht =>
              refine .unstages ?_ ?_
              · rw [builds_start hx ho, if_pos ht]
              · have hadded : s.Unstages { s.addStaged queries with
                    registry := (referenceCallbacks s.registry fields).2 } :=
                  (s.unstages_addStaged queries).trans (.of_eq rfl rfl rfl)
                exact (hadded.trans (State.trims_finishData _ _ _).toUnstages).trans
                  (.of_eq rfl rfl rfl)
          | @start q fields x o queries e layer hx ho hqueries he hstarted hlayer =>
              have hadded : s.Unstages { s.addStaged queries with
                  registry := (referenceCallbacks s.registry fields).2 } :=
                (s.unstages_addStaged queries).trans (.of_eq rfl rfl rfl)
              exact .start (State.query_of_live hx).1 ho (builds_start hx ho)
                (congrArg Database.State.started (database_of_start hlayer)) rfl hqueries
                (hadded.trans (State.unstages_addQueryData q (.execution e))) rfl

/-! ### What was built -/

namespace State

variable {C : State → Action → Prop} {s t : State} {a : Action}

/-- What was built for each database. -/
def built (s : State) : List (ℕ × List (ℕ × List (ℕ × ℕ))) :=
  s.databases.map DatabaseObject.built

lemma built_of_database {d : ℕ} {o : DatabaseObject} (ho : s.databases[d]? = some o) :
    s.built[d]? = some o.built := by
  rw [built, List.getElem?_map, ho, Option.map_some]

/-- `start` adds an execution to what was built. -/
lemma built_start {v : State} {d q : ℕ} {x : QueryObject} {o : DatabaseObject} {layer : Lua.State}
    {y : ExecutionData} (ho : s.databases[d]? = some o)
    (hlayer : layer.database.started = o.layer.database.started + 1) (hquery : y.query = q)
    (hqueries : y.queries = x.staged) (hv : s.Unstages v) :
    (v.modifyDatabase d fun o =>
      { o with layer := layer, executions := o.executions ++ [y] }).built =
      s.built.modify d fun b => (b.1 + 1, b.2 ++ [(q, x.staged)]) := by
  have hbuilt : v.built = s.built := hv.built
  rw [← hbuilt]
  refine List.ext_getElem? fun i => ?_
  rw [built, built, modifyDatabase, List.getElem?_map, List.getElem?_modify, List.getElem?_modify,
    List.getElem?_map]
  by_cases hi : d = i
  · subst hi
    cases ho' : v.databases[d]? with
    | none => rfl
    | some o' =>
        have hsame : o'.layer.database.started = o.layer.database.started :=
          congrArg Prod.fst (hv.database ho ho')
        simp [DatabaseObject.built, hlayer, hsame, hquery, hqueries]
  · cases v.databases[i]? <;> simp [hi]

/-- Each database has the data of as many executions as were built. -/
theorem counted (h : machine.Reach C s) : ∀ b ∈ s.built, b.2.length = b.1 := by
  refine h.invariant (I := fun s => ∀ b ∈ s.built, b.2.length = b.1)
    (fun b hb => absurd hb List.not_mem_nil) fun s t a _ hI _ hnext b hb => ?_
  cases stagingStep hnext with
  | unstages hbuilds hunstages =>
      have hbuilt : t.built = s.built := hunstages.built
      exact hI b (hbuilt ▸ hb)
  | create hbuilds hstaged hdatabases =>
      rw [built, hdatabases, List.map_append] at hb
      rcases List.mem_append.1 hb with hb | hb
      · exact hI b hb
      · rw [List.mem_singleton.1 hb]
        rfl
  | query hbuilds hx hstaged hdatabases => exact hI b (by rwa [built, ← hdatabases])
  | addQuery hbuilds hq hstaged hdatabases => exact hI b (by rwa [built, ← hdatabases])
  | @start q x o layer y v hx ho hbuilds hlayer hquery hqueries hv hstart =>
      rw [hstart, built_start ho hlayer hquery hqueries hv] at hb
      obtain ⟨i, hi⟩ := List.mem_iff_getElem?.1 hb
      rw [List.getElem?_modify] at hi
      obtain ⟨b', hb', rfl⟩ := Option.map_eq_some_iff.1 hi
      have hlength := hI b' (List.mem_of_getElem? hb')
      split
      · simp [hlength]
      · exact hlength

end State

end GmsvPg.Objects
