/-
# What the garbage collector destroys

`luaObjectGc` may delete a database, which joins its worker thread while Lua waits.  Its
comment says why this does not take long: a database is only destroyed when no queries for it
exist.  This file proves it for the garbage collector, over whole runs: the references of an
execution keep its query alive until its callback was invoked, the query keeps its database
alive, and `connect` does until the attempt to connect has ended.
-/
import GmsvPg.Lua.Answered
import GmsvPg.Objects.Running
import GmsvPg.Objects.Threads

namespace GmsvPg.Objects

open Library Machine
open Database (Execution Choice MainPC)

/-! ### The condition -/

/-- `completeQueryWithError` makes its test for what the worker thread is not completing. -/
def NoLateFallback (s : State) : Action → Prop
  | .main d c => ∀ o ∈ s.databases[d]?, Lua.NoLateFallback o.layer (.main c)
  | _ => True

instance (s : State) (a : Action) : Decidable (NoLateFallback s a) := by
  cases a <;> unfold NoLateFallback <;> infer_instance

/-! ### A database and the data of its executions -/

/-- `finishLuaQueryData`, as far as the data goes. -/
def ExecutionData.finish (x : ExecutionData) : ExecutionData :=
  { x with references := {}, finished := true }

/-- A database after `finishLuaQueryData`. -/
def DatabaseObject.finish (o : DatabaseObject) (e : Execution) : DatabaseObject :=
  { o with executions := o.executions.modify e.data ExecutionData.finish }

/-- A database that user code can still use: its layer has made a run of its own, and what it
knows has data, which is finished only after the callback. -/
structure DatabaseObject.Linked (o : DatabaseObject) : Prop where
  reach : Lua.machine.Reach Lua.NoLateFallback o.layer
  table : o.layer.tableReference = decide (o.tableReference ≠ 0)
  known : ∀ e, o.layer.database.Knows e →
    ∃ x, o.executions[e.data]? = some x ∧ x.query = e.query ∧
      (x.finished = true → e ∈ o.layer.answered)

/-- What a step leaves of a database, whether it is gone or user code can still use it. -/
structure DatabaseObject.Advances (gone : Prop) (o o' : DatabaseObject) : Prop where
  unfinished : ∀ (n : ℕ) (x : ExecutionData), o'.executions[n]? = some x → x.finished = false →
    o.executions[n]? = some x
  linked : ¬ gone → o.Linked → o'.Linked
  done : gone → o.layer.Done → o'.layer.Done

/-- Only `start` makes an execution known. -/
lemma knows_of_layer {l layer : Lua.State} {a : Lua.Action}
    (h : Lua.machine.next l a = some layer)
    (ha : ∀ query children, a ≠ .call (.start query children)) {e : Execution}
    (he : layer.database.Knows e) : l.database.Knows e := by
  rcases he with he | he
  · rcases (Lua.step_of_next h).database with hsame | ⟨b, -, hb⟩
    · exact .inl (hsame ▸ he)
    · exact (Database.State.accepted_of_step (Database.step_of_next hb) he).imp_right
        fun hput => ⟨_, hput⟩
  · exact .inr ((buildsNone_of_layer h ha).enqueuing e he)

/-- `start` makes the execution known that it builds. -/
lemma knows_of_start {l layer : Lua.State} {query children : ℕ}
    (h : Lua.machine.next l (.call (.start query children)) = some layer) {e : Execution}
    (he : layer.database.Knows e) :
    l.database.Knows e ∨ e = l.database.newExecution query children := by
  rw [database_of_start h] at he
  rcases he with he | ⟨stage, hpc⟩
  · exact .inl (.inl he)
  · cases hpc
    exact .inr rfl

namespace DatabaseObject

variable {o : DatabaseObject} {layer : Lua.State} {gone : Prop}

lemma Advances.refl (o : DatabaseObject) : o.Advances gone o :=
  ⟨fun _ _ h _ => h, fun _ => id, fun _ => id⟩

/-- Data that is not finished was not finished before. -/
lemma unfinished_finish {e : Execution} {n : ℕ} {x : ExecutionData}
    (hx : (o.finish e).executions[n]? = some x) (hfinished : x.finished = false) :
    o.executions[n]? = some x := by
  rw [finish, List.getElem?_modify] at hx
  obtain ⟨y, hy, rfl⟩ := Option.map_eq_some_iff.1 hx
  by_cases hn : e.data = n
  · simp [hn, ExecutionData.finish] at hfinished
  · simpa [hn] using hy

lemma exists_finish {e : Execution} {n : ℕ} {x : ExecutionData}
    (hx : o.executions[n]? = some x) :
    ∃ y, (o.finish e).executions[n]? = some y ∧ y.query = x.query ∧
      (y.finished = true → e.data = n ∨ x.finished = true) := by
  rw [finish, List.getElem?_modify, hx]
  by_cases hn : e.data = n
  · exact ⟨_, rfl, by simp [hn, ExecutionData.finish], fun _ => .inl hn⟩
  · exact ⟨x, by simp [hn], rfl, .inr⟩

/-- The layer moves, and knows nothing new. -/
lemma Linked.move (h : o.Linked) {a : Lua.Action} {n : ℕ}
    (hlayer : Lua.machine.next o.layer a = some layer) (hC : Lua.NoLateFallback o.layer a)
    (ha : ∀ query children, a ≠ .call (.start query children))
    (htable : layer.tableReference = decide (n ≠ 0)) :
    ({ o with layer := layer, tableReference := n } : DatabaseObject).Linked where
  reach := .step h.reach hC hlayer
  table := htable
  known e he := by
    obtain ⟨x, hx, hquery, hfinished⟩ := h.known e (knows_of_layer hlayer ha he)
    exact ⟨x, hx, hquery, fun hx =>
      Lua.State.mem_answered_of_step (Lua.step_of_next hlayer) (hfinished hx)⟩

/-- The data of an execution is finished that is answered, or that is no longer known. -/
lemma Linked.finish (h : o.Linked) {e : Execution} {a : Lua.Action} {n : ℕ}
    (he : o.layer.database.Knows e) (hdone : layer.database.Knows e → e ∈ layer.answered)
    (hlayer : Lua.machine.next o.layer a = some layer) (hC : Lua.NoLateFallback o.layer a)
    (ha : ∀ query children, a ≠ .call (.start query children))
    (htable : layer.tableReference = decide (n ≠ 0)) :
    ({ o.finish e with layer := layer, tableReference := n } : DatabaseObject).Linked where
  reach := .step h.reach hC hlayer
  table := htable
  known e' he' := by
    have hbefore := knows_of_layer hlayer ha he'
    obtain ⟨x, hx, hquery, hfinished⟩ := h.known e' hbefore
    obtain ⟨y, hy, hsame, hor⟩ := exists_finish (e := e) hx
    refine ⟨y, hy, hsame.trans hquery, fun hy => ?_⟩
    rcases hor hy with hdata | hx
    · obtain rfl := he.eq (Lua.database_reachable h.reach) hbefore hdata
      exact hdone he'
    · exact Lua.State.mem_answered_of_step (Lua.step_of_next hlayer) (hfinished hx)

/-- The threads, and the main thread inside an operation of `Database`. -/
lemma advances_thread {a : Lua.Action} (hlua : a ≠ .lua) (hcall : ∀ f, a ≠ .call f)
    (hlayer : Lua.machine.next o.layer a = some layer) (hC : Lua.NoLateFallback o.layer a) :
    o.Advances gone { o with layer := layer } where
  unfinished _ _ hx _ := hx
  linked _ h := h.move hlayer hC (fun _ _ => hcall _)
    ((Lua.State.continues_of_next hlua hcall hlayer).tableReference.trans h.table)
  done _ := (Lua.State.continues_of_next hlua hcall hlayer).done

/-- `enqueueQuery` throws, and `start` undoes what it has done. -/
lemma advances_refused {c : Choice} {e : Execution}
    (hlayer : Lua.machine.next o.layer (.main c) = some layer)
    (hC : Lua.NoLateFallback o.layer (.main c))
    (hpc : o.layer.database.mainPC = .enqueue e .setFinished) :
    o.Advances gone { o.finish e with layer := layer } where
  unfinished n x hx hfinished := unfinished_finish hx hfinished
  linked _ h := by
    have hcontinues := Lua.State.continues_of_next (by simp) (by simp) hlayer
    exact h.finish (.inr ⟨_, hpc⟩)
      (fun he => absurd he (Lua.State.not_knows_of_refused h.reach hlayer hpc)) hlayer hC
      (by simp) (hcontinues.tableReference.trans h.table)
  done _ h := absurd hpc (h.database.enqueuing e _)

/-- What a function of the layer does to its database. -/
def performed (o : DatabaseObject) (effect : Lua.Effect) : DatabaseObject :=
  match effect.finishes with
  | some e => o.finish e
  | none => if effect = .think .freeTable then { o with tableReference := 0 } else o

lemma performed_destroyed (o : DatabaseObject) (effect : Lua.Effect) :
    (o.performed effect).destroyed = o.destroyed := by
  unfold performed
  split
  · rfl
  · split <;> rfl

/-- The innermost function goes on, in a database that is in use. -/
lemma advances_lua {f : Lua.Frame} {frames : List Lua.Frame} {effect : Lua.Effect}
    {f' : Option Lua.Frame} {u : Lua.State} (hgone : ¬ gone)
    (hframes : o.layer.frames = f :: frames) (hnext : f.Moves o.layer.view effect f')
    (hlayer : Lua.machine.next o.layer .lua = some layer) (hu : o.layer.perform effect = some u)
    (hafter : layer = { u with frames := f'.toList ++ frames }) :
    o.Advances gone { o.performed effect with layer := layer } where
  unfinished n x hx hfinished := by
    unfold performed at hx
    split at hx
    · exact unfinished_finish hx hfinished
    · split at hx <;> exact hx
  linked _ h := by
    have htable : layer.tableReference =
        decide ((if effect = .think .freeTable then 0 else o.tableReference) ≠ 0) := by
      rw [hafter]
      show u.tableReference = _
      rw [(Lua.State.performed hu).tableReference, h.table]
      by_cases heffect : effect = .think .freeTable <;> simp [heffect]
    cases hfinishes : effect.finishes with
    | some e =>
        have hanswered := Lua.State.answered_of_finishes h.reach hframes hnext hfinishes
        have hne : effect ≠ .think .freeTable := by
          rintro rfl
          cases hfinishes
        rw [if_neg hne] at htable
        simp only [performed, hfinishes]
        exact h.finish (.inl (Lua.State.handed_of_answered h.reach hanswered).1)
          (fun _ => Lua.State.mem_answered_of_step (Lua.step_of_next hlayer) hanswered) hlayer
          trivial (by simp) htable
    | none =>
        have hmoved := h.move hlayer trivial (by simp) htable
        simp only [performed, hfinishes]
        by_cases heffect : effect = .think .freeTable <;> simpa [heffect] using hmoved
  done h := absurd h hgone

/-- User code calls a function of the database, or of one of its queries. -/
lemma advances_call {f : Lua.Call} {n : ℕ} (hgone : ¬ gone)
    (hlayer : Lua.machine.next o.layer (.call f) = some layer)
    (hf : ∀ query children, f ≠ .start query children)
    (hn : n = o.tableReference ∧ f ≠ .connect ∨ n ≠ 0 ∧ f = .connect) :
    o.Advances gone { o with layer := layer, tableReference := n } where
  unfinished _ _ hx _ := hx
  linked _ h := by
    refine h.move hlayer trivial (by simpa using hf) ?_
    rw [Lua.State.tableReference_of_call hlayer, h.table]
    rcases hn with ⟨rfl, hne⟩ | ⟨hn, rfl⟩
    · simp [hne]
    · simp [hn]
  done h := absurd h hgone

/-- `start` has built data for the execution, which is the last. -/
lemma Linked.start (h : o.Linked) {query children : ℕ} {x : ExecutionData}
    (hcounted : o.executions.length = o.layer.database.started)
    (hlayer : Lua.machine.next o.layer (.call (.start query children)) = some layer)
    (hx : x.query = query ∧ x.finished = false) :
    ({ o with layer := layer, executions := o.executions ++ [x] } : DatabaseObject).Linked where
  reach := .step (a := .call (.start query children)) h.reach trivial hlayer
  table := by
    show layer.tableReference = _
    rw [Lua.State.tableReference_of_call hlayer]
    simpa using h.table
  known e he := by
    rcases knows_of_start hlayer he with he | rfl
    · obtain ⟨y, hy, hquery, hfinished⟩ := h.known e he
      exact ⟨y, State.getElem?_snoc_of_some hy, hquery, fun hy =>
        Lua.State.mem_answered_of_step (Lua.step_of_next hlayer) (hfinished hy)⟩
    · refine ⟨x, ?_, hx.1, fun hfinished => absurd (hx.2.symm.trans hfinished) (by simp)⟩
      show (o.executions ++ [x])[o.layer.database.started]? = some x
      rw [← hcounted, List.getElem?_concat_length]

end DatabaseObject

namespace State

variable {C : State → Action → Prop} {s t : State}

/-! ### What is kept -/

/-- The database was destroyed, or is about to be. -/
def Gone (s : State) (d : ℕ) (o : DatabaseObject) : Prop := o.destroyed = true ∨ d ∈ s.ending

/-- What keeps a database alive while the module is open: the references of data that is not
finished keep its query, and a database that is gone has nothing left to do. -/
structure Linked (s : State) : Prop where
  unfinished : ∀ (d : ℕ) (o : DatabaseObject) (n : ℕ) (x : ExecutionData),
    s.databases[d]? = some o → o.executions[n]? = some x → x.finished = false →
      x.references.tableReference ≠ 0 ∧
        ∃ w, s.owners[x.query]? = some w ∧ w.database = d ∧ w.destroyed = false
  linked : ∀ (d : ℕ) (o : DatabaseObject), s.databases[d]? = some o → ¬ s.Gone d o → o.Linked
  done : ∀ (d : ℕ) (o : DatabaseObject), s.databases[d]? = some o → s.Gone d o → o.layer.Done

/-- The databases go on as the objects need it, and none of them begins to be gone. -/
def Advances (s t : State) : Prop :=
  ∀ (d : ℕ) (o' : DatabaseObject), t.databases[d]? = some o' →
    ∃ o, s.databases[d]? = some o ∧ (t.Gone d o' ↔ s.Gone d o) ∧ o.Advances (s.Gone d o) o'

/-- A step that makes no database gone, and destroys no query. -/
lemma Linked.advance (hI : s.Linked) (hadvances : s.Advances t)
    (howners : ∀ (q : ℕ) (w : Owner), s.owners[q]? = some w → w.destroyed = false →
      t.owners[q]? = some w) : t.Linked where
  unfinished d o' n x ho' hx hfinished := by
    obtain ⟨o, ho, -, hadvances⟩ := hadvances d o' ho'
    obtain ⟨hne, w, hw, hd, hlive⟩ :=
      hI.unfinished d o n x ho (hadvances.unfinished n x hx hfinished) hfinished
    exact ⟨hne, w, howners _ w hw hlive, hd, hlive⟩
  linked d o' ho' hgone := by
    obtain ⟨o, ho, hiff, hadvances⟩ := hadvances d o' ho'
    rw [hiff] at hgone
    exact hadvances.linked hgone (hI.linked d o ho hgone)
  done d o' ho' hgone := by
    obtain ⟨o, ho, hiff, hadvances⟩ := hadvances d o' ho'
    rw [hiff] at hgone
    exact hadvances.done hgone (hI.done d o ho hgone)

/-- The databases are as they were but for one. -/
lemma advances_modify {d : ℕ} {o : DatabaseObject} {f : DatabaseObject → DatabaseObject}
    (hdatabases : t.databases = s.databases.modify d f) (ho : s.databases[d]? = some o)
    (hgone : t.Gone d (f o) ↔ s.Gone d o)
    (hothers : ∀ i o, i ≠ d → (t.Gone i o ↔ s.Gone i o))
    (hadvances : o.Advances (s.Gone d o) (f o)) : s.Advances t := by
  intro i o' ho'
  rw [hdatabases, List.getElem?_modify] at ho'
  obtain ⟨y, hy, rfl⟩ := Option.map_eq_some_iff.1 ho'
  by_cases hi : d = i
  · subst hi
    obtain rfl := Option.some.inj (ho.symm.trans hy)
    exact ⟨o, ho, by simpa using hgone, by simpa using hadvances⟩
  · rw [if_neg hi]
    exact ⟨y, hy, hothers i y (Ne.symm hi), .refl y⟩

/-- No database begins to be gone, where none is destroyed and the stack is as it was. -/
lemma gone_iff (hending : t.ending = s.ending) {d : ℕ} {o o' : DatabaseObject}
    (hdestroyed : o'.destroyed = o.destroyed) : t.Gone d o' ↔ s.Gone d o := by
  rw [Gone, Gone, hdestroyed, hending]

lemma advances_one {d : ℕ} {o : DatabaseObject} {f : DatabaseObject → DatabaseObject}
    (hdatabases : t.databases = s.databases.modify d f) (hending : t.ending = s.ending)
    (ho : s.databases[d]? = some o) (hdestroyed : (f o).destroyed = o.destroyed)
    (hadvances : o.Advances (s.Gone d o) (f o)) : s.Advances t :=
  advances_modify hdatabases ho (gone_iff hending hdestroyed) (fun _ _ _ => gone_iff hending rfl)
    hadvances

/-- The databases are as they were. -/
lemma advances_same (hdatabases : t.databases = s.databases) (hending : t.ending = s.ending) :
    s.Advances t :=
  fun _ o' ho' => ⟨o', hdatabases ▸ ho', gone_iff hending rfl, .refl o'⟩

/-! ### The operations on the databases -/

lemma databases_finishData (q : ℕ) (data : Data) (x : ExecutionData) :
    (s.finishData q data x).databases = s.databases := by
  rw [finishData_eq]

lemma databases_finishLuaQueryData (d : ℕ) (e : Execution) :
    (s.finishLuaQueryData d e).databases = s.databases.modify d (·.finish e) := by
  unfold finishLuaQueryData
  split
  · rename_i hnone
    -- the execution has no data, and nothing changes
    refine List.ext_getElem? fun i => ?_
    rw [List.getElem?_modify]
    cases ho : s.databases[i]? with
    | none => rfl
    | some o =>
        by_cases hi : d = i
        · subst hi
          have hout : o.executions[e.data]? = none := by
            rwa [executionData, ho, Option.bind_some] at hnone
          have hsame : o.executions.modify e.data ExecutionData.finish = o.executions :=
            List.modify_eq_self (List.getElem?_eq_none_iff.1 hout)
          simp [DatabaseObject.finish, hsame]
        · simp [hi]
  · show (s.finishData _ _ _).databases.modify d _ = _
    rw [databases_finishData]
    rfl

lemma databases_clearAddedQueries (u : ℕ) :
    (s.clearAddedQueries u).databases = s.databases := by
  unfold clearAddedQueries
  split <;> rfl

lemma databases_endCallback (d : ℕ) (e : Execution) (loc : Local) :
    (s.endCallback d e loc).databases = s.databases := by
  cases loc with
  | transaction =>
      show (s.clearAddedQueriesFromCallbackTable d e).databases = _
      unfold clearAddedQueriesFromCallbackTable
      split
      · exact databases_clearAddedQueries e.query
      · rfl
  | _ => rfl

lemma databases_pushResults {α : Type} (l : List α) :
    (l.foldl (fun s _ => s.pushResults) s).databases = s.databases := by
  induction l generalizing s with
  | nil => rfl
  | cons a l ih => exact ih (s := s.pushResults)

lemma databases_runCallback (d : ℕ) (e : Execution) :
    (s.runCallback d e).1.databases = s.databases := by
  unfold runCallback
  split
  · simp only
    split
    · rfl
    · split
      · rfl
      · rfl
      · split
        · split
          · rfl
          · exact databases_pushResults _
        · rfl
  · rfl

lemma databases_perform (d : ℕ) (loc : Local) (effect : Lua.Effect) :
    (s.perform d loc effect).1.databases = s.databases.modify d (·.performed effect) := by
  have hid : ∀ {f : DatabaseObject → DatabaseObject}, f = id →
      s.databases = s.databases.modify d f := by
    rintro f rfl
    exact (List.modify_id d s.databases).symm
  have hfinish : ∀ e, ((s.endCallback d e loc).finishLuaQueryData d e).databases =
      s.databases.modify d (·.finish e) := fun e => by
    rw [databases_finishLuaQueryData, databases_endCallback]
  cases effect with
  | think effect =>
      cases effect with
      | freeTable =>
          show (s.freeTable d).databases = _
          unfold freeTable
          split
          · rename_i hnone
            exact (List.modify_eq_self (List.getElem?_eq_none_iff.1 hnone)).symm
          · rfl
      | runCallback p => exact (databases_runCallback d p.execution).trans (hid rfl)
      | finishQueryData p => exact hfinish p.execution
      | _ => exact hid rfl
  | finishAborted e => exact hfinish e
  | _ => exact hid rfl

lemma databases_afterMain (d : ℕ) (pc pc' : MainPC) :
    (s.afterMain d pc pc').databases = s.databases ∨ ∃ e, pc = .enqueue e .setFinished ∧
      (s.afterMain d pc pc').databases = s.databases.modify d (·.finish e) := by
  unfold afterMain
  split
  · exact .inr ⟨_, rfl, databases_finishLuaQueryData d _⟩
  · split <;> exact .inl rfl
  · split <;> exact .inl rfl
  · split <;> exact .inl rfl
  · split
    · split <;> exact .inl rfl
    · exact .inl rfl
  · exact .inl rfl

/-! ### The threads -/

lemma Linked.thread (hI : s.Linked) {d : ℕ} {o : DatabaseObject} {a : Lua.Action}
    {layer : Lua.State} (ho : s.databases[d]? = some o) (hlua : a ≠ .lua) (hcall : ∀ f, a ≠ .call f)
    (hlayer : Lua.machine.next o.layer a = some layer) (hC : Lua.NoLateFallback o.layer a) :
    (s.setLayer d layer).Linked :=
  hI.advance
    (advances_one rfl rfl ho rfl (DatabaseObject.advances_thread hlua hcall hlayer hC))
    fun _ _ hw _ => hw

lemma Linked.main (hI : s.Linked) {d : ℕ} {o : DatabaseObject} {c : Choice} {layer : Lua.State}
    (ho : s.databases[d]? = some o) (hlayer : Lua.machine.next o.layer (.main c) = some layer)
    (hC : Lua.NoLateFallback o.layer (.main c)) :
    ((s.setLayer d layer).afterMain d o.layer.database.mainPC layer.database.mainPC).Linked := by
  obtain ⟨-, howners, -, hstack⟩ := afterMain_spec (s := s.setLayer d layer) d
    o.layer.database.mainPC layer.database.mainPC
  have hending : ((s.setLayer d layer).afterMain d o.layer.database.mainPC
      layer.database.mainPC).ending = s.ending := by
    rcases hstack with hstack | ⟨_, _, _, hstack, hstack'⟩
    · rw [State.ending, hstack]
      rfl
    · have hstack : s.stack = _ := hstack
      rw [State.ending, State.ending, hstack, hstack']
      rfl
  refine hI.advance ?_ fun q w hw _ => howners ▸ hw
  rcases databases_afterMain (s := s.setLayer d layer) d o.layer.database.mainPC
    layer.database.mainPC with hsame | ⟨e, hpc, hfinish⟩
  · exact advances_one hsame hending ho rfl
      (DatabaseObject.advances_thread (by simp) (by simp) hlayer hC)
  · refine advances_one (f := fun o => { o.finish e with layer := layer }) ?_ hending ho rfl
      (DatabaseObject.advances_refused hlayer hC hpc)
    exact hfinish.trans (List.modify_modify_eq ..)

/-! ### The functions -/

/-- A database that is being used is not gone. -/
lemma Usable.not_gone {d : ℕ} {o : DatabaseObject} (h : s.Usable d)
    (ho : s.databases[d]? = some o) : ¬ s.Gone d o := by
  obtain ⟨hnot, x, hx⟩ := h
  rw [thread_of_database ho] at hx
  have hdestroyed : o.destroyed = false := (Prod.mk.inj (Option.some.inj hx)).2
  rintro (hgone | hgone)
  · exact absurd (hdestroyed.symm.trans hgone) (by simp)
  · exact hnot hgone

/-- The innermost function of a layer goes on. -/
lemma Linked.function (hI : s.Linked) {d : ℕ} {loc : Local} {below : List Entry}
    {o : DatabaseObject} {f : Lua.Frame} {frames : List Lua.Frame} {effect : Lua.Effect}
    {f' : Option Lua.Frame} {layer u : Lua.State} (husable : s.Usable d)
    (ho : s.databases[d]? = some o) (hframes : o.layer.frames = f :: frames)
    (hnext : f.Moves o.layer.view effect f')
    (hlayer : Lua.machine.next o.layer .lua = some layer) (hu : o.layer.perform effect = some u)
    (hafter : layer = { u with frames := f'.toList ++ frames }) (hending : s.ending = [])
    (hbelow : ∀ y ∈ below, y.finalizes = false) :
    ({ (s.perform d loc effect).1.setLayer d layer with
      stack := (f'.map fun _ => Entry.function d (s.perform d loc effect).2).toList ++ below } :
        State).Linked := by
  refine hI.advance (advances_one (f := fun o => { o.performed effect with layer := layer })
    ?_ ?_ ho (o.performed_destroyed effect)
    (DatabaseObject.advances_lua (husable.not_gone ho) hframes hnext hlayer hu hafter))
    fun q w hw _ => ?_
  · show (s.perform d loc effect).1.databases.modify d _ = _
    rw [databases_perform]
    exact List.modify_modify_eq ..
  · rw [hending]
    refine ending_of_running fun y hy => ?_
    rcases List.mem_append.1 hy with hy | hy
    · obtain ⟨g, -, rfl⟩ := Option.map_eq_some_iff.1 (Option.mem_toList.1 hy)
      rfl
    · exact hbelow y hy
  · show (s.perform d loc effect).1.owners[q]? = some w
    rwa [owners_perform]

/-- `onDestroyedByLua` deletes the database, and returns. -/
lemma Linked.release (hI : s.Linked) {d : ℕ} {below : List Entry} {o : DatabaseObject}
    {r : Registry} (hstack : s.stack = .destroying d (.finishTaken []) true :: below)
    (hbelow : ∀ y ∈ below, y.finalizes = false) (ho : s.databases[d]? = some o) :
    ({ s.modifyDatabase d fun o =>
        { o with tableReference := 0, destroyed := o.destroyed || true } with
      registry := r
      stack := below } : State).Linked := by
  have hending : s.ending = [d] := by
    rw [ending_of_stack hstack, ending_of_running hbelow]
    rfl
  have hafter : below.flatMap Entry.ending = [] := ending_of_running hbelow
  have hgone : s.Gone d o := .inr (by simp [hending])
  refine hI.advance (advances_modify rfl ho ?_ (fun i o' hi => ?_) ?_) fun _ _ hw _ => hw
  · exact iff_of_true (.inl (Bool.or_true _)) hgone
  · show (o'.destroyed = true ∨ i ∈ below.flatMap Entry.ending) ↔ (o'.destroyed = true ∨ i ∈ s.ending)
    rw [hafter, hending]
    simp [hi]
  · exact ⟨fun _ _ hx _ => hx, fun h => absurd hgone h, fun _ h => h⟩

/-- `onDestroyedByLua` goes on. -/
lemma Linked.destroying (hI : s.Linked) (hguarded : s.Guarded) (hopen : s.closed = false) {d : ℕ}
    {stage : DestroyStage} {delete : Bool} {below : List Entry} {o : DatabaseObject}
    (hstack : s.stack = .destroying d stage delete :: below) (ho : s.databases[d]? = some o)
    (h : s.destroy o d delete below stage = some t) : t.Linked := by
  have hshape := hguarded.shape
  rw [hstack] at hshape
  obtain ⟨rfl, hbelow, -⟩ := hshape.of_destroying.resolve_right fun h =>
    absurd (hopen.symm.trans h.2.1) (by simp)
  have hending := ending_of_stack hstack
  have hgone : s.Gone d o := .inr (by simp [hending, Entry.ending])
  -- an operation of `Database` begins
  have hoperation : ∀ {m : Database.Call} {layer : Lua.State} {stage' : DestroyStage},
      o.layer.step (.call m) = some layer → (∀ query children, m ≠ .start query children) →
        m ≠ .connect → ({ s.setLayer d layer with
          stack := .destroying d stage' true :: below } : State).Linked :=
    fun hlayer hstart hconnect => hI.advance
      (advances_one (f := fun o => { o with layer := _ }) rfl (hending ▸ rfl) ho rfl
        ⟨fun _ _ hx _ => hx, fun h => absurd hgone h, fun _ h => h.call hlayer hstart hconnect⟩)
      fun _ _ hw _ => hw
  -- an execution is finished
  have hfinish : ∀ {e : Execution} {stage' : DestroyStage},
      ({ s.finishLuaQueryData d e with stack := .destroying d stage' true :: below } :
        State).Linked := fun {e stage'} => hI.advance
      (advances_one (f := (·.finish e)) (databases_finishLuaQueryData d e) (hending ▸ rfl) ho rfl
        ⟨fun _ _ => DatabaseObject.unfinished_finish, fun h => absurd hgone h, fun _ h => h⟩)
      fun q w hw _ => (owners_finishLuaQueryData (s := s) d e).symm ▸ hw
  cases stage with
  | abortAllQueries =>
      obtain ⟨layer, hlayer, rfl⟩ := Option.map_eq_some_iff.1 h
      exact hoperation hlayer (by simp) (by simp)
  | aborting => cases h
  | finishAborted todo =>
      cases todo with
      | nil =>
          obtain ⟨layer, hlayer, rfl⟩ := Option.map_eq_some_iff.1 h
          exact hoperation hlayer (by simp) (by simp)
      | cons e todo =>
          obtain rfl := Option.some.inj h
          exact hfinish
  | disconnecting =>
      obtain ⟨layer, hlayer, rfl⟩ := Option.map_eq_some_iff.1 h
      exact hoperation hlayer (by simp) (by simp)
  | finishTaken todo =>
      cases todo with
      | nil =>
          obtain rfl := Option.some.inj h
          exact hI.release hstack hbelow ho
      | cons e todo =>
          obtain rfl := Option.some.inj h
          exact hfinish

/-- The innermost function goes on. -/
lemma Linked.go (hI : s.Linked) (hguarded : s.Guarded) (hopen : s.closed = false)
    (h : s.go = some t) : t.Linked := by
  cases goStep_of_go h with
  | @function d loc below o f frames effect f' layer u hstack ho hframes hnext hlayer hu hafter =>
      obtain ⟨-, hending, hbelow⟩ := hguarded.running hstack rfl
      have husable := hguarded.used hopen (.function d loc) (by simp [hstack]) d (decide_eq_true rfl)
      exact hI.function husable ho hframes hnext hlayer hu hafter hending hbelow
  | @hooksDone below hstack =>
      refine hI.advance (advances_same rfl ?_) fun _ _ hw _ => hw
      rw [ending_of_stack hstack]
      rfl
  | @hook d reference rest below o layer hstack ho hlayer =>
      have huse : (Entry.thinkHooks ((d, reference) :: rest)).uses d = true := by simp [Entry.uses]
      have husable := hguarded.used hopen (.thinkHooks ((d, reference) :: rest)) (by simp [hstack])
        d huse
      refine hI.advance (advances_one (f := fun o => { o with layer := layer }) rfl ?_ ho rfl
        (DatabaseObject.advances_call (husable.not_gone ho) hlayer (by simp)
          (.inl ⟨rfl, by simp⟩))) fun _ _ hw _ => hw
      rw [ending_of_stack hstack]
      rfl
  | @destroying d stage delete below o t hstack ho ht =>
      simp only [State.go, hstack, ho, Option.bind_some] at h
      exact hI.destroying hguarded hopen hstack ho h
  | @shutdownDone below hstack | @shutdown d rest below hstack =>
      have hshape := hguarded.shape
      rw [hstack] at hshape
      exact absurd (hopen.symm.trans hshape.of_shutdownAll.1) (by simp)

/-! ### What user code does -/

lemma Linked.create (hI : s.Linked) (hending : s.ending = []) :
    Linked { s with databases := s.databases ++ [{}] } where
  unfinished d o n x ho hx hfinished := by
    rcases getElem?_snoc ho with ho | ⟨-, rfl⟩
    · exact hI.unfinished d o n x ho hx hfinished
    · cases hx
  linked d o ho hgone := by
    rcases getElem?_snoc ho with ho | ⟨-, rfl⟩
    · exact hI.linked d o ho hgone
    · refine ⟨.init, rfl, fun e he => ?_⟩
      rcases he with he | ⟨stage, hpc⟩
      · cases he
      · cases hpc
  done d o ho hgone := by
    rcases getElem?_snoc ho with ho | ⟨-, rfl⟩
    · exact hI.done d o ho hgone
    · rcases hgone with hgone | hgone
      · cases hgone
      · have hgone : d ∈ s.ending := hgone
        rw [hending] at hgone
        cases hgone

/-- `start` has built an execution of a query that was not destroyed. -/
lemma Linked.start (hI : s.Linked) {q n : ℕ} {x : QueryObject} {o : DatabaseObject}
    {layer : Lua.State} {data : ExecutionData} (hx : s.queries[q]? = some x)
    (hlive : x.destroyed = false) (husable : s.Usable x.database)
    (ho : s.databases[x.database]? = some o)
    (hcounted : o.executions.length = o.layer.database.started)
    (hlayer : Lua.machine.next o.layer (.call (.start q n)) = some layer)
    (hdata : data.query = q ∧ data.references.tableReference ≠ 0 ∧ data.finished = false)
    (hdatabases : t.databases = s.databases.modify x.database fun o =>
      { o with layer := layer, executions := o.executions ++ [data] })
    (howners : t.owners = s.owners) (hending : t.ending = s.ending) : t.Linked := by
  have hdatabase : ∀ (d : ℕ) (o' : DatabaseObject), t.databases[d]? = some o' →
      d = x.database ∧ o' = { o with layer := layer, executions := o.executions ++ [data] } ∨
        s.databases[d]? = some o' := by
    intro d o' ho'
    rw [hdatabases, List.getElem?_modify] at ho'
    obtain ⟨y, hy, rfl⟩ := Option.map_eq_some_iff.1 ho'
    by_cases hd : x.database = d
    · subst hd
      obtain rfl := Option.some.inj (ho.symm.trans hy)
      exact .inl ⟨rfl, if_pos rfl⟩
    · rw [if_neg hd]
      exact .inr hy
  have howner : s.owners[q]? = some x.owner := by
    rw [owners, List.getElem?_map, hx]
    rfl
  have hgone : ∀ d o', t.Gone d o' ↔ s.Gone d o' := fun d o' => gone_iff hending rfl
  have hnot := husable.not_gone ho
  refine ⟨fun d o' m y ho' hy hfinished => ?_, fun d o' ho' hgone' => ?_, fun d o' ho' hgone' => ?_⟩
  · rw [howners]
    rcases hdatabase d o' ho' with ⟨rfl, rfl⟩ | ho'
    · rcases getElem?_snoc hy with hy | ⟨-, rfl⟩
      · exact hI.unfinished x.database o m y ho hy hfinished
      · exact ⟨hdata.2.1, x.owner, hdata.1 ▸ howner, rfl, hlive⟩
    · exact hI.unfinished d o' m y ho' hy hfinished
  · rw [hgone] at hgone'
    rcases hdatabase d o' ho' with ⟨rfl, rfl⟩ | ho'
    · exact (hI.linked x.database o ho hnot).start hcounted hlayer
        ⟨hdata.1, hdata.2.2⟩
    · exact hI.linked d o' ho' hgone'
  · rw [hgone] at hgone'
    rcases hdatabase d o' ho' with ⟨rfl, rfl⟩ | ho'
    · exact absurd hgone' hnot
    · exact hI.done d o' ho' hgone'

lemma Linked.call (hI : s.Linked) (hguarded : s.Guarded)
    (hcounted : ∀ b ∈ s.built, b.2.length = b.1) (huser : s.inUserCode = true) {f : Call}
    (h : CallStep s f t) : t.Linked := by
  obtain ⟨hopen, hending, hrunning⟩ := hguarded.user huser
  -- what leaves the databases, the stack and the owners as they are
  have hkeep : ∀ {t : State}, t.databases = s.databases → t.stack = s.stack →
      t.owners = s.owners → t.Linked := fun hdatabases hstack howners =>
    hI.advance (advances_same hdatabases (by rw [State.ending, State.ending, hstack]))
      fun _ _ hw _ => howners ▸ hw
  cases h with
  | create => exact hI.create hending
  | @query d isTransaction o ho =>
      refine hI.advance (advances_same rfl rfl) fun i w hw _ => ?_
      show (List.map QueryObject.owner (_ ++ [_]))[i]? = some w
      rw [List.map_append]
      exact getElem?_snoc_of_some hw
  | @addQuery u q x y hx hy ht hq => exact hkeep rfl rfl (owners_modifyQuery fun _ => rfl)
  | addQueryThrows => exact hI
  | @clearQueries u =>
      exact hkeep (databases_clearAddedQueries u) (same_clearAddedQueries u).stack
        (owners_clearAddedQueries u)
  | @startThrows q fields x o queries e hx ho hqueries he ht hstarted =>
      refine hkeep (databases_throws _ _ _ _ _) ?_ ?_
      · exact ((same_referenceCallbacks queries _).trans (same_finishData q (.execution e) _)).stack
      · exact (owners_finishData q (.execution e) _).trans (owners_referenceCallbacks queries _)
  | @start q fields x o queries e layer hx ho hqueries he hstarted hlayer =>
      subst hqueries
      obtain ⟨hquery, hlive⟩ := query_of_live hx
      have howner : x.owner ∈ s.owners := List.mem_map_of_mem (List.mem_of_getElem? hquery)
      have hlength : o.executions.length = o.layer.database.started := by
        have hbuilt := hcounted o.built (List.mem_of_getElem? (built_of_database ho))
        rwa [DatabaseObject.built, List.length_map] at hbuilt
      refine hI.start hquery hlive (hguarded.owned hopen x.owner howner hlive).2 ho hlength hlayer
        ⟨rfl, Nat.succ_ne_zero _, rfl⟩ databases_begun ?_ ?_
      · exact (owners_started _).trans (owners_referenceCallbacks _ _)
      · have hsame := same_referenceCallbacks (s := s)
          (x.addedQueries.map fun added => (added.query, added.data))
          (referenceCallbacks s.registry fields).2
        exact congrArg (List.flatMap Entry.ending) hsame.stack
  | getData => exact hkeep rfl rfl rfl
  | @connect d o layer ho hlayer =>
      have husable := usable_of_live hending ho
      have ho := (database_of_live ho).1
      have hnot := husable.not_gone ho
      unfold referenceTable
      split
      · refine hI.advance (advances_one
          (f := fun o => { o with layer := layer, tableReference := s.registry.fresh })
          (List.modify_modify_eq ..) rfl ho rfl (DatabaseObject.advances_call hnot hlayer (by simp)
            (.inr ⟨Nat.succ_ne_zero _, rfl⟩))) fun _ _ hw _ => hw
      · rename_i hne
        exact hI.advance (advances_one (f := fun o => { o with layer := layer }) rfl rfl ho rfl
          (DatabaseObject.advances_call hnot hlayer (by simp) (.inr ⟨hne, rfl⟩)))
          fun _ _ hw _ => hw
  | @database d f o layer stack ho hf hlayer hstack =>
      have husable := usable_of_live hending ho
      have ho := (database_of_live ho).1
      refine hI.advance (advances_one (f := fun o => { o with layer := layer }) rfl ?_ ho rfl
        (DatabaseObject.advances_call (husable.not_gone ho) hlayer hf.2 (.inl ⟨rfl, hf.1⟩)))
        fun _ _ hw _ => hw
      rw [hending]
      refine ending_of_running fun y hy => ?_
      rcases hstack with ⟨rfl, -⟩ | ⟨g, rfl, -⟩
      · exact hrunning y hy
      · rcases List.mem_cons.1 hy with rfl | hy
        · rfl
        · exact hrunning y hy
  | @thinkHooks order horder => exact hI.advance (advances_same rfl rfl) fun _ _ hw _ => hw

/-! ### Destruction -/

/-- Lua destroys a query that has no data left to finish. -/
lemma Linked.collectQuery (hI : s.Linked) {q : ℕ} {x : QueryObject}
    (hpinned : s.pinnedQuery q = false) : (s.destroyQuery q x).Linked := by
  have hdatabases : (s.destroyQuery q x).databases = s.databases := databases_clearAddedQueries q
  have hending : (s.destroyQuery q x).ending = s.ending :=
    congrArg (List.flatMap Entry.ending) (same_clearAddedQueries q).stack
  have howners : ∀ (i : ℕ) (w : Owner), i ≠ q → s.owners[i]? = some w →
      (s.destroyQuery q x).owners[i]? = some w := by
    intro i w hi hw
    rw [← owners_clearAddedQueries (s := s) q] at hw
    show (((s.clearAddedQueries q).queries.modify q _).map QueryObject.owner)[i]? = some w
    rw [List.getElem?_map, List.getElem?_modify_ne _ _ (Ne.symm hi), ← List.getElem?_map]
    exact hw
  refine ⟨fun d o n y ho hy hfinished => ?_, fun d o ho hgone => ?_, fun d o ho hgone => ?_⟩
  · rw [hdatabases] at ho
    obtain ⟨hne, w, hw, hd, hlive⟩ := hI.unfinished d o n y ho hy hfinished
    refine ⟨hne, w, howners _ w ?_ hw, hd, hlive⟩
    -- the references of the data keep the query
    rintro rfl
    have hfree := (Bool.or_eq_false_iff.1 hpinned).1
    have hdatabase := List.any_eq_false.1 hfree o (List.mem_of_getElem? ho)
    simp only [Bool.not_eq_true, List.any_eq_false] at hdatabase
    have hreferenced := hdatabase y (List.mem_of_getElem? hy)
    simp [hne] at hreferenced
  · rw [gone_iff hending rfl] at hgone
    exact hI.linked d o (hdatabases ▸ ho) hgone
  · rw [gone_iff hending rfl] at hgone
    exact hI.done d o (hdatabases ▸ ho) hgone

/-- The garbage collector begins to destroy a database that nothing refers to. -/
lemma Linked.collectDatabase (hI : s.Linked) (hguarded : s.Guarded) (hopen : s.closed = false)
    (hidle : s.idle = true) (hfinalizing : s.finalizing = false) {d : ℕ} {o : DatabaseObject}
    (ho : s.live d = some o) (hpinned : s.pinned d o = false) :
    (s.push (.destroying d .abortAllQueries true)).Linked := by
  have hending : s.ending = [] := ending_of_running (hguarded.not_finalizing hfinalizing).1
  have hnot := (usable_of_live hending ho).not_gone (database_of_live ho).1
  have ho := (database_of_live ho).1
  have hlinked := hI.linked d o ho hnot
  simp only [pinned, Bool.or_eq_false_iff, List.any_eq_false, decide_eq_false_iff_not,
    ne_eq, not_not] at hpinned
  obtain ⟨⟨htable, hqueries⟩, -⟩ := hpinned
  -- all data of the database is finished, so everything accepted is answered
  have hdone : o.layer.Done := by
    refine Lua.State.done_of_answered hlinked.reach (idle_database hidle ho) ?_ fun e he => ?_
    · rw [hlinked.table, htable]
      rfl
    · obtain ⟨y, hy, -, hfinished⟩ := hlinked.known e (.inl he)
      refine hfinished (Bool.of_not_eq_false fun hunfinished => ?_)
      obtain ⟨-, w, hw, hd, hlive⟩ := hI.unfinished d o e.data y ho hy hunfinished
      have hreference := (hguarded.owned hopen w (List.mem_of_getElem? hw) hlive).1
      obtain ⟨x, hx, rfl⟩ := List.mem_map.1 (List.mem_of_getElem? hw)
      exact hqueries x hx (by simpa using ⟨hd, hreference⟩)
  have hgone : ∀ i o', (s.push (.destroying d .abortAllQueries true)).Gone i o' ↔
      i = d ∨ s.Gone i o' := by
    intro i o'
    show (o'.destroyed = true ∨ i ∈ d :: s.ending) ↔ _
    rw [List.mem_cons, Gone]
    exact or_left_comm
  refine ⟨hI.unfinished, fun i o' ho' h => ?_, fun i o' ho' h => ?_⟩
  · rw [hgone, not_or] at h
    exact hI.linked i o' ho' h.2
  · rcases (hgone i o').1 h with rfl | h
    · have ho' : s.databases[i]? = some o' := ho'
      obtain rfl := Option.some.inj (ho.symm.trans ho')
      exact hdone
    · exact hI.done i o' ho' h

lemma linked_init : ({} : State).Linked where
  unfinished _ _ _ _ ho := by cases ho
  linked _ _ ho := by cases ho
  done _ _ ho := by cases ho

lemma closed_of_go (h : GoStep s t) : t.closed = s.closed := by
  cases h with
  | @function d loc below o f frames effect => exact (stack_perform d loc effect).2
  | hooksDone | hook | shutdownDone | shutdown => rfl
  | @destroying d stage delete below o t hstack ho ht =>
      cases ht with
      | operation | release => rfl
      | @finish e => exact (same_finishLuaQueryData d e).closed

/-- **What keeps a database alive.**  It holds in every state in which the module is open. -/
theorem linked_of_reach (h : machine.Reach NoLateFallback s) (hopen : s.closed = false) :
    s.Linked := by
  refine h.invariant (I := fun s => s.closed = false → s.Linked) (fun _ => linked_init)
    (fun s t a hr hI hC hnext hopen => ?_) hopen
  have hguarded := guarded_of_reach hr
  cases step_of_next hnext with
  | @thread a d o b layer hthread ho hlayer =>
      rcases hthread with ⟨c, rfl, rfl⟩ | ⟨rfl, rfl⟩
      · exact (hI hopen).thread ho (by simp) (by simp) hlayer trivial
      · exact (hI hopen).thread ho (by simp) (by simp) hlayer trivial
  | @main d c o layer ho hlayer =>
      obtain ⟨-, -, hclosed, -⟩ := afterMain_spec (s := s.setLayer d layer) d
        o.layer.database.mainPC layer.database.mainPC
      exact (hI (hclosed.symm.trans hopen)).main ho hlayer (hC o ho)
  | go hidle hgo =>
      have hopen := (closed_of_go hgo).symm.trans hopen
      have hnext : (if s.idle then s.go else none) = some t := hnext
      rw [if_pos hidle] at hnext
      exact (hI hopen).go hguarded hopen hnext
  | call hidle huser hcall =>
      exact (hI (hguarded.user huser).1).call hguarded (counted hr) huser hcall
  | @collectQuery q x hidle hfinalizing hx =>
      have hopen : s.closed = false := (same_clearAddedQueries q).closed.symm.trans hopen
      refine (hI hopen).collectQuery (Bool.of_not_eq_true fun hpinned => ?_)
      simp [machine, hidle, hfinalizing, collect, hx, hopen, hpinned] at hnext
  | @collectDatabase d o hidle hfinalizing ho hpinned =>
      have hopen : s.closed = false := hopen
      exact (hI hopen).collectDatabase hguarded hopen hidle hfinalizing ho
        (hpinned.resolve_left (by simp [hopen]))
  | close => cases hopen

/-- What an execution needs that was not answered yet is still there. -/
lemma Linked.alive (hI : s.Linked) {d : ℕ} {o : DatabaseObject} {e : Execution}
    (ho : s.databases[d]? = some o) (he : e ∈ o.layer.database.history.accepted)
    (hunanswered : e ∉ o.layer.answered) :
    ¬ s.Gone d o ∧ ∃ x, s.liveQuery e.query = some x ∧ x.database = d := by
  have hnot : ¬ s.Gone d o := fun hgone => hunanswered ((hI.done d o ho hgone).answered e he)
  obtain ⟨y, hy, hquery, hfinished⟩ := (hI.linked d o ho hnot).known e (.inl he)
  have hunfinished : y.finished = false := Bool.of_not_eq_true fun h => hunanswered (hfinished h)
  obtain ⟨-, w, hw, hd, hlive⟩ := hI.unfinished d o e.data y ho hy hunfinished
  rw [hquery, owners, List.getElem?_map] at hw
  obtain ⟨x, hx, rfl⟩ := Option.map_eq_some_iff.1 hw
  have hlive : x.destroyed = false := hlive
  exact ⟨hnot, x, by rw [liveQuery, hx, Option.filter_some, hlive]; rfl, hd⟩

end State

open State

/-- **What the garbage collector destroys is idle.**  Whatever user code and the threads do, while
the module is open and `completeQueryWithError` tests only what the worker thread is not
completing: as long as the terminal callback of an accepted execution was not invoked, neither
its query nor its database is destroyed; and a database that was destroyed, or that
`onDestroyedByLua` is at work on, has nothing on its queue or in the hands of its threads, and
its worker thread does not wait for the server: its next step does not depend on the answer. -/
theorem collected_idle {s : State} (h : machine.Reach NoLateFallback s) (hopen : s.closed = false)
    {d : ℕ} {o : DatabaseObject} (ho : s.databases[d]? = some o) :
    (∀ e ∈ o.layer.database.history.accepted, e ∉ o.layer.answered →
      o.destroyed = false ∧ d ∉ s.ending ∧ ∃ x, s.liveQuery e.query = some x ∧ x.database = d) ∧
      (o.destroyed = true ∨ d ∈ s.ending →
        o.layer.database.queue = [] ∧ o.layer.database.workerPC.holds = [] ∧
          o.layer.database.mainPC.holds = [] ∧
          ∀ c, o.layer.database.workerPC.next o.layer.database.toShared c =
            o.layer.database.workerPC.next o.layer.database.toShared .go) := by
  have hlinked := linked_of_reach h hopen
  have hreach := (guarded_of_reach h).reachable d _ _ (thread_of_database ho)
  refine ⟨fun e he hunanswered => ?_, fun hgone => ?_⟩
  · obtain ⟨hnot, halive⟩ := hlinked.alive ho he hunanswered
    rw [Gone, not_or] at hnot
    exact ⟨Bool.of_not_eq_true hnot.1, hnot.2, halive⟩
  · have hdrained := (hlinked.done d o ho hgone).database
    obtain ⟨hqueue, hworker, hmain⟩ := hdrained.empty hreach
    exact ⟨hqueue, hworker, hmain, hdrained.prompt hreach⟩

/-- The database is disconnected while its worker thread goes on, and the garbage collector comes
before the thread has ended. -/
def collectedRun : List Action :=
  connectSteps ++ querySteps ++ [.call (.database 0 (.disconnect false))] ++ mainSteps 4 ++
    goSteps 1 ++ mainSteps 7 ++ workerSteps 4 ++ goSteps 1 ++ [.call (.thinkHooks [0])] ++
    goSteps 9 ++ [.collect (.query 0), .collect (.database 0)]

set_option maxRecDepth 4000 in
theorem collected_idle_collectedRun :
    ∃ s o, machine.runIf NoLateFallback machine.init collectedRun = some s ∧
      s.databases[0]? = some o ∧ s.ending = [0] ∧
      o.layer.database.workerPC = .leaving .testStatus ∧ o.layer.database.queue = [] ∧
      ∀ c, o.layer.database.workerPC.next o.layer.database.toShared c =
        o.layer.database.workerPC.next o.layer.database.toShared .go := by
  have hend : (machine.runIf NoLateFallback machine.init collectedRun).bind (fun s =>
      s.databases[0]?.map fun o => (s.closed, s.ending, o.layer.database.workerPC)) =
        some (false, [0], .leaving .testStatus) := rfl
  obtain ⟨s, hs, hend⟩ := Option.bind_eq_some_iff.1 hend
  obtain ⟨o, ho, hend⟩ := Option.map_eq_some_iff.1 hend
  obtain ⟨hopen, hending, hpc⟩ : s.closed = false ∧ s.ending = [0] ∧
      o.layer.database.workerPC = .leaving .testStatus := by
    simpa only [Prod.mk.injEq] using hend
  obtain ⟨hqueue, -, -, hprompt⟩ :=
    (collected_idle (reach_of_runIf hs) hopen ho).2 (.inr (by simp [hending]))
  exact ⟨s, o, hs, ho, hending, hpc, hqueue, hprompt⟩

end GmsvPg.Objects
