/-
# No reference is leaked, and none is freed twice

The registry stays balanced against the fields of the objects and the locals of the functions
on the stack.  What was destroyed or finished holds nothing, so at the end nothing is held.
-/
import GmsvPg.Objects.InUse

namespace GmsvPg.Objects

open Library Machine
open Library.Registry (heldAll)
open Database (Execution Choice MainPC)

/-! ### What holds nothing any more -/

/-- The fields were set to zero when the database was destroyed, and those of an execution when
it was finished. -/
structure DatabaseObject.Spent (o : DatabaseObject) : Prop where
  table : o.destroyed = true → o.tableReference = 0
  executions : ∀ x ∈ o.executions, x.finished = true → x.references = {}

/-- The fields were set to zero when the query was destroyed. -/
def QueryObject.Spent (x : QueryObject) : Prop :=
  x.destroyed = true → x.databaseReference = 0 ∧ x.addedQueries = []

/-- An element of a list of which one element was modified. -/
lemma mem_of_mem_modify {α : Type} {l : List α} {i : ℕ} {f : α → α} {y : α}
    (h : y ∈ l.modify i f) : y ∈ l ∨ ∃ x, l[i]? = some x ∧ y = f x := by
  obtain ⟨j, hj⟩ := List.mem_iff_getElem?.1 h
  rw [List.getElem?_modify] at hj
  by_cases hij : i = j
  · subst hij
    cases hx : l[i]? with
    | none => simp [hx] at hj
    | some x =>
        rw [hx] at hj
        exact .inr ⟨x, rfl, by simpa using hj.symm⟩
  · exact .inl (List.mem_iff_getElem?.2 ⟨j, by simpa [hij] using hj⟩)

lemma ExecutionData.held_finished {x : ExecutionData} (h : x.references = {}) : x.held = 0 := by
  rw [held, h]
  rfl

lemma DatabaseObject.Spent.held {o : DatabaseObject} (h : o.Spent) (hdestroyed : o.destroyed = true)
    (hfinished : ∀ x ∈ o.executions, x.finished = true) : o.held = 0 := by
  have hzero : (o.executions.map ExecutionData.held).sum = 0 := by
    refine List.sum_eq_zero fun y hy => ?_
    obtain ⟨x, hx, rfl⟩ := List.mem_map.1 hy
    exact ExecutionData.held_finished (h.executions x hx (hfinished x hx))
  rw [DatabaseObject.held, hzero, h.table hdestroyed]
  rfl

lemma QueryObject.Spent.held {x : QueryObject} (h : x.Spent) (hdestroyed : x.destroyed = true) :
    x.held = 0 := by
  rw [QueryObject.held, (h hdestroyed).1, (h hdestroyed).2]
  rfl

namespace State

variable {C : State → Action → Prop} {s t : State}

/-- What was destroyed or finished holds nothing. -/
structure Spent (s : State) : Prop where
  databases : ∀ o ∈ s.databases, o.Spent
  queries : ∀ x ∈ s.queries, x.Spent

/-- A change of a database. -/
lemma Spent.modifyDatabase (h : s.Spent) {d : ℕ} {f : DatabaseObject → DatabaseObject}
    (hf : ∀ o, s.databases[d]? = some o → o.Spent → (f o).Spent) :
    (s.modifyDatabase d f).Spent := by
  refine ⟨fun o ho => ?_, h.queries⟩
  rcases mem_of_mem_modify ho with ho | ⟨y, hy, rfl⟩
  · exact h.databases o ho
  · exact hf y hy (h.databases y (List.mem_of_getElem? hy))

/-- A change of a query. -/
lemma Spent.modifyQuery (h : s.Spent) {q : ℕ} {f : QueryObject → QueryObject}
    (hf : ∀ x, s.queries[q]? = some x → x.Spent → (f x).Spent) : (s.modifyQuery q f).Spent := by
  refine ⟨h.databases, fun x hx => ?_⟩
  rcases mem_of_mem_modify hx with hx | ⟨y, hy, rfl⟩
  · exact h.queries x hx
  · exact hf y hy (h.queries y (List.mem_of_getElem? hy))

lemma Spent.setLayer (h : s.Spent) (d : ℕ) (layer : Lua.State) : (s.setLayer d layer).Spent :=
  h.modifyDatabase fun _ _ ho => ⟨ho.table, ho.executions⟩

lemma Spent.addStaged (h : s.Spent) (queries : List (ℕ × ℕ)) : (s.addStaged queries).Spent := by
  induction queries generalizing s with
  | nil => exact h
  | cons child queries ih => exact ih (h.modifyQuery fun _ _ hx => hx)

lemma Spent.finishStaged (h : s.Spent) (queries : List (ℕ × ℕ)) :
    (s.finishStaged queries).Spent := by
  induction queries generalizing s with
  | nil => exact h
  | cons child queries ih => exact ih (h.modifyQuery fun _ _ hx => hx)

lemma Spent.finishData (h : s.Spent) (q : ℕ) (data : Data) (x : ExecutionData) :
    (s.finishData q data x).Spent := by
  have hstaged : ({ s.finishStaged x.queries with
      registry := s.registry.releaseAll x.references.fields } : State).Spent :=
    ⟨(h.finishStaged x.queries).databases, (h.finishStaged x.queries).queries⟩
  exact hstaged.modifyQuery fun _ _ hx => hx

lemma Spent.finishLuaQueryData (h : s.Spent) (d : ℕ) (e : Execution) :
    (s.finishLuaQueryData d e).Spent := by
  unfold State.finishLuaQueryData
  split
  · exact h
  · refine (h.finishData _ _ _).modifyDatabase fun o _ ho => ⟨ho.table, fun x hx hfinished => ?_⟩
    rcases mem_of_mem_modify hx with hx | ⟨x, -, rfl⟩
    · exact ho.executions x hx hfinished
    · rfl

lemma Spent.clearAddedQueries (h : s.Spent) (u : ℕ) : (s.clearAddedQueries u).Spent := by
  unfold State.clearAddedQueries
  split
  · exact h
  · have hmodified := h.modifyQuery (q := u) (f := fun x => { x with addedQueries := [] })
      fun _ _ hx hdestroyed => ⟨(hx hdestroyed).1, rfl⟩
    exact ⟨hmodified.databases, hmodified.queries⟩

lemma Spent.endCallback (h : s.Spent) (d : ℕ) (e : Execution) (loc : Local) :
    (s.endCallback d e loc).Spent := by
  cases loc with
  | none => exact h
  | query dataReference => exact ⟨h.databases, h.queries⟩
  | transaction =>
      show (s.clearAddedQueriesFromCallbackTable d e).Spent
      unfold clearAddedQueriesFromCallbackTable
      split
      · exact h.clearAddedQueries _
      · exact h

lemma Spent.pushResults {α : Type} (h : s.Spent) (l : List α) :
    (l.foldl (fun s _ => s.pushResults) s).Spent := by
  induction l generalizing s with
  | nil => exact h
  | cons a l ih => exact ih (s := s.pushResults) ⟨h.databases, h.queries⟩

lemma Spent.runCallback (h : s.Spent) (d : ℕ) (e : Execution) : (s.runCallback d e).1.Spent := by
  unfold State.runCallback
  split
  · simp only
    split
    · exact h
    · split
      · exact h
      · exact h
      · split
        · split
          · exact h
          · exact h.pushResults _
        · exact ⟨h.databases, h.queries⟩
  · exact h

lemma Spent.freeTable (h : s.Spent) (d : ℕ) : (s.freeTable d).Spent := by
  unfold State.freeTable
  split
  · exact h
  · have hmodified := h.modifyDatabase (d := d) (f := fun o => { o with tableReference := 0 })
      fun _ _ ho => ⟨fun _ => rfl, ho.executions⟩
    exact ⟨hmodified.databases, hmodified.queries⟩

lemma Spent.perform (h : s.Spent) (d : ℕ) (loc : Local) (effect : Lua.Effect) :
    (s.perform d loc effect).1.Spent := by
  cases effect with
  | think effect =>
      cases effect with
      | freeTable => exact h.freeTable d
      | runCallback p => exact h.runCallback d p.execution
      | finishQueryData p =>
          exact (h.endCallback d p.execution loc).finishLuaQueryData d p.execution
      | _ => exact h
  | finishAborted e => exact (h.endCallback d e loc).finishLuaQueryData d e
  | _ => exact h

lemma Spent.afterMain (h : s.Spent) (d : ℕ) (pc pc' : MainPC) : (s.afterMain d pc pc').Spent := by
  unfold State.afterMain
  split
  · have hfinished := h.finishLuaQueryData d
    exact ⟨(hfinished _).databases, (hfinished _).queries⟩
  · split
    · exact h.modifyQuery fun _ _ hx => hx
    · exact h
  · split
    · exact ⟨h.databases, h.queries⟩
    · exact h
  · split
    · exact ⟨h.databases, h.queries⟩
    · exact h
  · split
    · split
      · exact ⟨h.databases, h.queries⟩
      · exact h
    · exact h
  · exact h

lemma Spent.go (h : s.Spent) (hgo : GoStep s t) : t.Spent := by
  cases hgo with
  | @function d loc below o f frames effect f' layer =>
      have hafter := (h.perform d loc effect).setLayer d layer
      exact ⟨hafter.databases, hafter.queries⟩
  | hooksDone | shutdownDone | shutdown => exact ⟨h.databases, h.queries⟩
  | @hook d reference rest below o layer =>
      exact ⟨(h.setLayer d layer).databases, (h.setLayer d layer).queries⟩
  | @destroying d stage delete below o t hstack ho ht =>
      cases ht with
      | @operation m layer => exact ⟨(h.setLayer d layer).databases, (h.setLayer d layer).queries⟩
      | @finish e =>
          exact ⟨(h.finishLuaQueryData d e).databases, (h.finishLuaQueryData d e).queries⟩
      | release =>
          have hmodified := h.modifyDatabase (d := d)
            (f := fun o => { o with tableReference := 0, destroyed := o.destroyed || delete })
            fun _ _ ho => ⟨fun _ => rfl, ho.executions⟩
          exact ⟨hmodified.databases, hmodified.queries⟩

lemma Spent.call (h : s.Spent) {f : Call} (hcall : CallStep s f t) : t.Spent := by
  cases hcall with
  | create =>
      refine ⟨fun o ho => ?_, h.queries⟩
      rcases List.mem_append.1 ho with ho | ho
      · exact h.databases o ho
      · rw [List.mem_singleton.1 ho]
        exact ⟨fun _ => rfl, nofun⟩
  | query =>
      refine ⟨h.databases, fun x hx => ?_⟩
      rcases List.mem_append.1 hx with hx | hx
      · exact h.queries x hx
      · rw [List.mem_singleton.1 hx]
        exact nofun
  | @addQuery u q x y hx hy =>
      obtain ⟨hx, hdestroyed⟩ := query_of_live hx
      have hmodified := h.modifyQuery (q := u) (f := fun x =>
          { x with addedQueries := x.addedQueries ++ [⟨s.registry.fresh, q, s.stagedCount⟩] })
        fun z hz _ hd => by
          obtain rfl := Option.some.inj (hx.symm.trans hz)
          exact absurd (hdestroyed.symm.trans hd) (by simp)
      exact ⟨hmodified.databases, hmodified.queries⟩
  | addQueryThrows => exact h
  | clearQueries => exact h.clearAddedQueries _
  | @startThrows q fields x o queries e =>
      have hbuilt : ({ s.addStaged queries with
          registry := (referenceCallbacks s.registry fields).2 } : State).Spent :=
        ⟨(h.addStaged queries).databases, (h.addStaged queries).queries⟩
      have hfinished := hbuilt.finishData q (.execution e)
      exact ⟨(hfinished _).databases, (hfinished _).queries⟩
  | @start q fields x o queries e layer =>
      have hbuilt : ({ s.addStaged queries with
          registry := (referenceCallbacks s.registry fields).2 } : State).Spent :=
        ⟨(h.addStaged queries).databases, (h.addStaged queries).queries⟩
      have hadded := hbuilt.modifyQuery (q := q) (f := fun x =>
        { x with runningQueryData := x.runningQueryData ++ [.execution e] }) fun _ _ hx => hx
      refine hadded.modifyDatabase fun o _ ho => ⟨ho.table, fun y hy => ?_⟩
      rcases List.mem_append.1 hy with hy | hy
      · exact ho.executions y hy
      · rw [List.mem_singleton.1 hy]
        exact nofun
  | getData => exact ⟨h.databases, h.queries⟩
  | @connect d o layer ho =>
      obtain ⟨ho, hdestroyed⟩ := database_of_live ho
      refine Spent.setLayer ?_ d layer
      unfold referenceTable
      split
      · have hmodified := h.modifyDatabase (d := d) (f := fun o =>
            { o with tableReference := s.registry.fresh }) fun y hy hspent => by
          obtain rfl := Option.some.inj (ho.symm.trans hy)
          exact ⟨fun hd => absurd (hdestroyed.symm.trans hd) (by simp), hspent.executions⟩
        exact ⟨hmodified.databases, hmodified.queries⟩
      · exact h
  | @database d f o layer => exact ⟨(h.setLayer d layer).databases, (h.setLayer d layer).queries⟩
  | thinkHooks => exact ⟨h.databases, h.queries⟩

theorem spent_of_reach (h : machine.Reach C s) : s.Spent := by
  have hinit : Spent {} :=
    ⟨fun _ ho => absurd ho List.not_mem_nil, fun _ hx => absurd hx List.not_mem_nil⟩
  refine machine_invariant (I := Spent) hinit (fun s t a _ hI _ hstep => ?_) h
  cases hstep with
  | @thread a d o b layer => exact hI.setLayer d layer
  | @main d c o layer => exact (hI.setLayer d layer).afterMain d _ _
  | go hidle hgo => exact hI.go hgo
  | call hidle huser hcall => exact hI.call hcall
  | @collectQuery q x =>
      have hmodified := (hI.clearAddedQueries q).modifyQuery (q := q) (f := fun x =>
        { x with databaseReference := 0, destroyed := true }) fun y hy _ _ => ⟨rfl, ?_⟩
      · exact ⟨hmodified.databases, hmodified.queries⟩
      · -- the queries added to it were cleared first
        unfold State.clearAddedQueries at hy
        split at hy
        · rename_i hnone
          exact absurd (hnone.symm.trans hy) (by simp)
        · have hy : (s.queries.modify q fun x => { x with addedQueries := [] })[q]? = some y := hy
          rw [List.getElem?_modify_eq] at hy
          obtain ⟨z, -, rfl⟩ := Option.map_eq_some_iff.1 hy
          rfl
  | collectDatabase | close => exact ⟨hI.databases, hI.queries⟩

/-! ### The balance -/

lemma held_of_stack {x : Entry} {below : List Entry} (hstack : s.stack = x :: below) :
    s.held = s.objectsHeld + (x.held + (below.map Entry.held).sum) := by
  rw [held, hstack, List.map_cons, List.sum_cons]

/-- The objects keep the balance, and the stack holds what it held. -/
lemma Keeps.transfers (h : s.Keeps t) (hstack : t.stack.map Entry.held = s.stack.map Entry.held) :
    s.registry.Transfers s.held t.registry t.held := by
  rw [held, held, hstack]
  exact h.frame _

/-- What an operation of `Database` that returns leads to is no matter of the stack. -/
lemma held_afterMain (d : ℕ) (pc pc' : MainPC) :
    (s.afterMain d pc pc').stack.map Entry.held = s.stack.map Entry.held := by
  unfold afterMain
  split
  · exact congrArg _ (same_finishLuaQueryData d _).stack
  · split <;> rfl
  · split <;> rfl
  · split <;> rfl
  · split
    · rename_i hstack
      split
      · rw [hstack]
        rfl
      · rfl
    · rfl
  · rfl

/-- There is a reference to the table that `think` releases. -/
lemma tableReference_of_freeTable (hr : machine.Reach Unnested s) {d : ℕ} {loc : Local}
    {below : List Entry} {o : DatabaseObject} {f : Lua.Frame} {frames : List Lua.Frame}
    {f' : Option Lua.Frame} (hstack : s.stack = .function d loc :: below)
    (ho : s.databases[d]? = some o) (hframes : o.layer.frames = f :: frames)
    (hnext : f.Moves o.layer.view (.think .freeTable) f') : o.tableReference ≠ 0 := by
  have hfine := (runs_of_reach hr).fine d
  rw [core_of_database ho] at hfine
  have halive := hfine.alive (m := .function loc)
    (by rw [marks_of_stack hstack]; simp [Entry.marks]) (by simp)
  have hsound := (fine_some.1 hfine).1 halive
  have htable : o.layer.tableReference = decide (o.tableReference ≠ 0) := hsound.table
  have hlayer : o.layer.tableReference = true :=
    Lua.State.tableReference_of_freeTable hsound.reach hframes hnext
  exact of_decide_eq_true (htable.symm.trans hlayer)

/-- The local of the innermost function fits what the function is about to do. -/
lemma fits_of_reach (hr : machine.Reach Unnested s) {d : ℕ} {loc : Local}
    {below : List Entry} {o : DatabaseObject} {f : Lua.Frame} {frames : List Lua.Frame}
    (hstack : s.stack = .function d loc :: below) (ho : s.databases[d]? = some o)
    (hframes : o.layer.frames = f :: frames) : Fits loc f := by
  have hfine := (runs_of_reach hr).fine d
  rw [core_of_database ho] at hfine
  have hmarks : s.marks d = .function loc :: below.flatMap (Entry.marks d) := by
    rw [marks_of_stack hstack]
    simp [Entry.marks]
  rw [hmarks] at hfine
  have halive := hfine.alive (m := .function loc) List.mem_cons_self (by simp)
  have hall := ((fine_some.1 hfine).1 halive).frames
  rw [show o.core.layer.frames = f :: frames from hframes] at hall
  exact (List.forall₂_cons.1 hall).1

lemma go_transfers (hr : machine.Reach Unnested s) (h : GoStep s t) :
    s.registry.Transfers s.held t.registry t.held := by
  cases h with
  | @function d loc below o f frames effect f' layer u hstack ho hframes hnext hlayer hu hafter =>
      have hfits := fits_perform (s := s) (d := d) hnext (fits_of_reach hr hstack ho hframes)
      have hperform := perform_transfers (s := s) d loc effect ?_ hfits.1
      · rw [held_of_stack hstack, ← add_assoc]
        refine (hperform.frame _).trans (.of_eq rfl ?_)
        rw [held]
        show _ = State.objectsHeld ((s.perform d loc effect).1.setLayer d layer) + _
        rw [objectsHeld_setLayer]
        cases f' with
        | none =>
            rw [hfits.2.2 rfl, add_zero]
            rfl
        | some g =>
            rw [add_assoc]
            rfl
      · rintro rfl o' ho'
        obtain rfl := Option.some.inj (ho.symm.trans ho')
        exact tableReference_of_freeTable hr hstack ho hframes hnext
  | @hooksDone below hstack =>
      rw [held_of_stack hstack]
      exact .of_eq rfl (by simp [held, Entry.held]; rfl)
  | @hook d reference rest below o layer hstack ho hlayer =>
      -- the reference to the database is freed before `think` is called
      have hfree := ((Registry.transfers_free s.registry reference).frame
        ((Entry.thinkHooks rest).held + (below.map Entry.held).sum)).frame_left s.objectsHeld
      rw [held_of_stack hstack]
      refine .trans (.of_eq rfl ?_) (hfree.trans (.of_eq rfl ?_))
      · have hheld : (Entry.thinkHooks ((d, reference) :: rest)).held =
            {reference} + (Entry.thinkHooks rest).held := rfl
        rw [hheld, add_assoc]
      · rw [held]
        show _ = State.objectsHeld (s.setLayer d layer) + _
        rw [objectsHeld_setLayer, List.map_cons, List.map_cons, List.sum_cons, List.sum_cons]
        rfl
  | @destroying d stage delete below o t hstack ho ht =>
      rw [held_of_stack hstack]
      have hzero : (Entry.destroying d stage delete).held = 0 := rfl
      rw [hzero, zero_add, held]
      rcases destroy_keeps ho ht with ⟨hkeeps, hstack'⟩ | ⟨hkeeps, hstack'⟩
      · rw [hstack']
        exact hkeeps.frame _
      · rw [hstack', List.sum_cons, zero_add]
        exact hkeeps.frame _
  | @shutdownDone below hstack =>
      rw [held_of_stack hstack]
      exact .of_eq rfl (by simp [held, Entry.held]; rfl)
  | @shutdown d rest below hstack =>
      rw [held_of_stack hstack]
      exact .of_eq rfl (by simp [held, Entry.held]; rfl)

lemma call_transfers {f : Call} (h : CallStep s f t) :
    s.registry.Transfers s.held t.registry t.held := by
  cases h with
  | create =>
      refine Keeps.transfers (.of_eq rfl ?_) rfl
      have hempty : ([({} : DatabaseObject)].map DatabaseObject.held).sum = 0 := rfl
      rw [objectsHeld, objectsHeld, List.map_append, List.sum_append, hempty, add_zero]
  | query => exact (query_keeps (by simp [QueryObject.held])).transfers rfl
  | addQuery hx hy => exact (addQuery_keeps (query_of_live hx).1).transfers rfl
  | addQueryThrows => exact .refl _ _
  | @clearQueries u =>
      exact (clearAddedQueries_keeps u).transfers (congrArg _ (same_clearAddedQueries u).stack)
  | @startThrows q fields x o queries e =>
      refine (startThrows_keeps q fields queries (.execution e)).transfers ?_
      have hbuilt := same_referenceCallbacks (s := s) queries
        (referenceCallbacks s.registry fields).2
      exact congrArg _ (hbuilt.trans (same_finishData q (.execution e) _)).stack
  | @start q fields x o queries e layer hx ho =>
      refine (start_keeps q fields queries (.execution e) layer ho).transfers ?_
      exact congrArg _ (same_referenceCallbacks (s := s) queries s.registry).stack
  | getData => exact pushResults_keeps.transfers rfl
  | @connect d o layer ho =>
      have ho := (database_of_live ho).1
      have hmoved : (s.referenceTable d o).Keeps ((s.referenceTable d o).setLayer d layer) :=
        .of_eq rfl (objectsHeld_setLayer d layer).symm
      refine ((referenceTable_keeps ho).trans hmoved).transfers ?_
      show (s.referenceTable d o).stack.map Entry.held = _
      unfold referenceTable
      split <;> rfl
  | @database d f o layer stack ho hf hlayer hstack =>
      refine .of_eq rfl ?_
      have hheld : (stack.map Entry.held).sum = (s.stack.map Entry.held).sum := by
        rcases hstack with ⟨rfl, -⟩ | ⟨g, rfl, -⟩
        · rfl
        · rw [List.map_cons, List.sum_cons]
          exact zero_add _
      rw [held, held]
      show _ = State.objectsHeld (s.setLayer d layer) + _
      rw [objectsHeld_setLayer, hheld]
  | @thinkHooks order horder =>
      have hcreate := (transfers_creates s.registry order).frame_left s.held
      rw [add_zero] at hcreate
      refine hcreate.trans (.of_eq rfl ?_)
      have hzip : (order.zip (List.range' s.registry.fresh order.length)).map Prod.snd =
          List.range' s.registry.fresh order.length :=
        List.map_snd_zip (by simp)
      rw [held_of_stack (s := s.referenceDatabases order) rfl, Entry.held, hzip, held, add_assoc,
        add_comm (List.sum _)]
      rfl

/-- **Balance.**  Each reference that was created has been freed once, or is in one field of an
object or one local of a function. -/
theorem balanced_of_reach (h : machine.Reach Unnested s) : s.registry.Balanced s.held := by
  refine machine_invariant (I := fun s => s.registry.Balanced s.held) .init
    (fun s t a hr hI hC hstep => ?_) h
  refine Registry.Transfers.balanced ?_ hI
  cases hstep with
  | @thread a d o b layer =>
      exact Keeps.transfers (.of_eq rfl (objectsHeld_setLayer d layer).symm) rfl
  | @main d c o layer => exact (main_keeps _ _).transfers (held_afterMain (s := s.setLayer d layer) d _ _)
  | go hidle hgo => exact go_transfers hr hgo
  | call hidle huser hcall => exact call_transfers hcall
  | @collectQuery q x hidle hfinalizing hx =>
      refine (destroyQuery_keeps (query_of_live hx).1).transfers ?_
      exact congrArg _ (same_clearAddedQueries (s := s) q).stack
  | collectDatabase =>
      rw [held_of_stack (s := s.push _) rfl]
      refine .of_eq rfl ?_
      have hzero : ∀ d stage delete, (Entry.destroying d stage delete).held = 0 := fun _ _ _ => rfl
      rw [hzero, zero_add]
      rfl
  | close hidle hstack =>
      refine .of_eq rfl ?_
      rw [held, held, hstack]
      rfl

/-! ### The end -/

/-- Once every object was destroyed, no function is running that holds a reference. -/
lemma held_stack_of_destroyed (hI : s.Runs) (hdestroyed : ∀ o ∈ s.databases, o.destroyed = true) :
    (s.stack.map Entry.held).sum = 0 := by
  -- the stack names no database but those that are being destroyed
  have hall : ∀ d, ∀ m ∈ s.marks d, m = .destroying := by
    intro d m hm
    refine (hI.fine d).2 (fun c hc halive => ?_) m hm
    obtain ⟨o, ho, rfl⟩ := Option.map_eq_some_iff.1
      ((List.getElem?_map (f := DatabaseObject.core)).symm.trans hc)
    exact absurd (halive.2.1.symm.trans (hdestroyed o (List.mem_of_getElem? ho))) (by simp)
  refine List.sum_eq_zero fun y hy => ?_
  obtain ⟨x, hx, rfl⟩ := List.mem_map.1 hy
  cases x with
  | function d loc =>
      have hmark := hall d (.function loc) (List.mem_flatMap.2 ⟨_, hx, by simp [Entry.marks]⟩)
      exact absurd hmark (by simp)
  | thinkHooks rest =>
      cases rest with
      | nil => rfl
      | cons hook rest =>
          have hmark := hall hook.1 .hook (List.mem_flatMap.2 ⟨_, hx, by simp [Entry.marks]⟩)
          exact absurd hmark (by simp)
  | destroying | shutdownAll => rfl

lemma objectsHeld_of_destroyed (hI : s.Spent)
    (hdatabases : ∀ o ∈ s.databases, o.destroyed = true)
    (hqueries : ∀ x ∈ s.queries, x.destroyed = true)
    (hexecutions : ∀ o ∈ s.databases, ∀ x ∈ o.executions, x.finished = true) :
    s.objectsHeld = 0 := by
  have hleft : (s.databases.map DatabaseObject.held).sum = 0 := by
    refine List.sum_eq_zero fun y hy => ?_
    obtain ⟨o, ho, rfl⟩ := List.mem_map.1 hy
    exact (hI.databases o ho).held (hdatabases o ho) (hexecutions o ho)
  have hright : (s.queries.map QueryObject.held).sum = 0 := by
    refine List.sum_eq_zero fun y hy => ?_
    obtain ⟨x, hx, rfl⟩ := List.mem_map.1 hy
    exact (hI.queries x hx).held (hqueries x hx)
  rw [objectsHeld, hleft, hright, add_zero]

end State

/-- **The references are balanced.**  In every run in which no `think` gets to its last block
inside `onDisconnected` of the same database: zero is never freed, nor is any reference twice;
and once every database and every query was destroyed and every execution finished, each
reference that was created has been freed once. -/
theorem references_balanced {s : State} (h : machine.Reach Unnested s) :
    (0 ∉ s.registry.freed ∧ s.registry.freed.Nodup) ∧
      ((∀ o ∈ s.databases, o.destroyed = true) → (∀ x ∈ s.queries, x.destroyed = true) →
        (∀ o ∈ s.databases, ∀ x ∈ o.executions, x.finished = true) →
        ∀ n, 1 ≤ n → n ≤ s.registry.created → s.registry.freed.count n = 1) := by
  have hbalanced := State.balanced_of_reach h
  refine ⟨hbalanced.freed_once, fun hdatabases hqueries hexecutions n hle hn => ?_⟩
  have hobjects := State.objectsHeld_of_destroyed (State.spent_of_reach h) hdatabases hqueries
    hexecutions
  have hstack := State.held_stack_of_destroyed (State.runs_of_reach h) hdatabases
  have hheld : s.held = 0 := by
    rw [State.held, hobjects, hstack, add_zero]
  rw [hheld] at hbalanced
  exact hbalanced.count_freed hle hn

/-! ### Runs -/

def mainSteps (n : ℕ) : List Action := List.replicate n (.main 0 .go)

def workerSteps (n : ℕ) : List Action := List.replicate n (.worker 0 .go)

def goSteps (n : ℕ) : List Action := List.replicate n .go

/-- A database is created, and connects. -/
def connectSteps : List Action :=
  [.call .create, .call (.database 0 .connect)] ++ mainSteps 5 ++ workerSteps 1 ++
    [.worker 0 (.connected none)] ++ workerSteps 4

/-- A query with two callbacks is started, executed, and finished by the Think hook. -/
def querySteps : List Action :=
  [.call (.query 0 false), .call (.start 0 ⟨true, false, false, true⟩)] ++ mainSteps 4 ++
    workerSteps 10 ++ [.worker 0 (.left none)] ++ workerSteps 9 ++
    [.call (.thinkHooks [0])] ++ goSteps 13

/-- The database is disconnected while the module is closed, and finalized after that. -/
def closedRun : List Action :=
  connectSteps ++ querySteps ++ [.close [0]] ++ goSteps 2 ++ mainSteps 4 ++ goSteps 1 ++
    mainSteps 7 ++ workerSteps 5 ++ mainSteps 1 ++ goSteps 3 ++
    [.collect (.query 0), .collect (.database 0)] ++ goSteps 1 ++ mainSteps 4 ++ goSteps 1 ++
    mainSteps 3 ++ goSteps 2

set_option maxRecDepth 4000 in
theorem references_balanced_closedRun :
    ∃ s, machine.runIf Unnested machine.init closedRun = some s ∧ s.registry.created = 7 ∧
      s.registry.freed = [6, 7, 3, 4, 5, 1, 2] ∧
      ∀ n, 1 ≤ n → n ≤ s.registry.created → s.registry.freed.count n = 1 := by
  have hend : (machine.runIf Unnested machine.init closedRun).map (fun s =>
      (s.registry, s.databases.map (·.destroyed), s.queries.map (·.destroyed),
        s.databases.flatMap fun o => o.executions.map (·.finished))) =
          some (⟨7, [6, 7, 3, 4, 5, 1, 2]⟩, [true], [true], [true]) := rfl
  obtain ⟨s, hs, hend⟩ := Option.map_eq_some_iff.1 hend
  obtain ⟨hregistry, hdatabases, hqueries, hexecutions⟩ :
      s.registry = ⟨7, [6, 7, 3, 4, 5, 1, 2]⟩ ∧ s.databases.map (·.destroyed) = [true] ∧
        s.queries.map (·.destroyed) = [true] ∧
        (s.databases.flatMap fun o => o.executions.map (·.finished)) = [true] := by
    simpa only [Prod.mk.injEq] using hend
  refine ⟨s, hs, by rw [hregistry], by rw [hregistry], ?_⟩
  refine (references_balanced (reach_of_runIf hs)).2 (fun o ho => ?_) (fun x hx => ?_)
    fun o ho x hx => ?_
  · have hmem := List.mem_map_of_mem (f := DatabaseObject.destroyed) ho
    rw [hdatabases] at hmem
    exact List.mem_singleton.1 hmem
  · have hmem := List.mem_map_of_mem (f := QueryObject.destroyed) hx
    rw [hqueries] at hmem
    exact List.mem_singleton.1 hmem
  · have hmem : x.finished ∈ s.databases.flatMap fun o => o.executions.map (·.finished) :=
      List.mem_flatMap.2 ⟨o, ho, List.mem_map_of_mem hx⟩
    rw [hexecutions] at hmem
    exact List.mem_singleton.1 hmem

/-- The database is disconnected, and `onDisconnected` calls a function that runs `think` as
well, which releases the table first. -/
def nestedRun : List Action :=
  connectSteps ++ [.call (.database 0 (.disconnect true))] ++ mainSteps 4 ++ goSteps 1 ++
    mainSteps 7 ++ workerSteps 5 ++ mainSteps 1 ++ goSteps 10 ++
    [.call (.database 0 .wait)] ++ goSteps 9

/-- Without the condition zero is freed. -/
theorem zero_freed :
    ¬ ∀ s, machine.Reachable s →
      (0 ∉ s.registry.freed ∧ s.registry.freed.Nodup) ∧
        ((∀ o ∈ s.databases, o.destroyed = true) → (∀ x ∈ s.queries, x.destroyed = true) →
          (∀ o ∈ s.databases, ∀ x ∈ o.executions, x.finished = true) →
          ∀ n, 1 ≤ n → n ≤ s.registry.created → s.registry.freed.count n = 1) := by
  intro h
  have hfreed : (machine.run machine.init nestedRun).map (·.registry.freed) = some [1, 0] := rfl
  obtain ⟨s, hs, hfreed⟩ := Option.map_eq_some_iff.1 hfreed
  refine (h s (reachable_of_run hs)).1.1 ?_
  rw [hfreed]
  exact List.mem_cons_of_mem 1 List.mem_cons_self

end GmsvPg.Objects
