/-
# The references are balanced

Every reference that the module creates is kept in a field of an object, or in a local of a
function on the stack, until it is freed.  Each operation is judged on the fields it works on;
the one place where it matters what user code does in between is the release of the table of a
database, which takes for granted that there is a reference to it.
-/
import GmsvPg.Objects.Machine
import Mathlib.Tactic.Abel

namespace GmsvPg.Objects

open Library Machine
open Library.Registry (heldAll)
open Database (Execution Choice MainPC)

/-! ### What is held -/

def ExecutionData.held (x : ExecutionData) : Multiset ℕ := heldAll x.references.fields

def DatabaseObject.held (o : DatabaseObject) : Multiset ℕ :=
  Registry.held o.tableReference + (o.executions.map ExecutionData.held).sum

def QueryObject.held (x : QueryObject) : Multiset ℕ :=
  Registry.held x.databaseReference + heldAll (x.addedQueries.map AddedQuery.tableReference)

def Local.held : Local → Multiset ℕ
  | .query dataReference => {dataReference}
  | _ => 0

def Entry.held : Entry → Multiset ℕ
  | .function _ loc => loc.held
  | .thinkHooks rest => (rest.map Prod.snd : List ℕ)
  | _ => 0

namespace State

/-- What the objects hold. -/
def objectsHeld (s : State) : Multiset ℕ :=
  (s.databases.map DatabaseObject.held).sum + (s.queries.map QueryObject.held).sum

/-- What the objects and the functions on the stack hold. -/
def held (s : State) : Multiset ℕ := s.objectsHeld + (s.stack.map Entry.held).sum

variable {s t : State}

/-! ### One object -/

/-- What the objects hold, with one database set apart. -/
lemma objectsHeld_database {d : ℕ} {o : DatabaseObject} (ho : s.databases[d]? = some o) :
    ∃ K, s.objectsHeld = o.held + K ∧
      ∀ f, (s.modifyDatabase d f).objectsHeld = (f o).held + K := by
  obtain ⟨K, hsum, hmodify⟩ := sum_map_modify DatabaseObject.held ho
  refine ⟨K + (s.queries.map QueryObject.held).sum, ?_, fun f => ?_⟩
  · rw [objectsHeld, hsum, add_assoc]
  · rw [objectsHeld, modifyDatabase, hmodify, add_assoc]

/-- What the objects hold, with one query set apart. -/
lemma objectsHeld_query {q : ℕ} {x : QueryObject} (hx : s.queries[q]? = some x) :
    ∃ K, s.objectsHeld = x.held + K ∧ ∀ f, (s.modifyQuery q f).objectsHeld = (f x).held + K := by
  obtain ⟨K, hsum, hmodify⟩ := sum_map_modify QueryObject.held hx
  refine ⟨(s.databases.map DatabaseObject.held).sum + K, ?_, fun f => ?_⟩
  · rw [objectsHeld, hsum, add_left_comm]
  · rw [objectsHeld, modifyQuery, hmodify, add_left_comm]

/-- A change of a database that leaves its references alone. -/
lemma objectsHeld_modifyDatabase {f : DatabaseObject → DatabaseObject}
    (hf : ∀ o, (f o).held = o.held) (d : ℕ) : (s.modifyDatabase d f).objectsHeld = s.objectsHeld := by
  cases ho : s.databases[d]? with
  | none =>
      rw [objectsHeld, modifyDatabase, List.modify_eq_self (List.getElem?_eq_none_iff.1 ho)]
      rfl
  | some o =>
      obtain ⟨K, hs, hmodify⟩ := objectsHeld_database ho
      rw [hmodify, hf, hs]

/-- A change of a query that leaves its references alone. -/
lemma objectsHeld_modifyQuery {f : QueryObject → QueryObject}
    (hf : ∀ x, (f x).held = x.held) (q : ℕ) : (s.modifyQuery q f).objectsHeld = s.objectsHeld := by
  cases hx : s.queries[q]? with
  | none =>
      rw [objectsHeld, modifyQuery, List.modify_eq_self (List.getElem?_eq_none_iff.1 hx)]
      rfl
  | some x =>
      obtain ⟨K, hs, hmodify⟩ := objectsHeld_query hx
      rw [hmodify, hf, hs]

@[simp] lemma objectsHeld_setLayer (d : ℕ) (layer : Lua.State) :
    (s.setLayer d layer).objectsHeld = s.objectsHeld := by
  rw [setLayer, objectsHeld_modifyDatabase]
  exact fun _ => rfl

@[simp] lemma objectsHeld_addQueryData (q : ℕ) (data : Data) :
    (s.addQueryData q data).objectsHeld = s.objectsHeld := by
  rw [addQueryData, objectsHeld_modifyQuery]
  exact fun _ => rfl

@[simp] lemma objectsHeld_finishQueryData (q : ℕ) (data : Data) :
    (s.finishQueryData q data).objectsHeld = s.objectsHeld := by
  rw [finishQueryData, objectsHeld_modifyQuery]
  exact fun _ => rfl

@[simp] lemma objectsHeld_addStaged (queries : List (ℕ × ℕ)) :
    (s.addStaged queries).objectsHeld = s.objectsHeld := by
  induction queries generalizing s with
  | nil => rfl
  | cons child queries ih => exact ih.trans (objectsHeld_addQueryData _ _)

@[simp] lemma objectsHeld_finishStaged (queries : List (ℕ × ℕ)) :
    (s.finishStaged queries).objectsHeld = s.objectsHeld := by
  induction queries generalizing s with
  | nil => rfl
  | cons child queries ih => exact ih.trans (objectsHeld_finishQueryData _ _)

/-! ### The operations on the objects -/

/-- A step of the program keeps the balance of what the objects hold. -/
def Keeps (s t : State) : Prop := s.registry.Transfers s.objectsHeld t.registry t.objectsHeld

lemma Keeps.of_eq (hregistry : s.registry = t.registry) (hheld : s.objectsHeld = t.objectsHeld) :
    s.Keeps t := Registry.Transfers.of_eq hregistry hheld

lemma objectsHeld_finishData (q : ℕ) (data : Data) (x : ExecutionData) :
    (s.finishData q data x).objectsHeld = s.objectsHeld := by
  rw [finishData, objectsHeld_finishQueryData]
  exact objectsHeld_finishStaged x.queries

/-- What a database holds, with one execution set apart. -/
lemma held_execution {o : DatabaseObject} {n : ℕ} {x : ExecutionData}
    (hx : o.executions[n]? = some x) :
    ∃ K, o.held = x.held + K ∧ ∀ f,
      ({ o with executions := o.executions.modify n f } : DatabaseObject).held = (f x).held + K := by
  obtain ⟨K, hsum, hmodify⟩ := sum_map_modify ExecutionData.held hx
  refine ⟨Registry.held o.tableReference + K, ?_, fun f => ?_⟩
  · rw [DatabaseObject.held, hsum, add_left_comm]
  · rw [DatabaseObject.held, hmodify, add_left_comm]

lemma finishLuaQueryData_keeps (d : ℕ) (e : Execution) : s.Keeps (s.finishLuaQueryData d e) := by
  cases hx : s.executionData d e with
  | none =>
      rw [finishLuaQueryData, hx]
      exact .refl _ _
  | some x =>
      obtain ⟨o, ho, hexecution⟩ := Option.bind_eq_some_iff.1 hx
      have hheld := objectsHeld_finishData (s := s) e.query (.execution e) x
      have hdatabases : (s.finishData e.query (.execution e) x).databases[d]? = some o := by
        rw [finishData_eq]
        exact ho
      obtain ⟨K, hbefore, hmodify⟩ := objectsHeld_database hdatabases
      obtain ⟨L, hset, hfinish⟩ := held_execution hexecution
      rw [Keeps, finishLuaQueryData, hx]
      show s.registry.Transfers s.objectsHeld (s.finishData e.query (.execution e) x).registry
        (State.objectsHeld (modifyDatabase _ d _))
      -- the references of the execution are set apart from what is held besides
      have hrest : s.objectsHeld = x.held + (L + K) := by
        rw [← hheld, hbefore, hset, add_assoc]
      rw [hmodify, hfinish, hrest]
      have hfree := (Registry.transfers_releaseAll s.registry x.references.fields).frame (L + K)
      rw [zero_add] at hfree
      rw [finishData_eq]
      show s.registry.Transfers _ _ (0 + L + K)
      rw [zero_add]
      exact hfree

lemma clearAddedQueries_keeps (u : ℕ) : s.Keeps (s.clearAddedQueries u) := by
  cases hx : s.queries[u]? with
  | none =>
      rw [clearAddedQueries, hx]
      exact .refl _ _
  | some x =>
      obtain ⟨K, hbefore, hmodify⟩ := objectsHeld_query hx
      rw [Keeps, clearAddedQueries, hx]
      show s.registry.Transfers s.objectsHeld _ (State.objectsHeld (modifyQuery _ u _))
      rw [hmodify, hbefore, QueryObject.held, QueryObject.held, add_assoc, add_assoc]
      exact ((Registry.transfers_releaseAll _ _).frame K).frame_left _

lemma clearAddedQueriesFromCallbackTable_keeps (d : ℕ) (e : Execution) :
    s.Keeps (s.clearAddedQueriesFromCallbackTable d e) := by
  unfold clearAddedQueriesFromCallbackTable
  split
  · exact clearAddedQueries_keeps e.query
  · exact .refl _ _

lemma Keeps.trans {u : State} (h : s.Keeps t) (h' : t.Keeps u) : s.Keeps u :=
  Registry.Transfers.trans h h'

lemma pushResults_keeps : s.Keeps s.pushResults := by
  have hcreate := (Registry.transfers_create s.registry).trans
    (Registry.transfers_free s.registry.create s.registry.fresh)
  have hframe := hcreate.frame s.objectsHeld
  rw [zero_add] at hframe
  exact hframe

/-! ### Callbacks -/

/-- `freeTable` of a database that has a reference to its table. -/
lemma freeTable_keeps {d : ℕ} (h : ∀ o, s.databases[d]? = some o → o.tableReference ≠ 0) :
    s.Keeps (s.freeTable d) := by
  cases ho : s.databases[d]? with
  | none =>
      rw [freeTable, ho]
      exact .refl _ _
  | some o =>
      obtain ⟨K, hbefore, hmodify⟩ := objectsHeld_database ho
      rw [Keeps, freeTable, ho]
      show s.registry.Transfers s.objectsHeld _ (State.objectsHeld (modifyDatabase _ d _))
      rw [hmodify, hbefore, DatabaseObject.held, DatabaseObject.held, Registry.held_of_ne (h o ho)]
      exact ((Registry.transfers_free _ _).frame _).frame K

/-- The local of `runCallback` is used up after the callback. -/
lemma endCallback_transfers (d : ℕ) (e : Execution) (loc : Local) :
    s.registry.Transfers (s.objectsHeld + loc.held) (s.endCallback d e loc).registry
      (s.endCallback d e loc).objectsHeld := by
  cases loc with
  | none =>
      show s.registry.Transfers (s.objectsHeld + 0) _ _
      rw [add_zero]
      exact .refl _ _
  | query dataReference =>
      have hfree := (Registry.transfers_free s.registry dataReference).frame_left s.objectsHeld
      rw [add_zero] at hfree
      exact hfree
  | transaction =>
      show s.registry.Transfers (s.objectsHeld + 0) _ _
      rw [add_zero]
      exact clearAddedQueriesFromCallbackTable_keeps d e

lemma held_localOf (e : Execution) : (s.localOf e).held = 0 := by
  unfold localOf
  split <;> rfl

lemma foldl_pushResults_keeps {α : Type} (l : List α) :
    s.Keeps (l.foldl (fun s _ => s.pushResults) s) := by
  induction l generalizing s with
  | nil => exact .refl _ _
  | cons a l ih => exact pushResults_keeps.trans ih

lemma runCallback_transfers (d : ℕ) (e : Execution) :
    s.registry.Transfers s.objectsHeld (s.runCallback d e).1.registry
      ((s.runCallback d e).1.objectsHeld + (s.runCallback d e).2.held) := by
  have hsame : ∀ loc : Local, loc.held = 0 →
      s.registry.Transfers s.objectsHeld s.registry (s.objectsHeld + loc.held) := by
    intro loc hloc
    rw [hloc, add_zero]
    exact .refl _ _
  unfold runCallback
  split
  · rename_i o x ho hx
    simp only
    split
    · exact hsame _ (held_localOf e)
    · split
      · exact hsame _ rfl
      · exact hsame _ (held_localOf e)
      · split
        · split
          · exact hsame _ rfl
          · show s.registry.Transfers _ _ (_ + 0)
            rw [add_zero]
            exact foldl_pushResults_keeps x.queries
        · have hcreate := (Registry.transfers_create s.registry).frame_left s.objectsHeld
          rw [add_zero] at hcreate
          exact hcreate
  · exact hsame _ rfl

/-- A function of the layer keeps the balance if the table that it releases is referenced, and
it has used up its local. -/
lemma perform_transfers (d : ℕ) (loc : Local) (effect : Lua.Effect)
    (hfree : effect = .think .freeTable → ∀ o, s.databases[d]? = some o → o.tableReference ≠ 0)
    (hloc : loc.held = 0 ∨ ∃ p, effect = .think (.finishQueryData p)) :
    s.registry.Transfers (s.objectsHeld + loc.held) (s.perform d loc effect).1.registry
      ((s.perform d loc effect).1.objectsHeld + (s.perform d loc effect).2.held) := by
  have hfinish : ∀ e, s.registry.Transfers (s.objectsHeld + loc.held)
      ((s.endCallback d e loc).finishLuaQueryData d e).registry
      (((s.endCallback d e loc).finishLuaQueryData d e).objectsHeld + Local.none.held) := by
    intro e
    rw [show Local.none.held = 0 from rfl, add_zero]
    exact (endCallback_transfers d e loc).trans (finishLuaQueryData_keeps d e)
  rcases hloc with hloc | ⟨p, rfl⟩
  · cases effect with
    | think effect =>
        cases effect with
        | freeTable => exact (freeTable_keeps (hfree rfl)).frame loc.held
        | runCallback p =>
            rw [hloc, add_zero]
            exact runCallback_transfers d p.execution
        | finishQueryData p => exact hfinish p.execution
        | _ => exact .refl _ _
    | call m => exact .refl _ _
    | runAborted e =>
        show s.registry.Transfers _ s.registry (s.objectsHeld + (s.localOf e).held)
        rw [hloc, held_localOf]
        exact .refl _ _
    | finishAborted e => exact hfinish e
  · exact hfinish p.execution

/-! ### Calls -/

lemma referenceCallbacks_transfers (r : Registry) (fields : CallbackFields) :
    r.Transfers 0 (referenceCallbacks r fields).2
      (heldAll (referenceCallbacks r fields).1.fields) := by
  have hcreate := ((((Registry.Transfers.refl r 0).createIf true).createIf fields.onSuccess).createIf
    fields.onAborted).createIf fields.onData |>.createIf fields.onError
  refine hcreate.trans (.of_eq rfl ?_)
  simp only [referenceCallbacks, CallbackReferences.fields, Registry.heldAll_cons,
    Registry.heldAll_nil]
  abel

lemma query_keeps {x : QueryObject} (hx : x.held = {s.registry.fresh}) :
    s.Keeps { s with registry := s.registry.create, queries := s.queries ++ [x] } := by
  have hcreate := (Registry.transfers_create s.registry).frame_left s.objectsHeld
  rw [add_zero] at hcreate
  refine hcreate.trans (.of_eq rfl ?_)
  rw [objectsHeld, objectsHeld, List.map_append, List.sum_append, ← hx, add_assoc]
  simp

lemma addQuery_keeps {u q : ℕ} {x : QueryObject} (hx : s.queries[u]? = some x) :
    s.Keeps { s.modifyQuery u fun x =>
        { x with addedQueries := x.addedQueries ++ [⟨s.registry.fresh, q, s.stagedCount⟩] } with
      registry := s.registry.create
      stagedCount := s.stagedCount + 1 } := by
  obtain ⟨K, hbefore, hmodify⟩ := objectsHeld_query hx
  have hcreate := (Registry.transfers_create s.registry).frame_left s.objectsHeld
  rw [add_zero] at hcreate
  refine hcreate.trans (.of_eq rfl ?_)
  show s.objectsHeld + _ = State.objectsHeld (modifyQuery _ u _)
  rw [hmodify, hbefore, QueryObject.held, QueryObject.held, List.map_append,
    Registry.heldAll_append]
  simp only [List.map_cons, List.map_nil, Registry.heldAll_cons, Registry.heldAll_nil,
    Registry.held_fresh]
  abel

lemma startThrows_keeps (q : ℕ) (fields : CallbackFields) (queries : List (ℕ × ℕ))
    (data : Data) :
    s.Keeps (({ s.addStaged queries with
        registry := (referenceCallbacks s.registry fields).2 } : State).finishData q data
      ⟨q, (referenceCallbacks s.registry fields).1, queries, false⟩).throw := by
  have hcreate := (referenceCallbacks_transfers s.registry fields).frame s.objectsHeld
  have hfree := (Registry.transfers_releaseAll (referenceCallbacks s.registry fields).2
    (referenceCallbacks s.registry fields).1.fields).frame s.objectsHeld
  rw [zero_add] at hcreate hfree
  refine (hcreate.trans hfree).trans (.of_eq ?_ ?_)
  · rw [finishData_eq]
    rfl
  · refine Eq.trans ?_ (objectsHeld_finishData (s := { s.addStaged queries with
      registry := (referenceCallbacks s.registry fields).2 }) q data
      ⟨q, (referenceCallbacks s.registry fields).1, queries, false⟩).symm
    exact (objectsHeld_addStaged queries).symm

lemma start_keeps {d : ℕ} {o : DatabaseObject} (q : ℕ) (fields : CallbackFields)
    (queries : List (ℕ × ℕ)) (data : Data) (layer : Lua.State) (ho : s.databases[d]? = some o) :
    s.Keeps ((({ s.addStaged queries with
        registry := (referenceCallbacks s.registry fields).2 } : State).addQueryData q
      data).modifyDatabase d fun o =>
        { o with
          layer := layer
          executions := o.executions ++
            [⟨q, (referenceCallbacks s.registry fields).1, queries, false⟩] }) := by
  have hcreate := (referenceCallbacks_transfers s.registry fields).frame s.objectsHeld
  rw [zero_add] at hcreate
  refine hcreate.trans (.of_eq rfl ?_)
  have hdatabases : (({ s.addStaged queries with
      registry := (referenceCallbacks s.registry fields).2 } : State).addQueryData q
        data).databases[d]? = some o := by
    rw [addStaged_eq]
    exact ho
  obtain ⟨K, hbefore, hmodify⟩ := objectsHeld_database hdatabases
  have hsame : State.objectsHeld (({ s.addStaged queries with
      registry := (referenceCallbacks s.registry fields).2 } : State).addQueryData q data) =
        s.objectsHeld :=
    (objectsHeld_addQueryData q data).trans (objectsHeld_addStaged queries)
  rw [hmodify, ← hsame, hbefore, DatabaseObject.held, DatabaseObject.held, List.map_append,
    List.sum_append, List.map_cons, List.map_nil, List.sum_cons, List.sum_nil, add_zero,
    ExecutionData.held]
  abel

lemma referenceTable_keeps {d : ℕ} {o : DatabaseObject} (ho : s.databases[d]? = some o) :
    s.Keeps (s.referenceTable d o) := by
  unfold referenceTable
  split
  · rename_i hzero
    obtain ⟨K, hbefore, hmodify⟩ := objectsHeld_database ho
    have hcreate := (Registry.transfers_create s.registry).frame_left s.objectsHeld
    rw [add_zero] at hcreate
    refine hcreate.trans (.of_eq rfl ?_)
    show s.objectsHeld + _ = State.objectsHeld (modifyDatabase _ d _)
    rw [hmodify, hbefore, DatabaseObject.held, DatabaseObject.held, hzero, Registry.held_zero,
      Registry.held_fresh]
    abel
  · exact .refl _ _

lemma transfers_creates {α : Type} (r : Registry) (l : List α) :
    r.Transfers 0 (l.foldl (fun r _ => r.create) r) (List.range' r.fresh l.length : List ℕ) := by
  induction l generalizing r with
  | nil => exact .refl _ _
  | cons a l ih =>
      have hrest := (ih r.create).frame_left {r.fresh}
      rw [add_zero] at hrest
      exact ((Registry.transfers_create r).trans hrest).trans (.of_eq rfl rfl)

lemma destroyQuery_keeps {q : ℕ} {x : QueryObject} (hx : s.queries[q]? = some x) :
    s.Keeps (s.destroyQuery q x) := by
  have hcleared : (s.clearAddedQueries q).queries[q]? = some { x with addedQueries := [] } := by
    rw [clearAddedQueries, hx]
    simp [modifyQuery, hx]
  obtain ⟨K, hbefore, hmodify⟩ := objectsHeld_query hcleared
  refine (clearAddedQueries_keeps q).trans ?_
  have hfree := ((Registry.transfers_release (s.clearAddedQueries q).registry
    x.databaseReference).frame (heldAll [])).frame K
  rw [Keeps, hbefore, QueryObject.held]
  refine hfree.trans (.of_eq rfl ?_)
  show _ = State.objectsHeld (modifyQuery _ q _)
  rw [hmodify, QueryObject.held, Registry.held_zero]
  rfl

/-! ### Steps -/

lemma main_keeps {d : ℕ} {layer : Lua.State} (pc pc' : MainPC) :
    s.Keeps ((s.setLayer d layer).afterMain d pc pc') := by
  have hlayer : s.Keeps (s.setLayer d layer) := .of_eq rfl (objectsHeld_setLayer d layer).symm
  refine hlayer.trans ?_
  unfold afterMain
  split
  · exact finishLuaQueryData_keeps d _
  · split
    · refine .of_eq rfl (Eq.symm ?_)
      rw [objectsHeld_modifyQuery]
      exact fun _ => rfl
    · exact .refl _ _
  · split <;> exact .refl _ _
  · split <;> exact .refl _ _
  · split
    · split <;> exact .refl _ _
    · exact .refl _ _
  · exact .refl _ _

lemma destroy_keeps {o : DatabaseObject} {d : ℕ} {delete : Bool} {below : List Entry}
    (ho : s.databases[d]? = some o) (h : DestroyStep s o d delete below t) :
    s.Keeps t ∧ t.stack.map Entry.held = below.map Entry.held ∨
      s.Keeps t ∧ t.stack.map Entry.held = 0 :: below.map Entry.held := by
  cases h with
  | operation => exact .inr ⟨.of_eq rfl (objectsHeld_setLayer d _).symm, rfl⟩
  | finish => exact .inr ⟨finishLuaQueryData_keeps d _, rfl⟩
  | release =>
      left
      refine ⟨?_, rfl⟩
      obtain ⟨K, hbefore, hmodify⟩ := objectsHeld_database ho
      have hfree := ((Registry.transfers_release s.registry o.tableReference).frame
        (o.executions.map ExecutionData.held).sum).frame K
      rw [Keeps, hbefore, DatabaseObject.held]
      refine hfree.trans (.of_eq rfl ?_)
      show _ = State.objectsHeld (modifyDatabase _ d _)
      rw [hmodify, DatabaseObject.held, Registry.held_zero]

end State

end GmsvPg.Objects
