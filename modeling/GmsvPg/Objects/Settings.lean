/-
# The settings of an execution

The options of a query, the parameters of a prepared query and the multi-statement mode of a
database can be set at any time.  `start` and `addQuery` build data that keeps them: a copy of
the options and of the mode, and a copy of the map of the parameters, whose fields are shared
with the query.  The worker thread reads the data when it hands a statement to libpq, and the
main thread when it makes a table of a result.  The machine here adds all of this to the one of
the Lua objects; the fields of the parameters have addresses, as the map holds pointers to them.

What is in force when the data is built is what is read from it at any later time.
-/
import GmsvPg.Database.Reconnect
import GmsvPg.Lua.LuaQuery
import GmsvPg.Objects.Staging

namespace GmsvPg

/-! ### The setters -/

namespace ParameterCall

/-- The index and the field that a call assigns, if it does not throw; `clearParameters` assigns
none. -/
def assigns : ParameterCall → Except PGException (Option (ℕ × PreparedQueryField))
  | .setNumber index value => do
      let i ← getParameterIndex index
      PreparedQuery.checkIndex i
      let text ← numberToString value
      return some (i, ⟨.number, text⟩)
  | .setString index value => do
      let i ← getParameterIndex index
      PreparedQuery.checkIndex i
      if '\x00' ∈ value then
        throw (pgException PreparedQuery.nulParameterMessage)
      return some (i, ⟨.string, value⟩)
  | .setBoolean index value => do
      let i ← getParameterIndex index
      PreparedQuery.checkIndex i
      return some (i, ⟨.boolean, if value then "true".toList else "false".toList⟩)
  | .setNull index => do
      let i ← getParameterIndex index
      PreparedQuery.checkIndex i
      return some (i, ⟨.null, []⟩)
  | .clearParameters => return none

lemma map_bind {ε α β γ : Type} (x : Except ε α) (f : α → Except ε β) (g : β → γ) :
    (x >>= f).map g = x >>= fun a => (f a).map g := by
  cases x <;> rfl

/-- What is assigned is what changes in the map. -/
lemma apply_eq (params : PreparedParameterMap) (call : ParameterCall) :
    call.apply params = call.assigns.map fun assigned =>
      assigned.elim PreparedQuery.clearParameters fun field =>
        PreparedQuery.assign params field.1 field.2 := by
  cases call with
  | clearParameters => rfl
  | setNumber index value =>
      simp only [apply, assigns, map_bind]
      rfl
  | setString index value =>
      simp only [apply, assigns, map_bind]
      refine congrArg _ (funext fun i => ?_)
      rw [PreparedQuery.setString]
      refine congrArg _ (funext fun _ => ?_)
      split <;> rfl
  | setBoolean index value =>
      simp only [apply, assigns, map_bind]
      rfl
  | setNull index =>
      simp only [apply, assigns, map_bind]
      rfl

end ParameterCall

namespace Snapshot

open Library LibpqExecutor
open Objects (DataName StagingStep)

/-! ### The state -/

/-- `PreparedParameterMap`, by the addresses of the fields. -/
abbrev FieldMap : Type := List (ℕ × ℕ)

/-- The members of `Query` and `PreparedQuery` that are read when data is built or executed. -/
structure QueryState where
  prepared : Bool := false
  sql : Text := []
  options : Options := defaultOptions
  parameters : FieldMap := []
deriving DecidableEq, Repr

/-- `QueryData` and `PreparedQueryData`, with the query that built it.  What `IQueryData` has for
the course of the execution is in the layer of the database. -/
structure DataState extends QueryData where
  query : ℕ
  parameters : FieldMap := []
deriving DecidableEq, Repr

/-- A state.  `fields` has the field at each address; `handed` and `shown` record what was handed
to libpq, and the tables that were made of results. -/
structure State where
  objects : Objects.State := {}
  multiStatements : ℕ → Bool := fun _ => true
  queries : ℕ → QueryState := fun _ => {}
  fields : List PreparedQueryField := []
  data : DataName → Option DataState := fun _ => none
  handed : List (DataName × Request) := []
  shown : List (DataName × Option StatementResult × Lua.LuaTable) := []

/-- A step: of the Lua objects; `db:query`, `db:prepare` and `db:createTransaction`, with the SQL
string; a setter; the worker thread hands a statement to libpq, the loop over the parameters
taking at most `fuel` turns, or appends a result; the main thread makes a table of the current
result of some data, or moves to the next. -/
inductive Action
  | objects (a : Objects.Action)
  | query (database : ℕ) (isTransaction prepared : Bool) (sql : Text)
  | setMultiStatements (database : ℕ) (enabled : Bool)
  | setOption (query : ℕ) (option : Options) (enabled : Bool)
  | setParameter (query : ℕ) (call : ParameterCall)
  | execute (database fuel : ℕ)
  | appendResult (database : ℕ) (result : StatementResult)
  | createResultTable (data : DataName)
  | advanceResult (data : DataName)
deriving DecidableEq

/-- `IQuery::setOption` -/
def setOption (options option : Options) (enabled : Bool) : Except PGException Options :=
  if option ≠ OPTION_NUMERIC_FIELDS ∧ option ≠ OPTION_NAMED_FIELDS ∧
      option ≠ OPTION_INTERPRET_DATA ∧ option ≠ OPTION_CACHE then
    .error (pgException "Invalid query option".toList)
  else if option = OPTION_CACHE then
    .error (pgException "pg: OPTION_CACHE is not supported by the PostgreSQL backend".toList)
  else if enabled then .ok (options ||| option)
  else .ok (options &&& ~~~option)

/-- `m_parameters[index] = field` -/
def FieldMap.assign (params : FieldMap) (index address : ℕ) : FieldMap :=
  params.filter (fun pair => decide (pair.1 ≠ index)) ++ [(index, address)]

/-- `executeSimple`, up to the request; a string with a NUL byte is refused. -/
def sendQuery (sql : Text) : Option Request :=
  if containsNul sql then none else some (.query sql)

/-- `executeParams`, up to the request. -/
def sendQueryParams (sql : Text) (parameters : List LibpqParameter) : Option Request :=
  if containsNul sql then none else some (.queryParams sql (parameters.map LibpqParameter.value))

namespace State

variable (s : State)

def modifyQuery (q : ℕ) (f : QueryState → QueryState) : State :=
  { s with queries := Function.update s.queries q (f (s.queries q)) }

def modifyData (n : DataName) (y : DataState) : State :=
  { s with data := Function.update s.data n (some y) }

/-- The parameters in a map of addresses. -/
def parameters (params : FieldMap) : PreparedParameterMap :=
  params.map fun pair => (pair.1, s.fields.getD pair.2 ⟨.null, []⟩)

/-- The database of a query. -/
def database (q : ℕ) : ℕ := s.objects.queries[q]?.elim 0 Objects.QueryObject.database

/-- `LuaQuery::buildQueryData` and `LuaPreparedQuery::buildQueryData`. -/
def buildQueryData (q : ℕ) : DataState :=
  if (s.queries q).prepared then
    { query := q
      parameters := (s.queries q).parameters
      optionsSnapshot := (s.queries q).options
      multiStatementsEnabled := false }
  else
    { query := q
      optionsSnapshot := (s.queries q).options
      multiStatementsEnabled := s.multiStatements (s.database q) }

/-- The data after a step of the objects. -/
def dataAfter (a : Objects.Action) : DataName → Option DataState :=
  match s.objects.builds a with
  | some (n, q) => Function.update s.data n (some (s.buildQueryData q))
  | none => s.data

/-- A setter of the parameters is called. -/
def setParameter (q : ℕ) (call : ParameterCall) : State :=
  match call.assigns with
  | .error _ => s
  | .ok none => s.modifyQuery q fun x => { x with parameters := [] }
  | .ok (some (index, field)) =>
      { s.modifyQuery q fun x =>
          { x with parameters := FieldMap.assign x.parameters index s.fields.length } with
        fields := s.fields ++ [field] }

/-! ### Execution -/

/-- The query whose statement the worker thread is executing, with the data: that of the
execution, or of the child of the transaction that it has come to. -/
def executing (d : ℕ) : Option (ℕ × DataName) :=
  s.objects.databases[d]?.bind fun o =>
    match o.layer.database.workerPC with
    | .running e (.executing _ none) =>
        o.executions[e.data]?.map fun x => (x.query, .execution d e.data)
    | .running e (.executing _ (some i)) =>
        o.executions[e.data]?.bind fun x => x.queries[i]?.map fun child =>
          (child.1, .staged child.2)
    | _ => none

/-- `executeStatement` of a query and of a prepared query, up to the request. -/
def executeStatement (fuel : ℕ) (x : QueryState) (y : DataState) : Option Request :=
  if x.prepared then
    (PreparedQuery.executeStatement sendQueryParams fuel x.sql (s.parameters y.parameters)).join
  else if y.multiStatementsEnabled then sendQuery x.sql
  else sendQueryParams x.sql []

/-- `executeInTransaction` of a query and of a prepared query, up to the request. -/
def executeInTransaction (fuel : ℕ) (x : QueryState) (y : DataState) : Option Request :=
  if x.prepared then
    match PreparedQuery.executeInTransaction sendQueryParams fuel x.sql
      (s.parameters y.parameters) with
    | some (.ok request) => request
    | _ => none
  else if isTransactionControlSql x.sql then none
  else sendQueryParams x.sql []

/-- What the worker thread hands to libpq for a query and its data. -/
def request (fuel q : ℕ) (n : DataName) (y : DataState) : Option Request :=
  match n with
  | .execution _ _ => s.executeStatement fuel (s.queries q) y
  | .staged _ => s.executeInTransaction fuel (s.queries q) y

/-- A statement is handed to libpq.  A transaction has no data here, and hands over none of its
own. -/
def execute (d fuel : ℕ) : Option State :=
  (s.executing d).bind fun z => (s.data z.2).bind fun y =>
    (s.request fuel z.1 z.2 y).map fun request =>
      { s with handed := s.handed ++ [(z.2, request)] }

/-- `LibpqExecutor::appendResult` -/
def appendResult (d : ℕ) (result : StatementResult) : Option State :=
  (s.executing d).bind fun z => (s.data z.2).map fun y =>
    s.modifyData z.2 { y with toQueryData := y.toQueryData.addStatementResult result }

/-! ### Steps -/

/-- User code calls a function of a query. -/
def call (q : ℕ) (t : State) : Option State :=
  if s.objects.idle && s.objects.inUserCode then (s.objects.liveQuery q).map fun _ => t else none

/-- A step of the Lua objects. -/
def objectsStep (a : Objects.Action) : Option State :=
  (Objects.machine.next s.objects a).map fun t =>
    { s with objects := t, data := s.dataAfter a }

/-- `LuaQuery::createResultTableReference`, which the success callbacks, `getData` and
`getNextResults` call. -/
def createResultTable (postgresNumberToLua : Text → Double) (n : DataName) : Option State :=
  (s.data n).map fun y =>
    { s with shown := s.shown ++
        [(n, y.current, Lua.createResultTable postgresNumberToLua y.toQueryData)] }

end State

/-- The machine. -/
def machine (postgresNumberToLua : Text → Double) : Machine State Action where
  init := {}
  next s
    | .objects (.call (.query _ _)) => none
    | .objects a => s.objectsStep a
    | .query d isTransaction prepared sql =>
        (Objects.machine.next s.objects (.call (.query d isTransaction))).map fun t =>
          { s with
            objects := t
            queries := Function.update s.queries s.objects.queries.length
              { prepared := prepared, sql := sql } }
    | .setMultiStatements d enabled =>
        if s.objects.idle && s.objects.inUserCode then
          (s.objects.live d).map fun _ =>
            { s with multiStatements := Function.update s.multiStatements d enabled }
        else none
    | .setOption q option enabled =>
        s.call q <| s.modifyQuery q fun x =>
          { x with options := (setOption x.options option enabled).toOption.getD x.options }
    | .setParameter q call =>
        if (s.queries q).prepared then s.call q (s.setParameter q call) else none
    | .execute d fuel => s.execute d fuel
    | .appendResult d result => s.appendResult d result
    | .createResultTable n => s.createResultTable postgresNumberToLua n
    | .advanceResult n => (s.data n).map fun y =>
        s.modifyData n { y with toQueryData := y.toQueryData.advanceResult.2 }

/-! ### What is in force -/

/-- What an execution depends on. -/
structure Settings where
  sql : Text
  prepared : Bool
  options : Options
  parameters : PreparedParameterMap
  multiStatements : Bool
deriving DecidableEq

/-- The request of an execution of a query with the settings, on its own or as the child of a
transaction. -/
def Settings.request (x : Settings) : DataName → Request
  | .execution _ _ =>
      (if x.prepared then Execution.preparedQuery x.sql x.parameters
        else Execution.query x.sql x.multiStatements).request
  | .staged _ =>
      (if x.prepared then Query.preparedQuery x.sql x.parameters else Query.query x.sql).request

/-- The table of a result, with the settings. -/
def Settings.table (postgresNumberToLua : Text → Double) (x : Settings)
    (result : Option StatementResult) : Lua.LuaTable :=
  result.elim [] fun result =>
    Lua.resultTable postgresNumberToLua { optionsSnapshot := x.options } result.rows

namespace State

/-- The settings in force on a query and its database. -/
def settings (s : State) (q : ℕ) : Settings where
  sql := (s.queries q).sql
  prepared := (s.queries q).prepared
  options := (s.queries q).options
  parameters := s.parameters (s.queries q).parameters
  multiStatements := s.multiStatements (s.database q)

/-- The settings that are read from some data. -/
def snapshot (s : State) (y : DataState) : Settings where
  sql := (s.queries y.query).sql
  prepared := (s.queries y.query).prepared
  options := y.optionsSnapshot
  parameters := s.parameters y.parameters
  multiStatements := y.multiStatementsEnabled

variable {s t u : State} {n : DataName}

/-- Data that is built has the settings in force. -/
lemma snapshot_buildQueryData (s : State) (q : ℕ) (n : DataName)
    (postgresNumberToLua : Text → Double) :
    (s.snapshot (s.buildQueryData q)).request n = (s.settings q).request n ∧
      (s.snapshot (s.buildQueryData q)).table postgresNumberToLua =
        (s.settings q).table postgresNumberToLua := by
  unfold buildQueryData
  cases hprepared : (s.queries q).prepared with
  | true =>
      refine ⟨?_, rfl⟩
      cases n <;> simp [Settings.request, snapshot, settings, hprepared]
  | false =>
      refine ⟨?_, rfl⟩
      cases n <;> simp [Settings.request, snapshot, settings, hprepared]

lemma sendQueryParams_eq_some {sql : Text} {parameters : List LibpqParameter} {r : Request}
    (h : sendQueryParams sql parameters = some r) :
    r = .queryParams sql (parameters.map LibpqParameter.value) := by
  unfold sendQueryParams at h
  split at h
  · cases h
  · exact (Option.some.inj h).symm

lemma sendQuery_eq_some {sql : Text} {r : Request} (h : sendQuery sql = some r) :
    r = .query sql := by
  unfold sendQuery at h
  split at h
  · cases h
  · exact (Option.some.inj h).symm

/-- The parameters of a prepared query are those in the map, where the loop ends. -/
lemma request_of_loop {fuel : ℕ} {sql : Text} {params : PreparedParameterMap}
    {parameters : List LibpqParameter} {r : Request}
    (hloop : PreparedQuery.parameterLoop params (maxParameterIndex params) fuel 1 [] =
      some parameters) (hsend : sendQueryParams sql parameters = some r) :
    r = .queryParams sql ((executionParameters params).map LibpqParameter.value) := by
  rw [← PreparedQuery.executionParameters_of_parameterLoop hloop]
  exact sendQueryParams_eq_some hsend

lemma executeStatement_eq {fuel d k : ℕ} {y : DataState} {r : Request}
    (h : s.executeStatement fuel (s.queries y.query) y = some r) :
    r = (s.snapshot y).request (.execution d k) := by
  unfold executeStatement at h
  cases hprepared : (s.queries y.query).prepared with
  | true =>
      rw [if_pos hprepared] at h
      obtain ⟨parameters, hloop, hsend⟩ := Option.map_eq_some_iff.1 (Option.join_eq_some_iff.1 h)
      rw [request_of_loop hloop hsend]
      simp [Settings.request, snapshot, hprepared, Execution.request]
  | false =>
      rw [if_neg (by simp [hprepared])] at h
      cases hmulti : y.multiStatementsEnabled with
      | true =>
          rw [if_pos hmulti] at h
          rw [sendQuery_eq_some h]
          simp [Settings.request, snapshot, hprepared, hmulti, Execution.request]
      | false =>
          rw [if_neg (by simp [hmulti])] at h
          rw [sendQueryParams_eq_some h]
          simp [Settings.request, snapshot, hprepared, hmulti, Execution.request]

lemma executeInTransaction_eq {fuel m : ℕ} {y : DataState} {r : Request}
    (h : s.executeInTransaction fuel (s.queries y.query) y = some r) :
    r = (s.snapshot y).request (.staged m) := by
  unfold executeInTransaction at h
  cases hprepared : (s.queries y.query).prepared with
  | true =>
      rw [if_pos hprepared, PreparedQuery.executeInTransaction] at h
      split at h
      · rename_i request hrequest
        split at hrequest
        · cases hrequest
        · obtain ⟨parameters, hloop, hsend⟩ := Option.map_eq_some_iff.1 hrequest
          have hsend : sendQueryParams (s.queries y.query).sql parameters = some r :=
            (Except.ok.inj hsend).trans h
          rw [request_of_loop hloop hsend]
          simp [Settings.request, snapshot, hprepared, Query.request, Query.sql, Query.parameters]
      · cases h
  | false =>
      rw [if_neg (by simp [hprepared])] at h
      split at h
      · cases h
      · rw [sendQueryParams_eq_some h]
        simp [Settings.request, snapshot, hprepared, Query.request, Query.sql, Query.parameters]

/-- What is handed to libpq is the request with the settings that are read from the data. -/
lemma request_eq {fuel : ℕ} {y : DataState} {r : Request}
    (h : s.request fuel y.query n y = some r) : r = (s.snapshot y).request n := by
  cases n with
  | execution d k => exact executeStatement_eq h
  | staged m => exact executeInTransaction_eq h

/-- A table shows a result with the settings that are read from the data. -/
lemma table_eq (postgresNumberToLua : Text → Double) (s : State) (y : DataState) :
    Lua.createResultTable postgresNumberToLua y.toQueryData =
      (s.snapshot y).table postgresNumberToLua y.current := by
  unfold Lua.createResultTable Settings.table
  cases y.current with
  | none => rfl
  | some result => rfl

end State

/-! ### The steps -/

/-- The steps of the machine, by what they change. -/
inductive Step (postgresNumberToLua : Text → Double) (s : State) : Action → State → Prop
  | objects {a : Objects.Action} {t : Objects.State}
      (h : Objects.machine.next s.objects a = some t) :
      Step postgresNumberToLua s (.objects a) { s with objects := t, data := s.dataAfter a }
  | query {d : ℕ} {isTransaction prepared : Bool} {sql : Text} {t : Objects.State}
      (h : Objects.machine.next s.objects (.call (.query d isTransaction)) = some t) :
      Step postgresNumberToLua s (.query d isTransaction prepared sql) { s with
        objects := t
        queries := Function.update s.queries s.objects.queries.length
          { prepared := prepared, sql := sql } }
  | setMultiStatements {d : ℕ} {enabled : Bool} :
      Step postgresNumberToLua s (.setMultiStatements d enabled)
        { s with multiStatements := Function.update s.multiStatements d enabled }
  /-- a setter of a query, which may make new fields -/
  | modifyQuery {a : Action} {q : ℕ} {x : QueryState} {fields : List PreparedQueryField}
      (hsql : x.sql = (s.queries q).sql) (hprepared : x.prepared = (s.queries q).prepared)
      (hfields : s.fields <+: fields)
      (hparameters : ∀ pair ∈ x.parameters,
        pair ∈ (s.queries q).parameters ∨ pair.2 < fields.length) :
      Step postgresNumberToLua s a
        { s with queries := Function.update s.queries q x, fields := fields }
  | execute {d fuel q : ℕ} {n : DataName} {y : DataState} {r : Request}
      (hexecuting : s.executing d = some (q, n)) (hy : s.data n = some y)
      (hr : s.request fuel q n y = some r) :
      Step postgresNumberToLua s (.execute d fuel) { s with handed := s.handed ++ [(n, r)] }
  /-- the results in some data, or the position in them -/
  | modifyData {a : Action} {n : DataName} {y : DataState} {data : QueryData}
      (hy : s.data n = some y) (hoptions : data.optionsSnapshot = y.optionsSnapshot)
      (hmulti : data.multiStatementsEnabled = y.multiStatementsEnabled) :
      Step postgresNumberToLua s a (s.modifyData n { y with toQueryData := data })
  | createResultTable {n : DataName} {y : DataState} (hy : s.data n = some y) :
      Step postgresNumberToLua s (.createResultTable n) { s with shown := s.shown ++
        [(n, y.current, Lua.createResultTable postgresNumberToLua y.toQueryData)] }

section

variable {postgresNumberToLua : Text → Double} {s t : State}

lemma call_eq_some {u : State} {q : ℕ} (h : s.call q u = some t) : u = t := by
  unfold State.call at h
  split at h
  · obtain ⟨x, -, h⟩ := Option.map_eq_some_iff.1 h
    exact h
  · cases h

/-- A setter of the parameters. -/
lemma step_setParameter {a : Action} (q : ℕ) (call : ParameterCall) :
    Step postgresNumberToLua s a (s.setParameter q call) := by
  unfold State.setParameter
  split
  · -- the call has thrown
    have hstep : Step postgresNumberToLua s a { s with
        queries := Function.update s.queries q (s.queries q), fields := s.fields } :=
      .modifyQuery rfl rfl (List.prefix_refl _) fun pair hpair => .inl hpair
    rw [Function.update_eq_self] at hstep
    exact hstep
  · exact .modifyQuery rfl rfl (List.prefix_refl _) fun pair hpair => absurd hpair List.not_mem_nil
  · rename_i index field hassigns
    refine .modifyQuery rfl rfl (List.prefix_append _ _) fun pair hpair => ?_
    rcases List.mem_append.1 hpair with hpair | hpair
    · exact .inl (List.mem_of_mem_filter hpair)
    · rw [List.mem_singleton.1 hpair, List.length_append]
      exact .inr (Nat.lt_succ_self _)

lemma advanceResult_spec (data : QueryData) :
    data.advanceResult.2.optionsSnapshot = data.optionsSnapshot ∧
      data.advanceResult.2.multiStatementsEnabled = data.multiStatementsEnabled := by
  unfold QueryData.advanceResult
  split <;> exact ⟨rfl, rfl⟩

lemma objects_of_next {a : Objects.Action}
    (h : (machine postgresNumberToLua).next s (.objects a) = some t) :
    ∃ o, Objects.machine.next s.objects a = some o ∧
      { s with objects := o, data := s.dataAfter a } = t := by
  have h : s.objectsStep a = some t := by
    cases a with
    | call f =>
        cases f with
        | query => cases h
        | _ => exact h
    | _ => exact h
  exact Option.map_eq_some_iff.1 h

lemma step_of_next {a : Action} (h : (machine postgresNumberToLua).next s a = some t) :
    Step postgresNumberToLua s a t := by
  cases a with
  | objects a =>
      obtain ⟨o, ho, rfl⟩ := objects_of_next h
      exact .objects ho
  | query d isTransaction prepared sql =>
      obtain ⟨u, hu, rfl⟩ := Option.map_eq_some_iff.1 h
      exact .query hu
  | setMultiStatements d enabled =>
      simp only [machine] at h
      split at h
      · obtain ⟨o, -, rfl⟩ := Option.map_eq_some_iff.1 h
        exact .setMultiStatements
      · cases h
  | setOption q option enabled =>
      obtain rfl := call_eq_some h
      exact .modifyQuery rfl rfl (List.prefix_refl _) fun pair hpair => .inl hpair
  | setParameter q call =>
      simp only [machine] at h
      split at h
      · obtain rfl := call_eq_some h
        exact step_setParameter q call
      · cases h
  | execute d fuel =>
      obtain ⟨⟨q, n⟩, hexecuting, h⟩ := Option.bind_eq_some_iff.1 h
      obtain ⟨y, hy, h⟩ := Option.bind_eq_some_iff.1 h
      obtain ⟨r, hr, rfl⟩ := Option.map_eq_some_iff.1 h
      exact .execute hexecuting hy hr
  | appendResult d result =>
      obtain ⟨⟨q, n⟩, -, h⟩ := Option.bind_eq_some_iff.1 h
      obtain ⟨y, hy, rfl⟩ := Option.map_eq_some_iff.1 h
      exact .modifyData hy rfl rfl
  | createResultTable n =>
      obtain ⟨y, hy, rfl⟩ := Option.map_eq_some_iff.1 h
      exact .createResultTable hy
  | advanceResult n =>
      obtain ⟨y, hy, rfl⟩ := Option.map_eq_some_iff.1 h
      obtain ⟨hoptions, hmulti⟩ := advanceResult_spec y.toQueryData
      exact .modifyData hy hoptions hmulti

end

end Snapshot

end GmsvPg
