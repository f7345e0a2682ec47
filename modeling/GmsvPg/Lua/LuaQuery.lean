/-
# Reading the results of a query

The functions of `LuaQuery.cpp` with which Lua reads the data of an execution: `getData`,
`hasMoreResults`, `getNextResults`, `affectedRows`, `oid` and `commandStatus`.  A result table
is the list of its rows, and a row the list of the fields that are set in it, in order.  The
number that a text stands for is left to a parameter.
-/
import GmsvPg.Postgres.PreparedQuery
import GmsvPg.Postgres.ResultStream

namespace GmsvPg.Lua

/-- The key of a field: its number or its name. -/
inductive LuaKey
  | index (n : ℕ)
  | name (name : Text)
deriving DecidableEq

/-- The value of a field. -/
inductive LuaValue
  | nil
  | bool (b : Bool)
  | number (x : Double)
  | string (value : Text)
deriving DecidableEq

/-- A result table. -/
abbrev LuaTable : Type := List (List (LuaKey × LuaValue))

section Convert

variable (postgresNumberToLua : Text → Double)

/-- The key that `dataToLua` sets. -/
def fieldKey (data : QueryData) (column : ℕ) (columnName : Text) : LuaKey :=
  if data.hasOption OPTION_NUMERIC_FIELDS || !data.hasOption OPTION_NAMED_FIELDS then .index column
  else .name columnName

/-- The value that `dataToLua` sets it to. -/
def luaValue (data : QueryData) (value : Text) (columnType : PgFieldType) (isNull : Bool) :
    LuaValue :=
  if isNull then .nil
  else if !data.hasOption OPTION_INTERPRET_DATA then .string value
  else
    match columnType with
    | .number => .number (postgresNumberToLua value)
    | .bool => .bool (value == "t".toList || value == "true".toList || value == "1".toList)
    | .null => .nil
    | .string | .binary => .string value

/-- A row of the table. -/
def luaRow (data : QueryData) (result : ResultData) (row : ResultDataRow) :
    List (LuaKey × LuaValue) :=
  (List.range row.values.length).map fun j =>
    (fieldKey data (j + 1) (result.columns.getD j []),
      luaValue postgresNumberToLua data (row.values.getD j []) (result.columnTypes.getD j .string)
        (row.nullFields.getD j false))

/-- The table of a result. -/
def resultTable (data : QueryData) (result : ResultData) : LuaTable :=
  result.rows.map (luaRow postgresNumberToLua data result)

/-- The table of `createResultTableReference`, for the current result. -/
def createResultTable (data : QueryData) : LuaTable :=
  data.current.elim [] fun result => resultTable postgresNumberToLua data result.rows

/-- `getData`, for the callback data of the query; `none` is `nil`. -/
def getData : Option QueryData → Option LuaTable
  | none => none
  | some data =>
      if data.resultStatus = .error then none
      else some (createResultTable postgresNumberToLua data)

/-- `getNextResults` -/
def getNextResults : Option QueryData → Option LuaTable × Option QueryData
  | none => (none, none)
  | some data =>
      match data.advanceResult with
      | (false, data) => (none, some data)
      | (true, data) => (some (createResultTable postgresNumberToLua data), some data)

end Convert

/-- `hasMoreResults` -/
def hasMoreResults (callbackData : Option QueryData) : Bool :=
  callbackData.any QueryData.hasMoreResults

/-- `affectedRows` -/
def affectedRows (callbackData : Option QueryData) : ℕ :=
  callbackData.elim 0 QueryData.getAffectedRows

/-- `oid` -/
def oid (callbackData : Option QueryData) : ℕ := callbackData.elim 0 QueryData.getOid

/-- `commandStatus` -/
def commandStatus (callbackData : Option QueryData) : Text :=
  callbackData.elim [] QueryData.getCommandStatus

/-- A result that is shown, with what the other accessors then return. -/
structure Shown where
  table : LuaTable
  affectedRows : ℕ
  oid : ℕ
  commandStatus : Text
deriving DecidableEq

/-- What is shown of a table. -/
def Shown.of (table : LuaTable) (callbackData : Option QueryData) : Shown :=
  ⟨table, Lua.affectedRows callbackData, Lua.oid callbackData, Lua.commandStatus callbackData⟩

section Reading

variable (postgresNumberToLua : Text → Double)

/-- `while true do local rows = query:getNextResults() if not rows then break end ... end` -/
def readNextResults : ℕ → Option QueryData → Option (List Shown)
  | 0, _ => none
  | fuel + 1, callbackData =>
      match getNextResults postgresNumberToLua callbackData with
      | (none, _) => some []
      | (some table, callbackData) =>
          (readNextResults fuel callbackData).map (Shown.of table callbackData :: ·)

/-- What is to be shown of a result. -/
def Shown.ofResult (data : QueryData) (result : StatementResult) : Shown where
  table := resultTable postgresNumberToLua data result.rows
  affectedRows := result.affectedRows
  oid := result.oid
  commandStatus := result.commandStatus

variable {postgresNumberToLua} {data : QueryData}

/-- The current result, as it is shown. -/
lemma shown_current {result : StatementResult} (h : data.current = some result) :
    Shown.of (createResultTable postgresNumberToLua data) (some data) =
      Shown.ofResult postgresNumberToLua data result := by
  simp [Shown.of, Shown.ofResult, createResultTable, affectedRows, oid, commandStatus,
    QueryData.getAffectedRows, QueryData.getOid, QueryData.getCommandStatus, h]

lemma getNextResults_end (h : data.hasMoreResults = false) :
    getNextResults postgresNumberToLua (some data) = (none, some data) := by
  rw [getNextResults, QueryData.advanceResult, h]
  rfl

lemma getNextResults_next (h : data.hasMoreResults = true) :
    getNextResults postgresNumberToLua (some data) =
      (some (createResultTable postgresNumberToLua
          { data with currentResult := data.currentResult + 1 }),
        some { data with currentResult := data.currentResult + 1 }) := by
  rw [getNextResults, QueryData.advanceResult, h]
  rfl

/-- From the cursor on, `getNextResults` shows each result once, and then returns `nil`. -/
lemma readNextResults_eq {rest : List StatementResult} {fuel : ℕ}
    (h : data.results.drop (data.currentResult + 1) = rest) (hfuel : rest.length < fuel) :
    readNextResults postgresNumberToLua fuel (some data) =
      some (rest.map (Shown.ofResult postgresNumberToLua data)) := by
  induction rest generalizing data fuel with
  | nil =>
      obtain ⟨n, rfl⟩ := Nat.exists_eq_add_of_lt hfuel
      have hend : data.hasMoreResults = false :=
        decide_eq_false (Nat.not_lt.2 (List.drop_eq_nil_iff.1 h))
      rw [readNextResults, getNextResults_end hend]
      rfl
  | cons result rest ih =>
      obtain ⟨n, rfl⟩ := Nat.exists_eq_add_of_lt hfuel
      have hlt : data.currentResult + 1 < data.results.length := by
        by_contra hge
        rw [List.drop_eq_nil_of_le (Nat.not_lt.1 hge)] at h
        cases h
      have hcurrent : data.results[data.currentResult + 1]? = some result := by
        rw [← List.head?_drop, h, List.head?_cons]
      have hrest : data.results.drop (data.currentResult + 1 + 1) = rest := by
        rw [← List.drop_drop, h, List.drop_one, List.tail_cons]
      -- the rest is read with the cursor one further
      have hnext : readNextResults postgresNumberToLua (rest.length + n + 1)
          (some { data with currentResult := data.currentResult + 1 }) =
            some (rest.map (Shown.ofResult postgresNumberToLua data)) := ih hrest (by omega)
      have hshown : Shown.of (createResultTable postgresNumberToLua
          { data with currentResult := data.currentResult + 1 })
          (some { data with currentResult := data.currentResult + 1 }) =
            Shown.ofResult postgresNumberToLua data result := shown_current hcurrent
      rw [List.length_cons, show rest.length + 1 + n + 1 = rest.length + n + 1 + 1 by omega,
        readNextResults, getNextResults_next (decide_eq_true hlt)]
      simp only
      rw [hnext, hshown, Option.map_some]
      rfl

variable (postgresNumberToLua data) in
/-- Reading shows each result once, in order: `getData` the first, if there is one, and
`getNextResults` the others; and the other accessors describe what was shown last. -/
structure ReadsOnce : Prop where
  first : getData postgresNumberToLua (some data) =
    some (data.results.head?.elim [] fun result => resultTable postgresNumberToLua data result.rows)
  described : ∀ result, data.results.head? = some result →
    Shown.of (createResultTable postgresNumberToLua data) (some data) =
      Shown.ofResult postgresNumberToLua data result
  rest : ∀ fuel, data.results.length < fuel →
    readNextResults postgresNumberToLua fuel (some data) =
      some (data.results.tail.map (Shown.ofResult postgresNumberToLua data))

lemma readsOnce (hstatus : data.resultStatus ≠ .error) (hcursor : data.currentResult = 0) :
    ReadsOnce postgresNumberToLua data := by
  have hcurrent : data.current = data.results.head? := by
    rw [QueryData.current, hcursor, List.head?_eq_getElem?]
  refine ⟨?_, fun result hresult => shown_current (hcurrent.trans hresult), fun fuel hfuel => ?_⟩
  · rw [getData, if_neg hstatus, createResultTable, hcurrent]
  · refine readNextResults_eq ?_ ?_
    · rw [hcursor, List.drop_one]
    · rw [List.length_tail]
      omega

end Reading

/-! ### Draining and reading -/

open ResultStream LibpqExecutor

lemma foldl_fetch_errorMessage (xs : List StatementPGresult) (c : PGconn) :
    (xs.foldl (fun c result => c.fetch result.toPGresult) c).errorMessage = c.errorMessage := by
  induction xs generalizing c with
  | nil => rfl
  | cons x xs ih =>
      rw [List.foldl_cons, ih]
      rfl

/-- The exception of `throwResultError`. -/
lemma resultError_spec (c : PGconn) (x : PGresult) :
    (c.resultError x).message =
        (if x.errorMessage ≠ [] then x.errorMessage else c.errorMessage) ∧
      (c.resultError x).sqlstate = x.sqlstate ∧
      ((c.resultError x).cls = .connection ↔
        c.status = .bad ∨ 2 ≤ x.sqlstate.length ∧ x.sqlstate.take 2 = "08".toList) := by
  unfold PGconn.resultError
  by_cases hlost : c.status = .bad ∨ 2 ≤ x.sqlstate.length ∧ x.sqlstate.take 2 = "08".toList
  · simp only [if_pos hlost]
    exact ⟨rfl, rfl, iff_of_true rfl hlost⟩
  · simp only [if_neg hlost]
    exact ⟨rfl, rfl, iff_of_false (by simp [pgException]) hlost⟩

lemma all_or_first (p : StatementPGresult → Bool) (results : List StatementPGresult) :
    (∀ x ∈ results, p x = true) ∨
      ∃ xs x ys, results = xs ++ x :: ys ∧ (∀ y ∈ xs, p y = true) ∧ p x = false := by
  induction results with
  | nil => exact .inl fun _ h => absurd h List.not_mem_nil
  | cons z results ih =>
      cases hz : p z with
      | false => exact .inr ⟨[], z, results, rfl, fun _ h => absurd h List.not_mem_nil, hz⟩
      | true =>
          refine ih.imp (fun h => List.forall_mem_cons.2 ⟨hz, h⟩) ?_
          rintro ⟨xs, x, ys, rfl, hxs, hx⟩
          exact ⟨z :: xs, x, ys, rfl, List.forall_mem_cons.2 ⟨hz, hxs⟩, hx⟩

section Drained

variable {PQunescapeBytea : Text → Option Text} {request : Request} {reply : Reply} {c : PGconn}
  {data : Option QueryData} {results : List StatementPGresult} {fuel : ℕ}

lemma drained (hcopy : ∀ x ∈ results, isCopyStatus x.status = false)
    (hfuel : results.length < fuel) :
    ∃ error t, ResultStream.drainResults PQunescapeBytea fuel (sent request reply c results data) =
      some (error, t) ∧ t.Complete results := by
  rcases all_or_first (fun x => isSuccessStatus x.status) results with
    hall | ⟨xs, x, ys, rfl, hxs, hx⟩
  · obtain ⟨error, hdrain⟩ := drainResults_successes hall hfuel
    exact ⟨error, _, hdrain, complete_ended.appended⟩
  · have hmem : x ∈ xs ++ x :: ys := List.mem_append_right xs List.mem_cons_self
    exact ⟨_, _, drainResults_error hxs hx (hcopy x hmem) hfuel, complete_ended.appended⟩

end Drained

/-- **Draining and reading a result stream.**  Without a `COPY` in it, every stream is drained:
each result is fetched and cleared once and the null pointer is reached, whether an exception
is thrown or not.  If all results are successes, the data of the sink is extended by the
converted results, and reading it shows each result once.  If there is an error, the results
in front of the first one were appended, and the exception has its message, or that of the
connection if it has none, and its SQLSTATE; it is a `PGConnectionException` if and only if the
connection is bad or the SQLSTATE is of class 08. -/
theorem drain_and_read (PQunescapeBytea : Text → Option Text) (postgresNumberToLua : Text → Double)
    (request : Request) (reply : Reply) (c : PGconn) (data : Option QueryData)
    (results : List StatementPGresult) (fuel : ℕ)
    (hcopy : ∀ x ∈ results, isCopyStatus x.status = false) (hfuel : results.length < fuel) :
    ∃ error t,
      drainResults PQunescapeBytea fuel (sent request reply c results data) = some (error, t) ∧
      t.Complete results ∧
      ((∀ x ∈ results, isSuccessStatus x.status = true) →
        t.data = data.map (·.addResults (results.map (.ofResult PQunescapeBytea))) ∧
        ∀ read : QueryData, some read.results = t.data.map (·.results) →
          read.resultStatus = .success → read.currentResult = 0 →
            ReadsOnce postgresNumberToLua read) ∧
      ∀ xs x ys, results = xs ++ x :: ys → (∀ y ∈ xs, isSuccessStatus y.status = true) →
        isSuccessStatus x.status = false →
        t.data = data.map (·.addResults (xs.map (.ofResult PQunescapeBytea))) ∧
        ∃ e, error = some e ∧
          e.message = (if x.errorMessage ≠ [] then x.errorMessage else c.errorMessage) ∧
          e.sqlstate = x.sqlstate ∧
          (e.cls = .connection ↔
            ((xs ++ [x]).foldl (fun c result => c.fetch result.toPGresult) c).status = .bad ∨
              2 ≤ x.sqlstate.length ∧ x.sqlstate.take 2 = "08".toList) := by
  obtain ⟨error, t, hdrain, hcomplete⟩ := drained hcopy hfuel
  refine ⟨error, t, hdrain, hcomplete, fun hall => ⟨?_, fun read _ hstatus hcursor => ?_⟩,
    fun xs x ys hresults hxs hx => ?_⟩
  · obtain ⟨error', hsuccess⟩ := drainResults_successes hall hfuel
    obtain ⟨-, rfl⟩ := Prod.mk.inj (Option.some.inj (hdrain.symm.trans hsuccess))
    rfl
  · exact readsOnce (by rw [hstatus]; decide) hcursor
  · subst hresults
    have hmem : x ∈ xs ++ x :: ys := List.mem_append_right xs List.mem_cons_self
    have hfailure := hdrain.symm.trans (drainResults_error hxs hx (hcopy x hmem) hfuel)
    obtain ⟨rfl, rfl⟩ := Prod.mk.inj (Option.some.inj hfailure)
    refine ⟨rfl, _, rfl, ?_⟩
    have hspec := resultError_spec
      ((xs ++ [x]).foldl (fun c result => c.fetch result.toPGresult) c) x.toPGresult
    rw [foldl_fetch_errorMessage] at hspec
    rw [List.foldl_append] at hspec ⊢
    exact hspec

/-- Two statements succeed and the third fails. -/
def failingStream : List StatementPGresult :=
  [{ status := .commandOk, cmdStatus := some "INSERT 0 1".toList, cmdTuples := "1".toList },
    { status := .tuplesOk, columns := [("value".toList, 25)], tuples := [[some "one".toList]] },
    { status := .fatalError, errorMessage := "ERROR:  division by zero\n".toList,
      sqlstate := "22012".toList }]

theorem drain_and_read_failingStream :
    ∃ e t,
      ResultStream.drainResults some 4 (sent (.query []) {} {} failingStream (some {})) =
        some (some e, t) ∧
      t.cleared = [0, 1, 2] ∧ (t.data.map fun data => data.results.length) = some 2 ∧
      e.message = "ERROR:  division by zero\n".toList ∧ e.cls ≠ .connection := by
  obtain ⟨error, t, hdrain, hcomplete, -, hfailure⟩ := drain_and_read some (fun _ => .nan)
    (.query []) {} {} (some {}) failingStream 4 (by decide) (by decide)
  obtain ⟨hdata, e, rfl, hmessage, -, hcls⟩ := hfailure (failingStream.take 2) _ [] rfl
    (by decide) rfl
  refine ⟨e, t, hdrain, ?_, ?_, hmessage, fun hconnection => ?_⟩
  · rw [hcomplete.cleared, hcomplete.results]
    rfl
  · rw [hdata]
    rfl
  · exact absurd (hcls.1 hconnection) (by decide)

/-- The exception for a result without a message has the message of the connection. -/
theorem message_of_connection :
    ¬ ∀ (c : PGconn) (results : List StatementPGresult) (e : PGException) (t : ResultStream)
        (x : StatementPGresult),
      ResultStream.drainResults some (results.length + 1) (sent (.query []) {} c results none) =
        some (some e, t) →
      results.head? = some x → isSuccessStatus x.status = false → isCopyStatus x.status = false →
        e.message = x.errorMessage := by
  intro h
  have hmessage := h { errorMessage := "no connection to the server\n".toList }
    [{ status := .fatalError }] _ _ _ rfl rfl rfl rfl
  exact absurd hmessage (by decide)

end GmsvPg.Lua
