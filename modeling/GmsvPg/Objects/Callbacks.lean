/-
# The callbacks of an execution

`pcallWithErrorReporter`, `pushCallbackReference` and the functions around `runCallback`, as
sequences of operations on the Lua stack.  All data is that of the layer, so that it has
callback references.  What is done to the data of the backend alone, such as setting its status
or taking it out of the running data of the query, is left out.
-/
import GmsvPg.Objects.LuaBase
import GmsvPg.Objects.Machine

namespace GmsvPg.Callbacks

open Library
open Lua (LuaKey LuaValue LuaTable)
open GmsvPg.Objects (CallbackReferences)

/-! ### `LuaObject.cpp` -/

/-- `LuaObject::pcallWithErrorReporter` -/
def pcallWithErrorReporter (code : LuaCode) (nargs : ℕ) : M Unit := do
  pushValue .errorReporter
  let errorHandlerIndex := (← Top) - nargs - 1
  Insert errorHandlerIndex
  if ← PCall code nargs errorHandlerIndex then
    pushValue (.object globals)
    GetField (-1) "ErrorNoHalt".toList
    if (← valueAt (-1)).isFunction then
      Push (-3)
      Call code 1
      Pop 2
    else
      Pop 3
  Pop 1

/-- `LuaObject::pushCallbackReference` -/
def pushCallbackReference (functionReference tableReference : ℕ) (callbackName : Text)
    (allowCallback : Bool) : M Bool := do
  if functionReference ≠ 0 then
    ReferencePush functionReference
    return true
  else if allowCallback ∧ tableReference ≠ 0 then
    ReferencePush tableReference
    GetField (-1) callbackName
    Remove ((← Top) - 2)
    if (← valueAt (-1)).isFunction then
      return true
    else
      Pop 1
      return false
  else
    return false

/-- `LuaObject::getLuaObject` -/
def getLuaObject (stackPos : ℤ) : M ℕ := do
  if !(← valueAt stackPos).isTable then throw ()
  GetField stackPos "__CppObject".toList
  match ← valueAt (-1) with
  | .userdata t =>
      Pop 1
      return t
  | _ => throw ()

/-- `LuaObject::getFunctionReference` -/
def getFunctionReference (stackPosition : ℤ) (fieldName : Text) : M ℕ := do
  GetField stackPosition fieldName
  if (← valueAt (-1)).isFunction then
    ReferenceCreate
  else
    Pop 1
    return 0

/-- `LuaIQuery::referenceCallbacks`, for data that was just built. -/
def referenceCallbacks (stackPosition : ℤ) : M CallbackReferences := do
  Push stackPosition
  let tableReference ← ReferenceCreate
  let successReference ← getFunctionReference stackPosition "onSuccess".toList
  let abortReference ← getFunctionReference stackPosition "onAborted".toList
  let onDataReference ← getFunctionReference stackPosition "onData".toList
  let errorReference ← getFunctionReference stackPosition "onError".toList
  return { successReference, errorReference, abortReference, onDataReference, tableReference }

/-! ### The data of an execution -/

/-- The data of a query that no Lua code has read yet, so that its cursor is on the first
result. -/
structure UnreadData extends QueryData where
  unread : currentResult = 0

lemma UnreadData.current_eq (data : UnreadData) : data.current = data.results.head? := by
  rw [QueryData.current, data.unread, List.head?_eq_getElem?]

lemma UnreadData.isSome_current (data : UnreadData) (h : data.hasAnyResults = true) :
    data.current.isSome = true := by
  rw [data.current_eq]
  rw [QueryData.hasAnyResults, Bool.not_eq_true', List.isEmpty_eq_false_iff] at h
  rw [List.isSome_head?]
  exact h

/-- A query that was staged in a transaction, with its data. -/
structure StagedQuery where
  query : ℕ
  data : UnreadData

/-- The data of the backend. -/
inductive Backend
  | query (sql : Text) (data : UnreadData)
  | transaction (data : IQueryData) (queries : List StagedQuery)

def Backend.data : Backend → IQueryData
  | .query _ data => data.toIQueryData
  | .transaction data _ => data

/-- A finished execution: its query, its data and its callback references, and whether it was
the first one of the query. -/
structure FinishedExecution where
  query : ℕ
  backend : Backend
  references : CallbackReferences
  isFirstData : Bool

/-- `IQuery::setCallbackData` -/
def setCallbackData (query : ℕ) : M Unit := modify fun s => s.withCallbackData query

lemma setCallbackData_on {s : State} {S : List Value} {query : ℕ} :
    setCallbackData query (s.on S) = .ok ⟨⟩ ((s.withCallbackData query).on S) := rfl

/-! ### `LuaQuery.cpp` -/

section Results

variable (postgresNumberToLua : Text → Double)

/-- `dataToLua` -/
def dataToLua (data : QueryData) (column : ℕ) (columnValue columnName : Text)
    (columnType : PgFieldType) (isNull : Bool) : M Unit := do
  let useNumericField := data.hasOption OPTION_NUMERIC_FIELDS || !data.hasOption OPTION_NAMED_FIELDS
  if useNumericField then pushValue (.index column)
  pushValue (.data (Lua.luaValue postgresNumberToLua data columnValue columnType isNull))
  if useNumericField then SetTable (-3) else SetField (-2) columnName

/-- The loop over the columns of a row. -/
def setColumns (data : QueryData) (currentData : ResultData) (row : ResultDataRow) : M Unit :=
  (List.range row.values.length).forM fun j =>
    dataToLua postgresNumberToLua data (j + 1) (row.values.getD j []) (currentData.columns.getD j [])
      (currentData.columnTypes.getD j .string) (row.nullFields.getD j false)

/-- One turn of the loop over the rows. -/
def setRow (data : QueryData) (currentData : ResultData) (dataStackPosition : ℤ) (i : ℕ)
    (row : ResultDataRow) : M Unit := do
  CreateTable
  let rowStackPosition ← Top
  setColumns postgresNumberToLua data currentData row
  Push dataStackPosition
  pushValue (.index (i + 1))
  Push rowStackPosition
  SetTable (-3)
  Pop 2

/-- `LuaQuery::createResultTableReference` -/
def createResultTableReference (query : ℕ) (data : QueryData) : M ℕ := do
  CreateTable
  let dataStackPosition ← Top
  if (← get).callbackData query && data.hasAnyResults then
    let currentData ← access data.current
    currentData.rows.rows.zipIdx.forM fun row =>
      setRow postgresNumberToLua data currentData.rows dataStackPosition row.2 row.1
  ReferenceCreate

end Results

/-- The loop of `runOnDataCallbacks`, which ends at the first field that is `nil`. -/
def onDataLoop (code : LuaCode) (tableReference : ℕ) (callbackPosition : ℤ) : ℕ → ℕ → M Unit
  | 0, _ => throw ()
  | fuel + 1, index => do
      pushValue (.index index)
      RawGet (-2)
      if (← valueAt (-1)) = .nil then
        Pop 1
      else
        let rowPosition ← Top
        Push callbackPosition
        ReferencePush tableReference
        Push rowPosition
        pcallWithErrorReporter code 2
        Pop 1
        onDataLoop code tableReference callbackPosition fuel (index + 1)

/-- `runOnDataCallbacks`; there are as many turns of its loop as rows, and one more. -/
def runOnDataCallbacks (code : LuaCode) (e : FinishedExecution) (dataReference rows : ℕ) :
    M Unit := do
  let refs := e.references
  if refs.tableReference = 0 then return
  if !(← pushCallbackReference refs.onDataReference refs.tableReference "onData".toList
      e.isFirstData) then return
  let callbackPosition ← Top
  ReferencePush dataReference
  onDataLoop code refs.tableReference callbackPosition (rows + 1) 1
  Pop 2

/-- `LuaQuery::runSuccessCallback` -/
def runQuerySuccessCallback (code : LuaCode) (postgresNumberToLua : Text → Double)
    (e : FinishedExecution) (data : UnreadData) : M Unit := do
  let dataReference ← createResultTableReference postgresNumberToLua e.query data.toQueryData
  runOnDataCallbacks code e dataReference
    (Lua.createResultTable postgresNumberToLua data.toQueryData).length
  let refs := e.references
  if !(← pushCallbackReference refs.successReference refs.tableReference "onSuccess".toList
      e.isFirstData) then
    ReferenceFree dataReference
    return
  ReferencePush refs.tableReference
  ReferencePush dataReference
  pcallWithErrorReporter code 2
  ReferenceFree dataReference

/-! ### `LuaIQuery.cpp` -/

/-- `LuaIQuery::runAbortedCallback` -/
def runAbortedCallback (code : LuaCode) (e : FinishedExecution) : M Unit := do
  let refs := e.references
  if refs.tableReference = 0 then return
  if !(← pushCallbackReference refs.abortReference refs.tableReference "onAborted".toList
      e.isFirstData) then return
  ReferencePush refs.tableReference
  pcallWithErrorReporter code 1

/-- `LuaIQuery::runErrorCallback` -/
def runErrorCallback (code : LuaCode) (e : FinishedExecution) (sql : Text) : M Unit := do
  let refs := e.references
  if refs.tableReference = 0 then return
  if !(← pushCallbackReference refs.errorReference refs.tableReference "onError".toList
      e.isFirstData) then return
  ReferencePush refs.tableReference
  pushValue (.data (.string e.backend.data.errorText))
  pushValue (.data (.string sql))
  pcallWithErrorReporter code 3

/-! ### `LuaTransaction.cpp` -/

/-- `LuaTransaction::clearAddedQueries` -/
def clearAddedQueries (t : ℕ) : M Unit := do
  (← get).objects.addedQueries t |>.forM fun tableReference =>
    if tableReference ≠ 0 then ReferenceFree tableReference else pure ()
  modify fun s => { s with objects := s.objects.withoutQueries t }

/-- `clearAddedQueriesFromCallbackTable` -/
def clearAddedQueriesFromCallbackTable (refs : CallbackReferences) : M Unit := do
  if refs.tableReference = 0 then return
  ReferencePush refs.tableReference
  clearAddedQueries (← getLuaObject (-1))
  Pop 1

/-- `LuaTransaction::runAbortedCallback` -/
def runTransactionAbortedCallback (code : LuaCode) (e : FinishedExecution)
    (queries : List StagedQuery) : M Unit := do
  queries.forM fun child => setCallbackData child.query
  runAbortedCallback code e
  clearAddedQueriesFromCallbackTable e.references

/-- `LuaTransaction::runErrorCallback` -/
def runTransactionErrorCallback (code : LuaCode) (e : FinishedExecution)
    (queries : List StagedQuery) : M Unit := do
  queries.forM fun child => setCallbackData child.query
  let refs := e.references
  if !(← pushCallbackReference refs.errorReference refs.tableReference "onError".toList
      e.isFirstData) then
    clearAddedQueriesFromCallbackTable refs
    return
  ReferencePush refs.tableReference
  pushValue (.data (.string e.backend.data.errorText))
  pcallWithErrorReporter code 2
  clearAddedQueriesFromCallbackTable refs

/-- One turn of the loop over the queries of a transaction. -/
def setResult (postgresNumberToLua : Text → Double) (index : ℕ) (child : StagedQuery) :
    M Unit := do
  pushValue (.index index)
  setCallbackData child.query
  let ref ← createResultTableReference postgresNumberToLua child.query child.data.toQueryData
  ReferencePush ref
  ReferenceFree ref
  SetTable (-3)

/-- `LuaTransaction::runSuccessCallback` -/
def runTransactionSuccessCallback (code : LuaCode) (postgresNumberToLua : Text → Double)
    (e : FinishedExecution) (queries : List StagedQuery) : M Unit := do
  let refs := e.references
  if refs.tableReference = 0 then return
  CreateTable
  queries.zipIdx.forM fun child => setResult postgresNumberToLua (child.2 + 1) child.1
  if !(← pushCallbackReference refs.successReference refs.tableReference "onSuccess".toList
      e.isFirstData) then
    Pop 1
    clearAddedQueriesFromCallbackTable refs
    return
  ReferencePush refs.tableReference
  Push (-3)
  pcallWithErrorReporter code 2
  Pop 1
  clearAddedQueriesFromCallbackTable refs

/-! ### `runCallback` -/

/-- `LuaIQuery::finishLuaQueryData`, which frees the references. -/
def finishLuaQueryData (refs : CallbackReferences) : M Unit :=
  refs.fields.forM fun ref => if ref ≠ 0 then ReferenceFree ref else pure ()

/-- The callbacks of `LuaIQuery::runCallback`. -/
def runCallbacks (code : LuaCode) (postgresNumberToLua : Text → Double) (e : FinishedExecution) :
    M Unit :=
  if e.backend.data.status = .aborted then
    match e.backend with
    | .transaction _ queries => runTransactionAbortedCallback code e queries
    | .query _ _ => runAbortedCallback code e
  else match e.backend.data.resultStatus with
    | .none => pure ()
    | .error =>
        match e.backend with
        | .transaction _ queries => runTransactionErrorCallback code e queries
        | .query sql _ => runErrorCallback code e sql
    | .success =>
        match e.backend with
        | .query _ data => runQuerySuccessCallback code postgresNumberToLua e data
        | .transaction _ queries =>
            runTransactionSuccessCallback code postgresNumberToLua e queries

/-- `LuaIQuery::runCallback` -/
def runCallback (code : LuaCode) (postgresNumberToLua : Text → Double) (e : FinishedExecution) :
    M Unit := do
  setCallbackData e.query
  runCallbacks code postgresNumberToLua e
  finishLuaQueryData e.references

end GmsvPg.Callbacks
