/-
# Result tables mirror the result of the server

The table that Lua is given of a result has one table for each row, under the number of the
row, and a row has under the number or the name of each column the decoded value of its cell.
The callback for rows is called with these tables, one after the other.
-/
import GmsvPg.Lua.PostgresNumber
import GmsvPg.Objects.CallbackStack
import Mathlib.Data.List.GetD

namespace GmsvPg

namespace StatementPGresult

/-- Each row has a value, or null, for each column. -/
def Rectangular (result : StatementPGresult) : Prop :=
  ∀ tuple ∈ result.tuples, tuple.length = result.columns.length

/-- `PQgetisnull` and `PQgetvalue`. -/
def cell (result : StatementPGresult) (r c : ℕ) : Option Text :=
  (result.tuples.getD r []).getD c none

/-- `PQfname` -/
def fname (result : StatementPGresult) (c : ℕ) : Text := (result.columns.getD c ([], 0)).1

/-- `PQftype` -/
def ftype (result : StatementPGresult) (c : ℕ) : ℕ := (result.columns.getD c ([], 0)).2

end StatementPGresult

namespace Callbacks

open Library
open Lua (LuaKey LuaValue LuaTable)
open GmsvPg.Objects (CallbackReferences)

/-! ### Decoding -/

/-- The value that Lua is to see in a cell of a column of a type: what is stored, unescaped if
it is a `bytea`; a boolean or a number where values are interpreted. -/
def decode (PQunescapeBytea : Text → Option Text) (postgresNumberToLua : Text → Double)
    (interpret : Bool) (oid : ℕ) : Option Text → LuaValue
  | none => .nil
  | some value =>
      if oid = 17 then .string ((PQunescapeBytea value).getD [])
      else if !interpret then .string value
      else if oid = 16 then
        .bool (value == "t".toList || value == "true".toList || value == "1".toList)
      else if oid = 21 ∨ oid = 23 ∨ oid = 700 ∨ oid = 701 then .number (postgresNumberToLua value)
      else .string value

section Decode

variable {PQunescapeBytea : Text → Option Text} {postgresNumberToLua : Text → Double}
  {data : QueryData}

/-- Storing a cell and converting what is stored is decoding it. -/
lemma luaValue_fieldValue (oid : ℕ) (cell : Option Text) :
    Lua.luaValue postgresNumberToLua data (fieldValue PQunescapeBytea (typeForOid oid) cell)
        (typeForOid oid) cell.isNone =
      decode PQunescapeBytea postgresNumberToLua (data.hasOption OPTION_INTERPRET_DATA) oid cell := by
  cases cell with
  | none => rfl
  | some value =>
      unfold Lua.luaValue decode fieldValue typeForOid
      simp only [Option.isNone_some, Bool.false_eq_true, if_false]
      -- the types that are told apart, and all others
      by_cases hbool : oid = 16
      · subst hbool
        simp
      · by_cases hnumber : oid = 21 ∨ oid = 23 ∨ oid = 700 ∨ oid = 701
        · have hbytea : oid ≠ 17 := by omega
          simp [hbool, hnumber, hbytea]
        · by_cases hbytea : oid = 17
          · subst hbytea
            simp
          · simp [hbool, hnumber, hbytea]

/-- A row, as it is set in its table: each column has its key and the decoded cell. -/
lemma luaRow_ofTuple {result : StatementPGresult} {tuple : List (Option Text)}
    (hlen : tuple.length = result.columns.length) :
    Lua.luaRow postgresNumberToLua data (.ofResult PQunescapeBytea result)
        (.ofTuple PQunescapeBytea (result.columns.map fun column => typeForOid column.2) tuple) =
      (List.range result.columns.length).map fun c =>
        (Lua.fieldKey data (c + 1) (result.fname c),
          decode PQunescapeBytea postgresNumberToLua (data.hasOption OPTION_INTERPRET_DATA)
            (result.ftype c) (tuple.getD c none)) := by
  have hvalues : (ResultDataRow.ofTuple PQunescapeBytea
      (result.columns.map fun column => typeForOid column.2) tuple).values.length =
        result.columns.length := by
    rw [ResultDataRow.ofTuple, List.length_zipWith, List.length_map, hlen, Nat.min_self]
  rw [Lua.luaRow, hvalues]
  refine List.map_congr_left fun c hc => ?_
  rw [List.mem_range] at hc
  have htuple : c < tuple.length := by omega
  -- the four vectors agree at the column
  have hname : (ResultData.ofResult PQunescapeBytea result).columns.getD c [] = result.fname c :=
    List.getD_map result.columns ([], 0) Prod.fst
  have htype : (ResultData.ofResult PQunescapeBytea result).columnTypes.getD c .string =
      typeForOid (result.ftype c) :=
    List.getD_map result.columns ([], 0) fun column => typeForOid column.2
  have hnull : (tuple.map Option.isNone).getD c false = (tuple.getD c none).isNone := by
    rw [List.getD_eq_getElem _ _ (by rwa [List.length_map]), List.getD_eq_getElem _ _ htuple,
      List.getElem_map]
  have hvalue : (ResultDataRow.ofTuple PQunescapeBytea
      (result.columns.map fun column => typeForOid column.2) tuple).values.getD c [] =
        fieldValue PQunescapeBytea (typeForOid (result.ftype c)) (tuple.getD c none) := by
    rw [List.getD_eq_getElem _ _ (by rwa [hvalues]), List.getD_eq_getElem _ _ htuple,
      StatementPGresult.ftype, List.getD_eq_getElem _ _ hc]
    simp only [ResultDataRow.ofTuple, List.getElem_zipWith, List.getElem_map]
  rw [hname, htype, hvalue]
  show (_, Lua.luaValue _ _ _ _ ((tuple.map Option.isNone).getD c false)) = _
  rw [hnull, luaValue_fieldValue]

end Decode

/-! ### Mirroring -/

/-- The fields of a table: for each number below `n` a key and its value, and no others. -/
structure Contents.IsMap (contents : Contents) (n : ℕ) (key value : ℕ → Value) : Prop where
  value : ∀ c < n, contents.get (key c) = value c
  absent : ∀ k, (∀ c < n, k ≠ key c) → contents.get k = .nil

lemma isMap_range {n : ℕ} {key : ℕ → Value} (value : ℕ → Value)
    (hnodup : ((List.range n).map key).Nodup) :
    Contents.IsMap ((List.range n).map fun c => (key c, value c)) n key value := by
  have hkeys : ((List.range n).map fun c => (key c, value c)).map Prod.fst =
      (List.range n).map key := by
    rw [List.map_map]
    rfl
  constructor
  · intro c hc
    refine Contents.get_of_mem ?_ (List.mem_map.2 ⟨c, List.mem_range.2 hc, rfl⟩)
    rwa [hkeys]
  · intro k hk
    refine Contents.get_of_notMem fun h => ?_
    rw [hkeys] at h
    obtain ⟨c, hc, hkey⟩ := List.mem_map.1 h
    exact hk c (List.mem_range.1 hc) hkey.symm

/-- The table `k` mirrors a result: under the number of each row is the table `row r`, and there
under the number of each column, or under its name, the decoded cell. -/
structure Mirrors (PQunescapeBytea : Text → Option Text) (postgresNumberToLua : Text → Double)
    (data : QueryData) (result : StatementPGresult) (tables : List Contents) (k : ℕ)
    (row : ℕ → ℕ) : Prop where
  rows : ∃ contents, tables[k]? = some contents ∧
    contents.IsMap result.tuples.length (fun r => .index (r + 1)) fun r => .table (row r)
  numeric : (data.hasOption OPTION_NUMERIC_FIELDS = true ∨ data.hasOption OPTION_NAMED_FIELDS = false) →
    ∀ r < result.tuples.length, ∃ contents, tables[row r]? = some contents ∧
      contents.IsMap result.columns.length (fun c => .index (c + 1)) fun c =>
        .data (decode PQunescapeBytea postgresNumberToLua (data.hasOption OPTION_INTERPRET_DATA)
          (result.ftype c) (result.cell r c))
  named : data.hasOption OPTION_NUMERIC_FIELDS = false → data.hasOption OPTION_NAMED_FIELDS = true →
    (result.columns.map Prod.fst).Nodup →
    ∀ r < result.tuples.length, ∃ contents, tables[row r]? = some contents ∧
      contents.IsMap result.columns.length (fun c => .data (.string (result.fname c))) fun c =>
        .data (decode PQunescapeBytea postgresNumberToLua (data.hasOption OPTION_INTERPRET_DATA)
          (result.ftype c) (result.cell r c))

section Mirrors

variable {PQunescapeBytea : Text → Option Text} {postgresNumberToLua : Text → Double}
  {data : QueryData} {result : StatementPGresult}

/-- The table of a result, with the decoded cells of each row. -/
lemma resultTable_eq (hrows : result.Rectangular) :
    Lua.resultTable postgresNumberToLua data (.ofResult PQunescapeBytea result) =
      result.tuples.map fun tuple => (List.range result.columns.length).map fun c =>
        (Lua.fieldKey data (c + 1) (result.fname c),
          decode PQunescapeBytea postgresNumberToLua (data.hasOption OPTION_INTERPRET_DATA)
            (result.ftype c) (tuple.getD c none)) := by
  rw [Lua.resultTable, ResultData.ofResult, List.map_map]
  exact List.map_congr_left fun tuple htuple => luaRow_ofTuple (hrows tuple htuple)

lemma isMap_arrayContents (values : List Value) :
    (arrayContents values).IsMap values.length (fun i => .index (i + 1))
      fun i => values[i]?.getD .nil where
  value := fun i _ => arrayContents_get values i
  absent := by
    intro k hk
    refine Contents.get_of_notMem fun h => ?_
    rw [arrayContents_keys] at h
    obtain ⟨i, hi, hkey⟩ := List.mem_map.1 h
    exact hk i (List.mem_range.1 hi) hkey.symm

lemma Contents.IsMap.congr {contents : Contents} {n : ℕ} {key value value' : ℕ → Value}
    (h : contents.IsMap n key value) (hvalue : ∀ c < n, value c = value' c) :
    contents.IsMap n key value' :=
  ⟨fun c hc => (h.value c hc).trans (hvalue c hc), h.absent⟩

/-- The contents of the table of a row, by the keys of the columns. -/
lemma isMap_rowContents {key : ℕ → Value} {tuple : List (Option Text)}
    (hkey : ∀ c, keyValue (Lua.fieldKey data (c + 1) (result.fname c)) = key c)
    (hnodup : ((List.range result.columns.length).map key).Nodup) :
    (rowContents ((List.range result.columns.length).map fun c =>
        (Lua.fieldKey data (c + 1) (result.fname c),
          decode PQunescapeBytea postgresNumberToLua (data.hasOption OPTION_INTERPRET_DATA)
            (result.ftype c) (tuple.getD c none)))).IsMap result.columns.length key fun c =>
      .data (decode PQunescapeBytea postgresNumberToLua (data.hasOption OPTION_INTERPRET_DATA)
        (result.ftype c) (tuple.getD c none)) := by
  rw [rowContents, List.map_map]
  have hfields := isMap_range (fun c => .data (decode PQunescapeBytea postgresNumberToLua
    (data.hasOption OPTION_INTERPRET_DATA) (result.ftype c) (tuple.getD c none))) hnodup
  simp only [← hkey] at hfields ⊢
  exact hfields

/-- The names of the columns, one after the other. -/
lemma map_fname (result : StatementPGresult) :
    (List.range result.columns.length).map result.fname = result.columns.map Prod.fst := by
  refine List.ext_getElem (by simp) fun c hc hc' => ?_
  rw [List.getElem_map, List.getElem_map, List.getElem_range, StatementPGresult.fname,
    List.getD_eq_getElem]

/-- The tables that are stored for a result mirror it. -/
lemma mirrors_resultContents (tables : List Contents) (hrows : result.Rectangular) :
    Mirrors PQunescapeBytea postgresNumberToLua data result
      (tables ++ resultContents tables.length
        (Lua.resultTable postgresNumberToLua data (.ofResult PQunescapeBytea result)))
      tables.length fun r => tables.length + 1 + r := by
  rw [resultTable_eq hrows]
  set table := result.tuples.map fun tuple => (List.range result.columns.length).map fun c =>
    (Lua.fieldKey data (c + 1) (result.fname c),
      decode PQunescapeBytea postgresNumberToLua (data.hasOption OPTION_INTERPRET_DATA)
        (result.ftype c) (tuple.getD c none)) with htable
  have hlength : table.length = result.tuples.length := List.length_map _
  -- the table of a row is behind that of the rows
  have hrow : ∀ r < result.tuples.length,
      (tables ++ resultContents tables.length table)[tables.length + 1 + r]? =
        some (rowContents ((List.range result.columns.length).map fun c =>
          (Lua.fieldKey data (c + 1) (result.fname c),
            decode PQunescapeBytea postgresNumberToLua (data.hasOption OPTION_INTERPRET_DATA)
              (result.ftype c) ((result.tuples.getD r []).getD c none)))) := by
    intro r hr
    rw [Nat.add_assoc, List.getElem?_append_right (Nat.le_add_right _ _), Nat.add_sub_cancel_left,
      Nat.add_comm 1, resultContents, List.getElem?_cons_succ, htable, List.getElem?_map,
      List.getElem?_map, List.getElem?_eq_getElem hr, List.getD_eq_getElem _ _ hr]
    rfl
  constructor
  · refine ⟨arrayContents ((List.range' (tables.length + 1) table.length).map .table), ?_, ?_⟩
    · rw [List.getElem?_append_right le_rfl, Nat.sub_self]
      rfl
    · have harray := isMap_arrayContents
        ((List.range' (tables.length + 1) table.length).map Value.table)
      rw [hlength, List.length_map, List.length_range'] at harray
      rw [hlength]
      refine harray.congr fun r hr => ?_
      rw [List.getElem?_map, List.getElem?_range' hr, Nat.one_mul]
      rfl
  · intro hnumeric r hr
    refine ⟨_, hrow r hr, isMap_rowContents (fun c => ?_) (nodup_indices _)⟩
    have hkey : (data.hasOption OPTION_NUMERIC_FIELDS || !data.hasOption OPTION_NAMED_FIELDS) =
        true := by
      rw [Bool.or_eq_true, Bool.not_eq_true']
      exact hnumeric
    rw [Lua.fieldKey, if_pos hkey]
    rfl
  · intro hnumeric hnamed hnames r hr
    refine ⟨_, hrow r hr, isMap_rowContents (fun c => ?_) ?_⟩
    · rw [Lua.fieldKey, hnumeric, hnamed]
      rfl
    · have hkeys := hnames.map (f := fun name => Value.data (.string name)) ?_
      · rwa [← map_fname, List.map_map] at hkeys
      · intro name name' h
        injection h with h
        injection h

end Mirrors

/-! ### The callbacks of the query -/

section Callbacks

variable {PQunescapeBytea : Text → Option Text} {postgresNumberToLua : Text → Double}
  {result : StatementPGresult} {s : State}

lemma createResultTable_ofResult {data : QueryData}
    (hcurrent : data.current = some (.ofResult PQunescapeBytea result)) :
    Lua.createResultTable postgresNumberToLua data =
      Lua.resultTable postgresNumberToLua data (.ofResult PQunescapeBytea result) := by
  rw [Lua.createResultTable, hcurrent]
  rfl

lemma createResultTableReference_mirrors {query : ℕ} {data : QueryData}
    (hrows : result.Rectangular) (hcallback : s.callbackData query = true)
    (hcurrent : data.current = some (.ofResult PQunescapeBytea result)) :
    ∃ (ref : ℕ) (t : State) (k : ℕ) (row : ℕ → ℕ),
      createResultTableReference postgresNumberToLua query data s = .ok ref t ∧
        t.stack = s.stack ∧ t.reference ref = some (.table k) ∧
        Mirrors PQunescapeBytea postgresNumberToLua data result t.tables k row := by
  have hsome : data.hasAnyResults = true → data.current.isSome = true := fun _ => by
    rw [hcurrent]
    rfl
  refine ⟨_, _, s.tables.length, fun r => s.tables.length + 1 + r,
    createResultTableReference_on (s := s) (S := s.stack) hcallback hsome, rfl,
    State.reference_concat (s := s), ?_⟩
  rw [createResultTable_ofResult hcurrent]
  exact mirrors_resultContents s.tables hrows

/-- What a callback is called with for the rows, by their numbers. -/
lemma onDataCalls_range' (f : Value) (o k n : ℕ) (tables : List Contents) :
    onDataCalls f o (List.range' k n) tables =
      (List.range n).map fun r => ⟨f, [.object o, .table (k + r)], tables⟩ := by
  rw [onDataCalls, List.range'_eq_map_range, List.map_map]
  rfl

lemma runQuerySuccessCallback_mirrors {code : LuaCode} {e : FinishedExecution} {data : UnreadData}
    (hrows : result.Rectangular) (hcallback : s.callbackData e.query = true)
    (hcurrent : data.current = some (.ofResult PQunescapeBytea result)) (hS : s.stack ≠ [])
    (hheld : e.Held s) :
    ∃ (t : State) (k : ℕ) (row : ℕ → ℕ),
      runQuerySuccessCallback code postgresNumberToLua e data s = .ok ⟨⟩ t ∧
        t.stack.length = s.stack.length ∧
        Mirrors PQunescapeBytea postgresNumberToLua data.toQueryData result t.tables k row ∧
        ∀ f o, s.reference e.references.tableReference = some (.object o) →
          s.callback e.references.onDataReference e.references.tableReference "onData".toList
            e.isFirstData = some f →
          ∃ rest, t.called = s.called ++ ((List.range result.tuples.length).map fun r =>
              ⟨f, [.object o, .table (row r)], t.tables⟩) ++ rest ∧
            rest.length ≤ 1 ∧ (∀ c ∈ rest, c.args = [.object o, .table k]) ∧
            ∀ g, s.reference e.references.successReference = some g →
              ∃ c, rest = [c] ∧ c.function = g := by
  obtain ⟨t, hrun, calls, rest, hpasses⟩ : ∃ t : State,
      runQuerySuccessCallback code postgresNumberToLua e data (s.on s.stack) =
        .ok ⟨⟩ (t.on (e.lookedUp s e.references.successReference
          (e.lookedUp s e.references.onDataReference s.stack))) ∧
      ∃ calls rest, e.PassesRows s t
        (Lua.createResultTable postgresNumberToLua data.toQueryData) calls rest :=
    runQuerySuccessCallback_on code hS hcallback hheld.onData hheld.success
      fun h => by rw [hheld.unset h]
  have htables := hpasses.tables
  have hcalls := hpasses.rows
  rw [createResultTable_ofResult hcurrent] at htables hcalls
  refine ⟨_, s.tables.length, fun r => s.tables.length + 1 + r, hrun, ?_, ?_, fun f o ho hf => ?_⟩
  · -- each of the lookups keeps the height
    have honData : e.lookedUp s e.references.onDataReference s.stack ≠ [] :=
      lookedUp_ne_nil hS hheld.onData
    exact (length_lookedUp honData hheld.success).trans (length_lookedUp hS hheld.onData)
  · show Mirrors _ _ _ _ t.tables _ _
    rw [htables]
    exact mirrors_resultContents s.tables hrows
  · have honData := hcalls o ho
    rw [hf, Option.toList_some, List.flatMap_singleton, onDataCalls_range',
      Lua.resultTable, List.length_map, ResultData.ofResult, List.length_map] at honData
    refine ⟨rest, ?_, hpasses.once, hpasses.results o ho, hpasses.success⟩
    show t.called = _
    rw [hpasses.called, honData]
    rfl

end Callbacks

/-- **Result tables mirror the result of the server.**  The table of a result has one table for
each row, under its number, and there each column has the decoded value of its cell, under its
number or its name; nothing else is in them, and the stack is as before.  When a query has
succeeded, its callback for rows is called once for each row, in order, and then that for the
results, whatever they do. -/
theorem results_mirror_server (PQunescapeBytea : Text → Option Text)
    (postgresNumberToLua : Text → Double) (code : LuaCode) (s : State) (result : StatementPGresult)
    (hrows : result.Rectangular) :
    (∀ (query : ℕ) (data : QueryData), s.callbackData query = true →
      data.current = some (.ofResult PQunescapeBytea result) →
      ∃ (ref : ℕ) (t : State) (k : ℕ) (row : ℕ → ℕ),
        createResultTableReference postgresNumberToLua query data s = .ok ref t ∧
          t.stack = s.stack ∧ t.reference ref = some (.table k) ∧
          Mirrors PQunescapeBytea postgresNumberToLua data result t.tables k row) ∧
    ∀ (e : FinishedExecution) (data : UnreadData), s.callbackData e.query = true →
      data.current = some (.ofResult PQunescapeBytea result) → s.stack ≠ [] → e.Held s →
      ∃ (t : State) (k : ℕ) (row : ℕ → ℕ),
        runQuerySuccessCallback code postgresNumberToLua e data s = .ok ⟨⟩ t ∧
          t.stack.length = s.stack.length ∧
          Mirrors PQunescapeBytea postgresNumberToLua data.toQueryData result t.tables k row ∧
          ∀ f o, s.reference e.references.tableReference = some (.object o) →
            s.callback e.references.onDataReference e.references.tableReference "onData".toList
              e.isFirstData = some f →
            ∃ rest, t.called = s.called ++ ((List.range result.tuples.length).map fun r =>
                ⟨f, [.object o, .table (row r)], t.tables⟩) ++ rest ∧
              rest.length ≤ 1 ∧ (∀ c ∈ rest, c.args = [.object o, .table k]) ∧
              ∀ g, s.reference e.references.successReference = some g →
                ∃ c, rest = [c] ∧ c.function = g :=
  ⟨fun _ _ hcallback hcurrent => createResultTableReference_mirrors hrows hcallback hcurrent,
    fun _ _ hcallback hcurrent hS hheld =>
      runQuerySuccessCallback_mirrors hrows hcallback hcurrent hS hheld⟩

/-! ### Two rows -/

/-- A number and a text in each row; one of the texts is null. -/
def twoRows : StatementPGresult where
  status := .tuplesOk
  columns := [("id".toList, 23), ("note".toList, 25)]
  tuples := [[some "7".toList, some "first".toList], [some "-1".toList, none]]

/-- Data that no Lua code has read yet, with other results. -/
def UnreadData.withResults (data : UnreadData) (results : List StatementResult) : UnreadData :=
  { data with results := results }

/-- The data of a query with these rows. -/
def twoRowsData : UnreadData := oneResult.withResults [.ofResult some twoRows]

def twoRowsQuery : FinishedExecution where
  query := 0
  backend := .query [] twoRowsData
  references := { tableReference := 1, successReference := 2, onDataReference := 3 }
  isFirstData := true

/-- The callbacks for the results and for the rows were captured. -/
def capturedState : State where
  stack := [.object 7]
  objects := lateState.objects
  references := [some (.object 1), some (.function 5), some (.function 6)]
  callbackData := fun _ => true

/-- Lua code that raises an error each time. -/
def raisingCode : LuaCode where
  call := fun _ _ _ objects => (some (.data (.string "error".toList)), objects)
  report := fun _ _ _ objects => objects

/-- Both rows are passed, although each of the calls raises an error. -/
theorem results_mirror_server_twoRows :
    ∃ t : State,
      runQuerySuccessCallback raisingCode Lua.postgresNumberToLua twoRowsQuery twoRowsData
          capturedState = .ok ⟨⟩ t ∧
        t.stack.length = 1 ∧
        (∃ k row, Mirrors some Lua.postgresNumberToLua twoRowsData.toQueryData twoRows t.tables k
          row) ∧
        t.called.map Called.function = [.function 6, .function 6, .function 5] := by
  have hrows : twoRows.Rectangular := by
    unfold StatementPGresult.Rectangular
    decide
  have hheld : twoRowsQuery.Held capturedState :=
    { success := ⟨fun _ => ⟨.function 5, rfl, rfl⟩, fun _ => ⟨1, rfl⟩⟩
      error := ⟨nofun, fun _ => ⟨1, rfl⟩⟩
      abort := ⟨nofun, fun _ => ⟨1, rfl⟩⟩
      onData := ⟨fun _ => ⟨.function 6, rfl, rfl⟩, fun _ => ⟨1, rfl⟩⟩
      unset := nofun }
  obtain ⟨t, k, row, hrun, hstack, hmirrors, hcalled⟩ :=
    (results_mirror_server some Lua.postgresNumberToLua raisingCode capturedState twoRows
      hrows).2 twoRowsQuery twoRowsData rfl rfl (by decide) hheld
  refine ⟨t, hrun, hstack, ⟨k, row, hmirrors⟩, ?_⟩
  obtain ⟨rest, hcalls, -, -, hsuccess⟩ := hcalled (.function 6) 1 rfl rfl
  obtain ⟨c, rfl, hc⟩ := hsuccess (.function 5) rfl
  rw [hcalls, List.map_append, List.map_singleton, hc]
  rfl

end Callbacks

end GmsvPg
