/-
# The tables of results

What `createResultTableReference` stores in the tables of the module is what Lua reads as the
table of the result; the stack is as before.
-/
import GmsvPg.Objects.Callbacks

namespace GmsvPg.Callbacks

open Library
open Lua (LuaKey LuaValue LuaTable)

/-! ### Tables -/

/-- The key of a column. -/
def keyValue : LuaKey → Value
  | .index n => .index n
  | .name name => .data (.string name)

/-- A table with the fields of a row. -/
def rowContents (row : List (LuaKey × LuaValue)) : Contents :=
  row.map fun field => (keyValue field.1, .data field.2)

/-- A table with the given values at the indices from 1 on. -/
def arrayContents (values : List Value) : Contents :=
  values.mapIdx fun i v => (.index (i + 1), v)

lemma arrayContents_concat (values : List Value) (v : Value) :
    arrayContents (values ++ [v]) = arrayContents values ++ [(.index (values.length + 1), v)] := by
  rw [arrayContents, List.mapIdx_concat]
  rfl

lemma arrayContents_keys (values : List Value) :
    (arrayContents values).map Prod.fst = (List.range values.length).map fun i => .index (i + 1) := by
  induction values using List.reverseRecOn with
  | nil => rfl
  | append_singleton values v ih =>
      rw [arrayContents_concat, List.map_append, ih, List.length_append, List.length_singleton,
        List.range_succ, List.map_append]
      rfl

lemma nodup_indices (n : ℕ) : ((List.range n).map fun i => Value.index (i + 1)).Nodup := by
  refine List.nodup_range.map ?_
  intro i j h
  injection h with h
  omega

/-- The value at an index of an array. -/
lemma arrayContents_get (values : List Value) (i : ℕ) :
    (arrayContents values).get (.index (i + 1)) = values[i]?.getD .nil := by
  by_cases hi : i < values.length
  · rw [List.getElem?_eq_getElem hi]
    refine Contents.get_of_mem ?_ ?_
    · rw [arrayContents_keys]
      exact nodup_indices _
    · rw [arrayContents, List.mem_mapIdx]
      exact ⟨i, hi, rfl⟩
  · rw [List.getElem?_eq_none (Nat.not_lt.1 hi)]
    refine Contents.get_of_notMem fun h => ?_
    rw [arrayContents_keys] at h
    obtain ⟨j, hj, hkey⟩ := List.mem_map.1 h
    injection hkey with hkey
    exact hi (by rw [List.mem_range] at hj; omega)

/-- The tables of a result, with the one of the rows at `k` and those of the rows behind. -/
def resultContents (k : ℕ) (table : LuaTable) : List Contents :=
  arrayContents ((List.range' (k + 1) table.length).map .table) :: table.map rowContents

lemma length_resultContents (k : ℕ) (table : LuaTable) :
    (resultContents k table).length = table.length + 1 := by
  rw [resultContents, List.length_cons, List.length_map]

lemma resultContents_concat (k : ℕ) (table : LuaTable) (row : List (LuaKey × LuaValue)) :
    resultContents k (table ++ [row]) =
      (arrayContents ((List.range' (k + 1) table.length).map .table) ++
          [(.index (table.length + 1), .table (k + 1 + table.length))]) ::
        (table.map rowContents ++ [rowContents row]) := by
  rw [resultContents, List.length_append, List.length_singleton, List.range'_concat,
    List.map_append, List.map_append, List.map_singleton, arrayContents_concat, List.length_map,
    List.length_range', Nat.one_mul]
  rfl

/-- The table `k` has the rows of a table of results. -/
def IsTable (tables : List Contents) (k : ℕ) (table : LuaTable) : Prop :=
  ∃ rows : List ℕ, tables[k]? = some (arrayContents (rows.map .table)) ∧
    List.Forall₂ (fun r row => tables[r]? = some (rowContents row)) rows table

/-- The table `k` has tables of results as its values. -/
def IsResults (tables : List Contents) (k : ℕ) (results : List LuaTable) : Prop :=
  ∃ ks : List ℕ, tables[k]? = some (arrayContents (ks.map .table)) ∧
    List.Forall₂ (IsTable tables) ks results

lemma isTable_append (P Q : List Contents) (table : LuaTable) :
    IsTable (P ++ (resultContents P.length table ++ Q)) P.length table := by
  refine ⟨List.range' (P.length + 1) table.length, ?_, ?_⟩
  · rw [List.getElem?_append_right le_rfl, Nat.sub_self]
    rfl
  · rw [List.forall₂_iff_get]
    refine ⟨List.length_range', fun i hi htable => ?_⟩
    -- the tables of the rows follow that of the result
    have hindex : (List.range' (P.length + 1) table.length).get ⟨i, hi⟩ = P.length + (i + 1) := by
      rw [List.get_eq_getElem, List.getElem_range', Nat.one_mul, Nat.add_assoc, Nat.add_comm 1]
    rw [hindex, List.getElem?_append_right (Nat.le_add_right _ _), Nat.add_sub_cancel_left,
      resultContents, List.cons_append, List.getElem?_cons_succ,
      List.getElem?_append_left (by rwa [List.length_map]), List.getElem?_map,
      List.getElem?_eq_getElem htable]
    rfl

/-- The tables of several results, one behind the other from `k` on. -/
def resultTables (k : ℕ) : List LuaTable → List Contents
  | [] => []
  | table :: rest => resultContents k table ++ resultTables (k + table.length + 1) rest

/-- Where the tables of several results are. -/
def resultPositions (k : ℕ) : List LuaTable → List ℕ
  | [] => []
  | table :: rest => k :: resultPositions (k + table.length + 1) rest

lemma length_resultPositions (k : ℕ) (tables : List LuaTable) :
    (resultPositions k tables).length = tables.length := by
  induction tables generalizing k with
  | nil => rfl
  | cons table rest ih => rw [resultPositions, List.length_cons, ih, List.length_cons]

lemma results_concat (k : ℕ) (tables : List LuaTable) (table : LuaTable) :
    resultTables k (tables ++ [table]) =
        resultTables k tables ++ resultContents (k + (resultTables k tables).length) table ∧
      resultPositions k (tables ++ [table]) =
        resultPositions k tables ++ [k + (resultTables k tables).length] := by
  induction tables generalizing k with
  | nil => exact ⟨List.append_nil _, rfl⟩
  | cons first rest ih =>
      have hk : k + first.length + 1 + (resultTables (k + first.length + 1) rest).length =
          k + (resultTables k (first :: rest)).length := by
        rw [resultTables, List.length_append, length_resultContents]
        omega
      obtain ⟨htables, hpositions⟩ := ih (k + first.length + 1)
      rw [hk] at htables hpositions
      constructor
      · rw [List.cons_append, resultTables, htables, ← List.append_assoc]
        rfl
      · rw [List.cons_append, resultPositions, hpositions]
        rfl

lemma forall₂_isTable (P : List Contents) (tables : List LuaTable) :
    List.Forall₂ (IsTable (P ++ resultTables P.length tables))
      (resultPositions P.length tables) tables := by
  induction tables generalizing P with
  | nil => exact .nil
  | cons table rest ih =>
      have hrest := ih (P ++ resultContents P.length table)
      rw [List.length_append, length_resultContents, List.append_assoc] at hrest
      exact .cons (isTable_append P _ table) hrest

lemma isResults_append (P : List Contents) (results : List LuaTable) :
    IsResults (P ++ arrayContents ((resultPositions (P.length + 1) results).map .table) ::
      resultTables (P.length + 1) results) P.length results := by
  refine ⟨resultPositions (P.length + 1) results, ?_, ?_⟩
  · rw [List.getElem?_append_right le_rfl, Nat.sub_self]
    rfl
  · have htables := forall₂_isTable
      (P ++ [arrayContents ((resultPositions (P.length + 1) results).map .table)]) results
    rwa [List.length_append, List.append_assoc] at htables

lemma modify_append_cons {α : Type} (A B : List α) (d : α) (f : α → α) :
    (A ++ d :: B).modify A.length f = A ++ f d :: B := by
  induction A with
  | nil => rfl
  | cons a A ih => rw [List.cons_append, List.length_cons, List.modify_succ_cons, ih,
      List.cons_append]

/-- The number of an element is that of the elements before it. -/
lemma zipIdx_number {α : Type} {l : List α} {before after : List (α × ℕ)} {a : α} {i : ℕ}
    (h : l.zipIdx = before ++ (a, i) :: after) : i = before.length := by
  have hget : l.zipIdx[before.length]? = some (a, i) := by
    rw [h, List.getElem?_append_right le_rfl, Nat.sub_self, List.getElem?_cons_zero]
  rw [List.getElem?_zipIdx, Option.map_eq_some_iff] at hget
  obtain ⟨_, _, hnumber⟩ := hget
  have hi := (Prod.mk.inj hnumber).2
  omega

/-! ### Filling a table -/

section Fill

variable {postgresNumberToLua : Text → Double} {data : QueryData} {s : State} {S : List Value}

/-- A field of the table on top is set. -/
lemma dataToLua_on {k column : ℕ} {columnValue columnName : Text} {columnType : PgFieldType}
    {isNull : Bool} :
    dataToLua postgresNumberToLua data column columnValue columnName columnType isNull
        (s.on (S ++ [.table k])) =
      .ok ⟨⟩ ((s.withTables (s.tables.modify k (· ++
        [(keyValue (Lua.fieldKey data column columnName),
          .data (Lua.luaValue postgresNumberToLua data columnValue columnType isNull))]))).on
            (S ++ [.table k])) := by
  unfold dataToLua Lua.fieldKey
  simp only
  split
  · rw [Raise.bind_ok pushValue_on, Raise.bind_ok pushValue_on, SetTable_on LuaStack.value_third]
    rfl
  · rw [Raise.bind_ok pushValue_on, SetField_on LuaStack.value_second]
    rfl

/-- The field of a column. -/
def luaField (postgresNumberToLua : Text → Double) (data : QueryData) (currentData : ResultData)
    (row : ResultDataRow) (j : ℕ) : LuaKey × LuaValue :=
  (Lua.fieldKey data (j + 1) (currentData.columns.getD j []),
    Lua.luaValue postgresNumberToLua data (row.values.getD j [])
      (currentData.columnTypes.getD j .string) (row.nullFields.getD j false))

lemma setColumns_on {A : List Contents} {currentData : ResultData} {row : ResultDataRow}
    (htables : s.tables = A ++ [[]]) :
    setColumns postgresNumberToLua data currentData row (s.on (S ++ [.table A.length])) =
      .ok ⟨⟩ ((s.withTables (A ++
        [rowContents (Lua.luaRow postgresNumberToLua data currentData row)])).on
          (S ++ [.table A.length])) := by
  have hs : s = s.withTables (A ++ [[]]) := by rw [← htables]; rfl
  rw [hs]
  refine Raise.forM_prefix (T := fun columns => (s.withTables (A ++ [rowContents (columns.map
    (luaField postgresNumberToLua data currentData row))])).on (S ++ [.table A.length])) ?_
  intro columns j _ _
  refine dataToLua_on.trans ?_
  show EStateM.Result.ok _ ((s.withTables ((A ++ [_]).modify A.length _)).on _) = _
  rw [modify_append_cons, List.map_append, rowContents, rowContents, List.map_append]
  rfl

/-- A row is stored in a table of its own, behind the others, and set in the table of the
rows. -/
lemma setRow_on {A B : List Contents} {contents : Contents} {currentData : ResultData}
    {row : ResultDataRow} {i : ℕ} (htables : s.tables = A ++ contents :: B) :
    setRow postgresNumberToLua data currentData (S ++ [Value.table A.length]).length i row
        (s.on (S ++ [.table A.length])) =
      .ok ⟨⟩ ((s.withTables (A ++ (contents ++ [(.index (i + 1), .table (A.length + 1 + B.length))]) ::
        (B ++ [rowContents (Lua.luaRow postgresNumberToLua data currentData row)]))).on
          (S ++ [.table A.length])) := by
  have hlen : s.tables.length = A.length + 1 + B.length := by
    rw [htables, List.length_append, List.length_cons]
    omega
  have hdata : LuaStack.value (S ++ [.table A.length] ++ [Value.table s.tables.length])
      (S ++ [Value.table A.length]).length = some (.table A.length) := by
    rw [List.append_assoc]
    exact LuaStack.value_length
  have hrow : LuaStack.value (S ++ [.table A.length] ++ [.table s.tables.length] ++
      [.table A.length] ++ [.index (i + 1)])
        (S ++ [Value.table A.length] ++ [Value.table s.tables.length]).length =
          some (.table s.tables.length) := by
    rw [List.append_assoc, List.append_assoc (S ++ [Value.table A.length])]
    exact LuaStack.value_length
  have hcolumns : setColumns postgresNumberToLua data currentData row
      ((s.withTables (s.tables ++ [[]])).on (S ++ [.table A.length] ++ [.table s.tables.length])) =
        .ok ⟨⟩ ((s.withTables (s.tables ++
          [rowContents (Lua.luaRow postgresNumberToLua data currentData row)])).on
            (S ++ [.table A.length] ++ [.table s.tables.length])) := setColumns_on rfl
  rw [setRow, Raise.bind_ok CreateTable_on, Raise.bind_ok Top_on, Raise.bind_ok hcolumns,
    Raise.bind_ok (Push_on hdata), Raise.bind_ok pushValue_on, Raise.bind_ok (Push_on hrow),
    Raise.bind_ok (SetTable_on LuaStack.value_third), Pop_two_on]
  show EStateM.Result.ok _ ((s.withTables ((s.tables ++ [_]).modify A.length _)).on _) = _
  rw [hlen, htables, List.append_assoc, List.cons_append, modify_append_cons]

lemma setRows_on {A : List Contents} {currentData : ResultData} (rows : List ResultDataRow) :
    (rows.zipIdx.forM fun row => setRow postgresNumberToLua data currentData
        (S ++ [Value.table A.length]).length row.2 row.1)
      ((s.withTables (A ++ [[]])).on (S ++ [.table A.length])) =
    .ok ⟨⟩ ((s.withTables (A ++ resultContents A.length
      (rows.map (Lua.luaRow postgresNumberToLua data currentData)))).on
        (S ++ [.table A.length])) := by
  have hloop := Raise.forM_prefix (f := fun row => setRow postgresNumberToLua data currentData
      (S ++ [Value.table A.length]).length row.2 row.1) (l := rows.zipIdx)
    (T := fun done => (s.withTables (A ++ resultContents A.length
      (done.map fun row => Lua.luaRow postgresNumberToLua data currentData row.1))).on
        (S ++ [.table A.length]))
  have hrows : rows.zipIdx.map (fun row => Lua.luaRow postgresNumberToLua data currentData row.1) =
      rows.map (Lua.luaRow postgresNumberToLua data currentData) := by
    rw [← List.zipIdx_map_fst 0 rows, List.map_map, List.zipIdx_map_fst]
    rfl
  rw [hrows] at hloop
  refine hloop ?_
  rintro done ⟨row, i⟩ rest hl
  refine (setRow_on rfl).trans ?_
  rw [zipIdx_number hl, List.map_append, List.map_singleton, resultContents_concat]
  simp only [List.length_map]
  rfl

/-- `createResultTableReference` stores the current result in the tables, and references it. -/
lemma createResultTableReference_on {query : ℕ} (hcallback : s.callbackData query = true)
    (hcurrent : data.hasAnyResults = true → data.current.isSome = true) :
    createResultTableReference postgresNumberToLua query data (s.on S) =
      .ok (s.references.length + 1)
        (((s.withTables (s.tables ++ resultContents s.tables.length
          (Lua.createResultTable postgresNumberToLua data))).withReferences
            (s.references ++ [some (.table s.tables.length)])).on S) := by
  rw [createResultTableReference, Raise.bind_ok CreateTable_on, Raise.bind_ok Top_on,
    Raise.bind_ok Raise.get_apply]
  show (do
    if (s.callbackData query && data.hasAnyResults) = true then
      let currentData ← access data.current
      currentData.rows.rows.zipIdx.forM fun row => setRow postgresNumberToLua data
        currentData.rows (S ++ [Value.table s.tables.length]).length row.2 row.1
    ReferenceCreate : M ℕ) ((s.withTables (s.tables ++ [[]])).on (S ++ [.table s.tables.length])) = _
  rw [hcallback, Bool.true_and, Lua.createResultTable]
  cases hany : data.hasAnyResults with
  | false =>
      have hnone : data.current = none := by
        rw [QueryData.hasAnyResults, Bool.not_eq_false', List.isEmpty_iff] at hany
        rw [QueryData.current, hany]
        rfl
      rw [hnone]
      exact ReferenceCreate_on
  | true =>
      obtain ⟨result, hresult⟩ := Option.isSome_iff_exists.1 (hcurrent hany)
      rw [hresult]
      exact (Raise.bind_ok (setRows_on result.rows.rows)).trans ReferenceCreate_on

/-! ### The results of a transaction -/

/-- The table of the first result of a query that was staged in a transaction. -/
def StagedQuery.firstResult (postgresNumberToLua : Text → Double) (child : StagedQuery) : LuaTable :=
  child.data.results.head?.elim [] fun result =>
    Lua.resultTable postgresNumberToLua child.data.toQueryData result.rows

lemma createResultTable_eq_firstResult (child : StagedQuery) :
    Lua.createResultTable postgresNumberToLua child.data.toQueryData =
      child.firstResult postgresNumberToLua := by
  rw [Lua.createResultTable, child.data.current_eq]
  rfl

/-- The results of a query are stored behind the other tables, and set in the table of
results. -/
lemma setResult_on {A B : List Contents} {contents : Contents} {index : ℕ} {child : StagedQuery}
    (htables : s.tables = A ++ contents :: B) :
    setResult postgresNumberToLua index child (s.on (S ++ [.table A.length])) =
      .ok ⟨⟩ ((((s.withCallbackData child.query).withTables
        (A ++ (contents ++ [(.index index, .table (A.length + 1 + B.length))]) ::
          (B ++ resultContents (A.length + 1 + B.length)
            (child.firstResult postgresNumberToLua)))).withReferences
              (s.references ++ [none])).on (S ++ [.table A.length])) := by
  have hlen : s.tables.length = A.length + 1 + B.length := by
    rw [htables, List.length_append, List.length_cons]
    omega
  have hdata : (s.withCallbackData child.query).callbackData child.query = true :=
    Function.update_self _ _ _
  rw [setResult, Raise.bind_ok pushValue_on, Raise.bind_ok setCallbackData_on,
    Raise.bind_ok (createResultTableReference_on hdata child.data.isSome_current),
    Raise.bind_ok (ReferencePush_on State.reference_concat), Raise.bind_ok ReferenceFree_on,
    SetTable_on LuaStack.value_third]
  have hfree : (s.references ++ [some (Value.table s.tables.length)]).set
      (s.references.length + 1 - 1) none = s.references ++ [none] := by
    rw [Nat.add_sub_cancel, List.set_append_right _ _ le_rfl, Nat.sub_self]
    rfl
  show EStateM.Result.ok _ ((((s.withCallbackData child.query).withTables
    ((s.tables ++ resultContents s.tables.length _).modify A.length
      (· ++ [(Value.index index, Value.table s.tables.length)]))).withReferences
        ((s.references ++ [some (Value.table s.tables.length)]).set
          (s.references.length + 1 - 1) none)).on _) = _
  rw [hfree, hlen, htables, List.append_assoc, List.cons_append, modify_append_cons,
    createResultTable_eq_firstResult]

/-- The state after the loop over the queries of a transaction, for those it has been through. -/
def State.withResults (s : State) (postgresNumberToLua : Text → Double)
    (queries : List StagedQuery) : State where
  stack := s.stack
  objects := s.objects
  tables := s.tables ++
    arrayContents ((resultPositions (s.tables.length + 1)
      (queries.map (StagedQuery.firstResult postgresNumberToLua))).map .table) ::
    resultTables (s.tables.length + 1)
      (queries.map (StagedQuery.firstResult postgresNumberToLua))
  references := s.references ++ List.replicate queries.length none
  callbackData := queries.foldl (fun callbackData child =>
    Function.update callbackData child.query true) s.callbackData
  called := s.called

lemma State.withResults_concat (queries : List StagedQuery) (child : StagedQuery) :
    s.withResults postgresNumberToLua (queries ++ [child]) =
      (((s.withResults postgresNumberToLua queries).withCallbackData child.query).withTables
        (s.tables ++
          (arrayContents ((resultPositions (s.tables.length + 1)
              (queries.map (StagedQuery.firstResult postgresNumberToLua))).map .table) ++
            [(.index (queries.length + 1), .table (s.tables.length + 1 +
              (resultTables (s.tables.length + 1)
                (queries.map (StagedQuery.firstResult postgresNumberToLua))).length))]) ::
          (resultTables (s.tables.length + 1)
              (queries.map (StagedQuery.firstResult postgresNumberToLua)) ++
            resultContents (s.tables.length + 1 + (resultTables (s.tables.length + 1)
              (queries.map (StagedQuery.firstResult postgresNumberToLua))).length)
                (child.firstResult postgresNumberToLua)))).withReferences
        ((s.withResults postgresNumberToLua queries).references ++ [none]) := by
  obtain ⟨htables, hpositions⟩ := results_concat (s.tables.length + 1)
    (queries.map (StagedQuery.firstResult postgresNumberToLua))
    (child.firstResult postgresNumberToLua)
  simp only [State.withResults, List.map_append, List.map_cons, List.map_nil, htables, hpositions,
    arrayContents_concat, List.length_map, length_resultPositions, List.length_append,
    List.length_singleton, List.replicate_succ', List.foldl_append, List.foldl_cons,
    List.foldl_nil]
  rw [State.withReferences, State.withTables, State.withCallbackData, List.append_assoc]

lemma setResults_on (queries : List StagedQuery) :
    (queries.zipIdx.forM fun child => setResult postgresNumberToLua (child.2 + 1) child.1)
      ((s.withTables (s.tables ++ [[]])).on (S ++ [.table s.tables.length])) =
    .ok ⟨⟩ ((s.withResults postgresNumberToLua queries).on (S ++ [.table s.tables.length])) := by
  have hloop := Raise.forM_prefix
    (f := fun child => setResult postgresNumberToLua (child.2 + 1) child.1) (l := queries.zipIdx)
    (T := fun done => (s.withResults postgresNumberToLua (done.map Prod.fst)).on
      (S ++ [.table s.tables.length]))
  have hnil : s.withResults postgresNumberToLua [] = s.withTables (s.tables ++ [[]]) := by
    simp only [State.withResults, List.length_nil, List.replicate_zero, List.append_nil]
    rfl
  rw [List.zipIdx_map_fst] at hloop
  simp only [List.map_nil] at hloop
  rw [hnil] at hloop
  refine hloop ?_
  rintro done ⟨child, i⟩ rest hl
  refine (setResult_on rfl).trans ?_
  rw [List.map_append, List.map_singleton, State.withResults_concat, zipIdx_number hl,
    List.length_map]

end Fill

end GmsvPg.Callbacks
