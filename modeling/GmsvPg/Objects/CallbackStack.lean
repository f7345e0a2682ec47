/-
# Callbacks and the stack

What the lookup of a callback and the functions around `runCallback` leave on the stack, for
every behaviour of the Lua code they call.  A callback that was captured at the start is pushed
and nothing else changes.  One that is looked up later is a field of the table of the query:
the table is pushed for that, but what is taken out again is the value below it, the topmost
one of before.  So the height is right, and the table is left in the place of that value.
Where a transaction has succeeded this value is the table of results.
-/
import GmsvPg.Objects.ResultTables

namespace GmsvPg.Callbacks

open Library
open Lua (LuaKey LuaValue LuaTable)
open GmsvPg.Objects (CallbackReferences)

variable {s : State} {S : List Value} (code : LuaCode)

/-! ### Calls -/

/-- The function is taken off with its arguments, and has been called with them. -/
lemma pcallWithErrorReporter_on {f : Value} {args : List Value} {nargs : ℕ}
    (hargs : args.length = nargs) :
    ∃ objects, pcallWithErrorReporter code nargs (s.on (S ++ f :: args)) =
      .ok ⟨⟩ ((s.after objects (s.called ++ [⟨f, args, s.tables⟩])).on S) := by
  have hindex : ((S ++ f :: args ++ [Value.errorReporter]).length : ℤ) - nargs - 1 =
      S.length + 1 := by
    simp only [List.length_append, List.length_cons, List.length_nil, hargs]
    omega
  have hinsert : Insert (S.length + 1) (s.on (S ++ f :: args ++ [.errorReporter])) =
      .ok ⟨⟩ (s.on (S ++ [.errorReporter] ++ f :: args)) := by
    rw [List.append_assoc, Insert_on (.inl rfl)]
    simp
  have hreporter : LuaStack.value (S ++ [.errorReporter] ++ f :: args) (S.length + 1) =
      some .errorReporter := by
    rw [List.append_assoc]
    exact LuaStack.value_append (.inl rfl)
  rw [pcallWithErrorReporter, Raise.bind_ok pushValue_on, Raise.bind_ok Top_on, hindex]
  simp only
  rw [Raise.bind_ok hinsert, Raise.bind_ok (PCall_on hargs hreporter)]
  -- the function and its arguments are off, the reporter is left
  generalize hcall : code.call f args s.tables s.objects = outcome
  obtain ⟨error, objects⟩ := outcome
  cases error with
  | none =>
      refine ⟨objects, ?_⟩
      simp only [Option.isSome_none, Option.toList_none, List.append_nil]
      exact Pop_on rfl
  | some error =>
      simp only [Option.isSome_some, Option.toList_some, if_true]
      rw [Raise.bind_ok pushValue_on, Raise.bind_ok (GetField_on LuaStack.value_top),
        Raise.bind_ok (valueAt_on LuaStack.value_top)]
      split
      · refine ⟨code.report (objects.get globals "ErrorNoHalt".toList) [error] s.tables objects, ?_⟩
        rw [Raise.bind_ok (Push_on LuaStack.value_third), Raise.bind_ok Call_on,
          Raise.bind_ok Pop_two_on, Pop_one_on]
        rfl
      · refine ⟨objects, ?_⟩
        rw [Raise.bind_ok Pop_three_on, Pop_one_on]

lemma pcall_one_on {f a : Value} :
    ∃ objects, pcallWithErrorReporter code 1 (s.on (S ++ [f] ++ [a])) =
      .ok ⟨⟩ ((s.after objects (s.called ++ [⟨f, [a], s.tables⟩])).on S) := by
  rw [List.append_assoc]
  exact pcallWithErrorReporter_on code rfl

lemma pcall_two_on {f a b : Value} :
    ∃ objects, pcallWithErrorReporter code 2 (s.on (S ++ [f] ++ [a] ++ [b])) =
      .ok ⟨⟩ ((s.after objects (s.called ++ [⟨f, [a, b], s.tables⟩])).on S) := by
  rw [List.append_assoc, List.append_assoc]
  exact pcallWithErrorReporter_on code rfl

lemma pcall_three_on {f a b c : Value} :
    ∃ objects, pcallWithErrorReporter code 3 (s.on (S ++ [f] ++ [a] ++ [b] ++ [c])) =
      .ok ⟨⟩ ((s.after objects (s.called ++ [⟨f, [a, b, c], s.tables⟩])).on S) := by
  rw [List.append_assoc, List.append_assoc, List.append_assoc]
  exact pcallWithErrorReporter_on code rfl

/-! ### The lookup of a callback -/

section Lookup

variable {functionReference tableReference : ℕ} {callbackName : Text} {allowCallback : Bool}

/-- A callback that was not captured at the start is looked up in the table. -/
def IsLate (functionReference tableReference : ℕ) (allowCallback : Bool) : Prop :=
  functionReference = 0 ∧ allowCallback = true ∧ tableReference ≠ 0

instance : Decidable (IsLate functionReference tableReference allowCallback) :=
  inferInstanceAs (Decidable (_ ∧ _ ∧ _))

namespace State

/-- The table of a query. -/
def queryTable (s : State) (tableReference : ℕ) : Option ℕ :=
  match s.reference tableReference with
  | some (.object t) => some t
  | _ => none

/-- The callback function: the one that was captured, or what is assigned now. -/
def callback (s : State) (functionReference tableReference : ℕ) (callbackName : Text)
    (allowCallback : Bool) : Option Value :=
  if functionReference ≠ 0 then s.reference functionReference
  else if allowCallback ∧ tableReference ≠ 0 then
    (s.queryTable tableReference).bind fun t =>
      (some (s.objects.get t callbackName)).filter Value.isFunction
  else none

lemma queryTable_eq {t : ℕ} (ht : s.reference tableReference = some (.object t)) :
    s.queryTable tableReference = some t := by rw [queryTable, ht]

/-- The stack that a lookup leaves under the callback: a late one puts the table in the place
of what was on top. -/
def lookedUp (s : State) (functionReference tableReference : ℕ) (allowCallback : Bool)
    (S : List Value) : List Value :=
  if IsLate functionReference tableReference allowCallback then
    S.dropLast ++ (s.reference tableReference).toList
  else S

/-- The references are held: the one to a callback is to a function, and the one to the table
of the query to an object. -/
structure Held (s : State) (functionReference tableReference : ℕ) : Prop where
  function : functionReference ≠ 0 → ∃ f, s.reference functionReference = some f ∧ f.isFunction
  table : tableReference ≠ 0 → ∃ t, s.reference tableReference = some (.object t)

/-- The references of a state are still those of the other. -/
def Keeps (s t : State) : Prop := ∀ ref v, s.reference ref = some v → t.reference ref = some v

lemma Keeps.trans {t u : State} (h : s.Keeps t) (h' : t.Keeps u) : s.Keeps u :=
  fun ref v hv => h' ref v (h ref v hv)

lemma keeps_append {t : State} {references : List (Option Value)}
    (h : t.references = s.references ++ references) : s.Keeps t := by
  intro ref v hv
  cases ref with
  | zero => cases hv
  | succ n =>
      have hget : s.references[n]? = some (some v) := Option.join_eq_some_iff.1 hv
      show t.references[n]?.join = some v
      rw [h, List.getElem?_append_left (List.getElem?_eq_some_iff.1 hget).1, hget]
      rfl

lemma Keeps.held {t : State} (h : s.Keeps t) (hheld : s.Held functionReference tableReference) :
    t.Held functionReference tableReference where
  function := fun hne => (hheld.function hne).imp fun _ hf => ⟨h _ _ hf.1, hf.2⟩
  table := fun hne => (hheld.table hne).imp fun _ ht => h _ _ ht

lemma Keeps.callback {t : State} (h : s.Keeps t) (hobjects : t.objects = s.objects)
    (hheld : s.Held functionReference tableReference) :
    t.callback functionReference tableReference callbackName allowCallback =
      s.callback functionReference tableReference callbackName allowCallback := by
  unfold State.callback
  split
  · rename_i hfunction
    obtain ⟨f, hf, -⟩ := hheld.function hfunction
    rw [hf, h _ _ hf]
  · split
    · rename_i htable
      obtain ⟨o, ho⟩ := hheld.table htable.2
      rw [queryTable_eq ho, queryTable_eq (h _ _ ho), hobjects]
    · rfl

lemma Keeps.lookedUp {t : State} (h : s.Keeps t) (hheld : s.Held functionReference tableReference) :
    t.lookedUp functionReference tableReference allowCallback S =
      s.lookedUp functionReference tableReference allowCallback S := by
  unfold State.lookedUp
  split
  · rename_i hlate
    obtain ⟨o, ho⟩ := hheld.table hlate.2.2
    rw [ho, h _ _ ho]
  · rfl

end State

lemma pushCallbackReference_on (hS : S ≠ []) (hheld : s.Held functionReference tableReference) :
    pushCallbackReference functionReference tableReference callbackName allowCallback (s.on S) =
      .ok (s.callback functionReference tableReference callbackName allowCallback).isSome
        (s.on (s.lookedUp functionReference tableReference allowCallback S ++
          (s.callback functionReference tableReference callbackName allowCallback).toList)) := by
  unfold pushCallbackReference State.callback State.lookedUp
  by_cases hfunction : functionReference ≠ 0
  · obtain ⟨f, hf, -⟩ := hheld.function hfunction
    rw [if_pos hfunction, if_pos hfunction, if_neg fun h => hfunction h.1,
      Raise.bind_ok (ReferencePush_on hf), hf]
    rfl
  · rw [if_neg hfunction, if_neg hfunction]
    by_cases hallow : allowCallback ∧ tableReference ≠ 0
    · obtain ⟨t, ht⟩ := hheld.table hallow.2
      obtain ⟨P, top, rfl⟩ := List.eq_nil_or_concat' S |>.resolve_left hS
      -- the third value from the top is taken out, which was the topmost before the lookup
      have hremove : Remove (((P ++ [top] ++ [Value.object t] ++
          [s.objects.get t callbackName]).length : ℤ) - 2)
            (s.on (P ++ [top] ++ [Value.object t] ++ [s.objects.get t callbackName])) =
          .ok ⟨⟩ (s.on (P ++ [.object t] ++ [s.objects.get t callbackName])) := by
        have hindex : ((P ++ [top] ++ [Value.object t] ++
            [s.objects.get t callbackName]).length : ℤ) - 2 = P.length + 1 := by
          simp only [List.length_append, List.length_cons, List.length_nil]
          omega
        rw [hindex, List.append_assoc, List.append_assoc, List.append_assoc]
        exact Remove_on (.inl rfl)
      rw [if_pos hallow, if_pos hallow, if_pos ⟨not_not.1 hfunction, hallow⟩, State.queryTable_eq ht, ht,
        Raise.bind_ok (ReferencePush_on ht), Raise.bind_ok (GetField_on LuaStack.value_top),
        Raise.bind_ok Top_on, Raise.bind_ok hremove, Raise.bind_ok (valueAt_on LuaStack.value_top)]
      rw [List.dropLast_concat, Option.bind_some, Option.toList_some, Option.filter_some]
      split
      · rfl
      · rw [Raise.bind_ok Pop_one_on, Option.toList_none, List.append_nil]
        rfl
    · rw [if_neg hallow, if_neg hallow, if_neg fun h => hallow h.2, Option.toList_none,
        List.append_nil]
      rfl

/-- Where a callback is found, there is a table, if callbacks are only captured with one. -/
lemma callback_table {f : Value} (hunset : tableReference = 0 → functionReference = 0)
    (h : s.callback functionReference tableReference callbackName allowCallback = some f) :
    tableReference ≠ 0 := by
  intro hzero
  rw [State.callback, if_neg (not_not.2 (hunset hzero)), if_neg fun h => h.2 hzero] at h
  cases h

/-- A callback that was captured is the one that is found. -/
lemma callback_captured {f : Value} (h : s.reference functionReference = some f) :
    s.callback functionReference tableReference callbackName allowCallback = some f := by
  have hfunction : functionReference ≠ 0 := by
    rintro rfl
    cases h
  rw [State.callback, if_pos hfunction, h]

/-- A function of the module that looks up a callback goes on with it, or without. -/
lemma lookup_on {absent found : M Unit} (hS : S ≠ [])
    (hheld : s.Held functionReference tableReference) :
    (do
      if !(← pushCallbackReference functionReference tableReference callbackName allowCallback) then
        absent
      else
        found : M Unit) (s.on S) =
      match s.callback functionReference tableReference callbackName allowCallback with
      | none => absent (s.on (s.lookedUp functionReference tableReference allowCallback S))
      | some f =>
          found (s.on (s.lookedUp functionReference tableReference allowCallback S ++ [f])) := by
  rw [Raise.bind_ok (pushCallbackReference_on hS hheld)]
  cases s.callback functionReference tableReference callbackName allowCallback with
  | none => rw [Option.toList_none, List.append_nil]; rfl
  | some f => rfl

/-- A lookup leaves as many values on the stack as there were. -/
lemma length_lookedUp (hS : S ≠ []) (hheld : s.Held functionReference tableReference) :
    (s.lookedUp functionReference tableReference allowCallback S).length = S.length := by
  unfold State.lookedUp
  split
  · rename_i hlate
    obtain ⟨t, ht⟩ := hheld.table hlate.2.2
    have hpos := List.length_pos_of_ne_nil hS
    rw [ht, List.length_append, List.length_dropLast, Option.toList_some, List.length_singleton]
    omega
  · rfl

lemma lookedUp_ne_nil (hS : S ≠ []) (hheld : s.Held functionReference tableReference) :
    s.lookedUp functionReference tableReference allowCallback S ≠ [] := by
  rw [← List.length_pos_iff, length_lookedUp hS hheld]
  exact List.length_pos_of_ne_nil hS

/-- A lookup leaves the stack alone unless it is late and the topmost value is not the table
itself. -/
lemma lookedUp_eq_iff (hS : S ≠ []) (hheld : s.Held functionReference tableReference) :
    s.lookedUp functionReference tableReference allowCallback S = S ↔
      ¬ IsLate functionReference tableReference allowCallback ∨
        S.getLast? = s.reference tableReference := by
  unfold State.lookedUp
  split
  · rename_i hlate
    obtain ⟨t, ht⟩ := hheld.table hlate.2.2
    obtain ⟨P, top, rfl⟩ := List.eq_nil_or_concat' S |>.resolve_left hS
    rw [ht, List.dropLast_concat, List.getLast?_concat, Option.toList_some]
    constructor
    · intro h
      exact .inr (congrArg some (List.singleton_inj.1 (List.append_cancel_left h)).symm)
    · rintro (h | h)
      · exact absurd hlate h
      · rw [Option.some.inj h]
  · exact iff_of_true rfl (.inl ‹_›)

end Lookup

/-! ### The callbacks -/

section Callbacks

variable {e : FinishedExecution}

namespace FinishedExecution

/-- What a lookup of one of the callbacks of an execution leaves on the stack. -/
def lookedUp (e : FinishedExecution) (s : State) (functionReference : ℕ) (S : List Value) :
    List Value :=
  s.lookedUp functionReference e.references.tableReference e.isFirstData S

end FinishedExecution

/-- The references of a list are freed. -/
lemma forM_free_on (refs : List ℕ) :
    ∃ references, (refs.forM fun ref => if ref ≠ 0 then ReferenceFree ref else pure ()) (s.on S) =
      .ok ⟨⟩ ((s.withReferences references).on S) := by
  induction refs generalizing s with
  | nil => exact ⟨s.references, rfl⟩
  | cons ref refs ih =>
      by_cases href : ref ≠ 0
      · obtain ⟨references, hrest⟩ := ih (s := s.withReferences (s.references.set (ref - 1) none))
        refine ⟨references, ?_⟩
        rw [Raise.forM_cons_ok (by rw [if_pos href]; exact ReferenceFree_on), hrest]
        rfl
      · obtain ⟨references, hrest⟩ := ih (s := s)
        refine ⟨references, ?_⟩
        rw [Raise.forM_cons_ok (by rw [if_neg href]; exact Raise.pure_apply), hrest]

lemma getLuaObject_on {t : ℕ} :
    getLuaObject (-1) (s.on (S ++ [.object t])) = .ok t (s.on (S ++ [.object t])) := by
  rw [getLuaObject, Raise.bind_ok (valueAt_on LuaStack.value_top)]
  simp only [Value.isTable, Bool.not_true, Bool.false_eq_true, if_false]
  rw [Raise.bind_ok (GetField_on LuaStack.value_top),
    Raise.bind_ok (valueAt_on LuaStack.value_top), LuaObjects.get, if_pos rfl]
  simp only
  rw [Raise.bind_ok Pop_one_on]
  rfl

/-- Clearing the added queries frees references, and is over before it returns. -/
lemma clearAddedQueriesFromCallbackTable_on {refs : CallbackReferences}
    (htable : refs.tableReference ≠ 0 → ∃ t, s.reference refs.tableReference = some (.object t)) :
    ∃ references objects, clearAddedQueriesFromCallbackTable refs (s.on S) =
      .ok ⟨⟩ (((s.withReferences references).after objects s.called).on S) := by
  unfold clearAddedQueriesFromCallbackTable
  by_cases hzero : refs.tableReference = 0
  · refine ⟨s.references, s.objects, ?_⟩
    rw [if_pos hzero]
    rfl
  · obtain ⟨t, ht⟩ := htable hzero
    obtain ⟨references, hfree⟩ := forM_free_on (s := s) (S := S ++ [.object t])
      (s.objects.addedQueries t)
    have hclear : clearAddedQueries t (s.on (S ++ [.object t])) = .ok ⟨⟩
        (((s.withReferences references).after (s.objects.withoutQueries t) s.called).on
          (S ++ [.object t])) := by
      rw [clearAddedQueries, Raise.bind_ok Raise.get_apply]
      exact (Raise.bind_ok hfree).trans rfl
    refine ⟨references, s.objects.withoutQueries t, ?_⟩
    rw [if_neg hzero, Raise.bind_ok (ReferencePush_on ht), Raise.bind_ok getLuaObject_on,
      Raise.bind_ok hclear, Pop_one_on]

/-- A function of the module that looks up a callback and calls it, if there is a table for
it. -/
lemma withCallback_on (found : M Unit) (callbackName : Text) (Q : Value → ℕ → List Called → Prop)
    {functionReference : ℕ} (hS : S ≠ [])
    (hheld : s.Held functionReference e.references.tableReference)
    (hfound : ∀ f t S', s.reference e.references.tableReference = some (.object t) →
      ∃ objects called, found (s.on (S' ++ [f])) = .ok ⟨⟩ ((s.after objects called).on S') ∧
        Q f t called) :
    ∃ objects called,
      (do
        if e.references.tableReference = 0 then return
        if !(← pushCallbackReference functionReference e.references.tableReference callbackName
            e.isFirstData) then return
        found : M Unit) (s.on S) =
          .ok ⟨⟩ ((s.after objects called).on (e.lookedUp s functionReference S)) ∧
      (called = s.called ∧ (∀ t, s.reference e.references.tableReference = some (.object t) →
          s.callback functionReference e.references.tableReference callbackName e.isFirstData =
            none) ∨
        ∃ f t, s.reference e.references.tableReference = some (.object t) ∧
          s.callback functionReference e.references.tableReference callbackName e.isFirstData =
            some f ∧ Q f t called) := by
  by_cases htable : e.references.tableReference = 0
  · refine ⟨s.objects, s.called, ?_, .inl ⟨rfl, fun t ht => ?_⟩⟩
    · simp only [if_pos htable]
      rw [FinishedExecution.lookedUp, State.lookedUp, if_neg fun h => h.2.2 htable]
      rfl
    · rw [htable] at ht
      cases ht
  · obtain ⟨t, ht⟩ := hheld.table htable
    simp only [if_neg htable]
    rw [lookup_on hS hheld]
    cases s.callback functionReference e.references.tableReference callbackName e.isFirstData with
    | none => exact ⟨s.objects, s.called, rfl, .inl ⟨rfl, fun _ _ => rfl⟩⟩
    | some f =>
        obtain ⟨objects, called, hrun, hQ⟩ := hfound f t (e.lookedUp s functionReference S) ht
        exact ⟨objects, called, hrun, .inr ⟨f, t, ht, rfl, hQ⟩⟩

lemma runAbortedCallback_on (hS : S ≠ [])
    (hheld : s.Held e.references.abortReference e.references.tableReference) :
    ∃ objects called, runAbortedCallback code e (s.on S) =
      .ok ⟨⟩ ((s.after objects called).on (e.lookedUp s e.references.abortReference S)) := by
  obtain ⟨objects, called, hrun, -⟩ := withCallback_on
    (do
      ReferencePush e.references.tableReference
      pcallWithErrorReporter code 1) "onAborted".toList (fun _ _ _ => True) hS hheld
    fun f t S' ht => by
      obtain ⟨objects, hpcall⟩ := pcall_one_on code (s := s) (S := S') (f := f) (a := .object t)
      exact ⟨objects, _, (Raise.bind_ok (ReferencePush_on ht)).trans hpcall, trivial⟩
  exact ⟨objects, called, hrun⟩

lemma runErrorCallback_on {sql : Text} (hS : S ≠ [])
    (hheld : s.Held e.references.errorReference e.references.tableReference) :
    ∃ objects called, runErrorCallback code e sql (s.on S) =
      .ok ⟨⟩ ((s.after objects called).on (e.lookedUp s e.references.errorReference S)) := by
  obtain ⟨objects, called, hrun, -⟩ := withCallback_on
    (do
      ReferencePush e.references.tableReference
      pushValue (.data (.string e.backend.data.errorText))
      pushValue (.data (.string sql))
      pcallWithErrorReporter code 3) "onError".toList (fun _ _ _ => True) hS hheld
    fun f t S' ht => by
      rw [Raise.bind_ok (ReferencePush_on ht), Raise.bind_ok pushValue_on,
        Raise.bind_ok pushValue_on]
      obtain ⟨objects, hpcall⟩ := pcall_three_on code (s := s)
      exact ⟨objects, _, hpcall, trivial⟩
  exact ⟨objects, called, hrun⟩

lemma readRow_on {k i : ℕ} {rows : List ℕ}
    (hrows : s.tables[k]? = some (arrayContents (rows.map .table))) :
    RawGet (-2) (s.on (S ++ [.table k] ++ [.index (i + 1)])) =
      .ok ⟨⟩ (s.on (S ++ [.table k] ++ [(rows.map Value.table)[i]?.getD .nil])) := by
  rw [RawGet_on LuaStack.value_second hrows, arrayContents_get]

/-- The calls of a callback with the table of its query and, one after the other, the rows. -/
def onDataCalls (f : Value) (t : ℕ) (rows : List ℕ) (tables : List Contents) : List Called :=
  rows.map fun r => ⟨f, [.object t, .table r], tables⟩

/-- The loop over the rows calls the callback with each of them. -/
lemma onDataLoop_on {P : List Value} {f : Value} {k t tableReference : ℕ} {rows : List ℕ}
    (htable : s.reference tableReference = some (.object t))
    (hrows : s.tables[k]? = some (arrayContents (rows.map .table))) {i n : ℕ}
    (hn : i + n = rows.length) :
    ∃ objects, onDataLoop code tableReference (P ++ [f]).length (n + 1) (i + 1)
        (s.on (P ++ [f] ++ [.table k])) =
      .ok ⟨⟩ ((s.after objects (s.called ++ onDataCalls f t (rows.drop i) s.tables)).on
        (P ++ [f] ++ [.table k])) := by
  induction n generalizing s i with
  | zero =>
      -- all rows have been read
      have hread := readRow_on (S := P ++ [f]) (i := i) hrows
      have hend : (rows.map Value.table)[i]?.getD .nil = .nil := by
        rw [List.getElem?_eq_none (by rw [List.length_map]; omega)]
        rfl
      refine ⟨s.objects, ?_⟩
      rw [hend] at hread
      rw [onDataLoop, Raise.bind_ok pushValue_on, Raise.bind_ok hread,
        Raise.bind_ok (valueAt_on LuaStack.value_top), if_pos rfl, Pop_one_on,
        List.drop_eq_nil_of_le (by omega), onDataCalls, List.map_nil, List.append_nil]
      rfl
  | succ n ih =>
      have hi : i < rows.length := by omega
      have hread := readRow_on (S := P ++ [f]) (i := i) hrows
      have hrow : (rows.map Value.table)[i]?.getD .nil = .table rows[i] := by
        rw [List.getElem?_map, List.getElem?_eq_getElem hi]
        rfl
      rw [hrow] at hread
      have hf : LuaStack.value (P ++ [f] ++ [Value.table k] ++ [Value.table rows[i]])
          (P ++ [f]).length = some f := by
        rw [List.append_assoc, List.append_assoc]
        exact LuaStack.value_length
      have hposition : LuaStack.value (P ++ [f] ++ [Value.table k] ++ [Value.table rows[i]] ++
          [f] ++ [Value.object t]) (P ++ [f] ++ [Value.table k] ++ [Value.table rows[i]]).length =
            some (.table rows[i]) := by
        rw [List.append_assoc, List.append_assoc _ [Value.table rows[i]]]
        exact LuaStack.value_length
      obtain ⟨objects, hpcall⟩ := pcall_two_on code (s := s)
        (S := P ++ [f] ++ [.table k] ++ [.table rows[i]]) (f := f) (a := .object t)
        (b := .table rows[i])
      rw [onDataLoop, Raise.bind_ok pushValue_on, Raise.bind_ok hread,
        Raise.bind_ok (valueAt_on LuaStack.value_top), if_neg (by rintro ⟨⟩), Raise.bind_ok Top_on,
        Raise.bind_ok (Push_on hf), Raise.bind_ok (ReferencePush_on htable),
        Raise.bind_ok (Push_on hposition), Raise.bind_ok hpcall, Raise.bind_ok Pop_one_on]
      obtain ⟨objects', hrest⟩ := ih (s := s.after objects
        (s.called ++ [⟨f, [.object t, .table rows[i]], s.tables⟩])) htable hrows
        (show i + 1 + n = rows.length by omega)
      refine ⟨objects', hrest.trans ?_⟩
      rw [List.drop_eq_getElem_cons hi, onDataCalls, onDataCalls, List.map_cons]
      show EStateM.Result.ok _ ((s.after objects' (s.called ++ [_] ++ _)).on _) = _
      rw [List.append_assoc]
      rfl

lemma runOnDataCallbacks_on {k dataReference : ℕ} {rows : List ℕ} (hS : S ≠ [])
    (hheld : s.Held e.references.onDataReference e.references.tableReference)
    (hdata : s.reference dataReference = some (.table k))
    (hrows : s.tables[k]? = some (arrayContents (rows.map .table))) :
    ∃ objects calls, runOnDataCallbacks code e dataReference rows.length (s.on S) =
        .ok ⟨⟩ ((s.after objects (s.called ++ calls)).on
          (e.lookedUp s e.references.onDataReference S)) ∧
      ∀ o, s.reference e.references.tableReference = some (.object o) →
        calls = (s.callback e.references.onDataReference e.references.tableReference
          "onData".toList e.isFirstData).toList.flatMap fun f => onDataCalls f o rows s.tables := by
  obtain ⟨objects, called, hrun, hcalled⟩ := withCallback_on
    (do
      let callbackPosition ← Top
      ReferencePush dataReference
      onDataLoop code e.references.tableReference callbackPosition (rows.length + 1) 1
      Pop 2) "onData".toList (fun f o called => called = s.called ++ onDataCalls f o rows s.tables)
    hS hheld fun f t S' ht => by
      rw [Raise.bind_ok Top_on, Raise.bind_ok (ReferencePush_on hdata)]
      obtain ⟨objects, hloop⟩ := onDataLoop_on code (P := S') (f := f) ht hrows (Nat.zero_add _)
      exact ⟨objects, _, (Raise.bind_ok hloop).trans Pop_two_on, rfl⟩
  rcases hcalled with ⟨rfl, hnone⟩ | ⟨f, t, ht, hcallback, rfl⟩
  · refine ⟨objects, [], ?_, fun o ho => ?_⟩
    · rw [List.append_nil]
      exact hrun
    · rw [hnone o ho, Option.toList_none, List.flatMap_nil]
  · refine ⟨objects, _, hrun, fun o ho => ?_⟩
    rw [ht] at ho
    rw [hcallback, Option.toList_some, List.flatMap_singleton, Value.object.inj (Option.some.inj ho)]

/-- What the callbacks of a successful query were called with between two states: the rows of
the table one after the other, if there is a callback for them, and then at most once the table
itself. -/
structure FinishedExecution.PassesRows (e : FinishedExecution) (s t : State) (table : LuaTable)
    (calls rest : List Called) : Prop where
  called : t.called = s.called ++ calls ++ rest
  tables : t.tables = s.tables ++ resultContents s.tables.length table
  rows : ∀ o, s.reference e.references.tableReference = some (.object o) →
    calls = (s.callback e.references.onDataReference e.references.tableReference
      "onData".toList e.isFirstData).toList.flatMap fun f =>
        onDataCalls f o (List.range' (s.tables.length + 1) table.length) t.tables
  results : ∀ o, s.reference e.references.tableReference = some (.object o) →
    ∀ c ∈ rest, c.args = [.object o, .table s.tables.length]
  success : ∀ f, s.reference e.references.successReference = some f → ∃ c, rest = [c] ∧ c.function = f
  once : rest.length ≤ 1

/-- The results are stored and referenced; the callbacks of the query are called with each row,
and then with all of them. -/
lemma runQuerySuccessCallback_on {postgresNumberToLua : Text → Double} {data : UnreadData}
    (hS : S ≠ []) (hcallback : s.callbackData e.query = true)
    (honData : s.Held e.references.onDataReference e.references.tableReference)
    (hsuccess : s.Held e.references.successReference e.references.tableReference)
    (hunset : e.references.tableReference = 0 → e.references.successReference = 0) :
    ∃ t : State, runQuerySuccessCallback code postgresNumberToLua e data (s.on S) =
        .ok ⟨⟩ (t.on (e.lookedUp s e.references.successReference
          (e.lookedUp s e.references.onDataReference S))) ∧
      ∃ calls rest, e.PassesRows s t
        (Lua.createResultTable postgresNumberToLua data.toQueryData) calls rest := by
  set table := Lua.createResultTable postgresNumberToLua data.toQueryData
  set u := (s.withTables (s.tables ++ resultContents s.tables.length table)).withReferences
    (s.references ++ [some (.table s.tables.length)]) with hu
  have hkeeps : s.Keeps u := State.keeps_append rfl
  have hdata : u.reference (s.references.length + 1) = some (.table s.tables.length) :=
    State.reference_concat
  have hrows : u.tables[s.tables.length]? = some (arrayContents
      ((List.range' (s.tables.length + 1) table.length).map .table)) := by
    show (s.tables ++ resultContents s.tables.length table)[s.tables.length]? = _
    rw [List.getElem?_append_right le_rfl, Nat.sub_self]
    rfl
  obtain ⟨objects, calls, honDataRun, hcalls⟩ := runOnDataCallbacks_on code hS
    (hkeeps.held honData) hdata hrows
  rw [List.length_range'] at honDataRun
  rw [FinishedExecution.lookedUp, hkeeps.lookedUp honData] at honDataRun
  rw [hkeeps.callback rfl honData] at hcalls
  have hkeeps' : s.Keeps (u.after objects (u.called ++ calls)) := hkeeps
  have hdata' : (u.after objects (u.called ++ calls)).reference (s.references.length + 1) =
    some (.table s.tables.length) := hdata
  rw [runQuerySuccessCallback,
    Raise.bind_ok (createResultTableReference_on hcallback data.isSome_current),
    Raise.bind_ok honDataRun]
  rw [lookup_on (lookedUp_ne_nil hS honData) (hkeeps'.held hsuccess), hkeeps'.lookedUp hsuccess]
  cases hcb : (u.after objects (u.called ++ calls)).callback e.references.successReference
      e.references.tableReference "onSuccess".toList e.isFirstData with
  | none =>
      exact ⟨_, (Raise.bind_ok ReferenceFree_on).trans Raise.pure_apply, calls, [],
        { called := (List.append_nil _).symm
          tables := rfl
          rows := fun o ho => hcalls o (hkeeps _ _ ho)
          results := fun _ _ => nofun
          success := fun f hf => absurd (hcb.symm.trans (callback_captured (hkeeps' _ _ hf))) nofun
          once := Nat.zero_le _ }⟩
  | some f =>
      obtain ⟨t, ht⟩ := (hkeeps'.held hsuccess).table (callback_table hunset hcb)
      simp only
      rw [Raise.bind_ok (ReferencePush_on ht), Raise.bind_ok (ReferencePush_on hdata')]
      obtain ⟨objects', hpcall⟩ := pcall_two_on code (s := u.after objects (u.called ++ calls))
      refine ⟨_, (Raise.bind_ok hpcall).trans ReferenceFree_on, calls, [_],
        { called := rfl
          tables := rfl
          rows := fun o ho => hcalls o (hkeeps _ _ ho)
          results := fun o ho => ?_
          success := fun g hg => ⟨_, rfl,
            Option.some.inj (hcb.symm.trans (callback_captured (hkeeps' _ _ hg)))⟩
          once := le_rfl }⟩
      have ho' := (hkeeps' _ _ ho).symm.trans ht
      rw [List.forall_mem_singleton, Value.object.inj (Option.some.inj ho')]

lemma setCallbackData_forM_on (queries : List StagedQuery) :
    ∃ u, s.Keeps u ∧ (queries.forM fun child => setCallbackData child.query) (s.on S) =
      .ok ⟨⟩ (u.on S) := by
  induction queries generalizing s with
  | nil => exact ⟨s, fun _ _ h => h, rfl⟩
  | cons child queries ih =>
      obtain ⟨u, hkeeps, hrest⟩ := ih (s := s.withCallbackData child.query)
      exact ⟨u, hkeeps, (Raise.bind_ok setCallbackData_on).trans hrest⟩

lemma runTransactionAbortedCallback_on {queries : List StagedQuery} (hS : S ≠ [])
    (hheld : s.Held e.references.abortReference e.references.tableReference) :
    ∃ t : State, runTransactionAbortedCallback code e queries (s.on S) =
      .ok ⟨⟩ (t.on (e.lookedUp s e.references.abortReference S)) := by
  obtain ⟨u, hkeeps, hset⟩ := setCallbackData_forM_on (s := s) (S := S) queries
  obtain ⟨objects, called, hrun⟩ := runAbortedCallback_on code hS (hkeeps.held hheld)
  rw [FinishedExecution.lookedUp, hkeeps.lookedUp hheld] at hrun
  obtain ⟨references, objects', hclear⟩ := clearAddedQueriesFromCallbackTable_on
    (s := u.after objects called) (S := e.lookedUp s e.references.abortReference S)
    (hkeeps.held hheld).table
  exact ⟨_, (Raise.bind_ok hset).trans ((Raise.bind_ok hrun).trans hclear)⟩

lemma runTransactionErrorCallback_on {queries : List StagedQuery} (hS : S ≠ [])
    (hheld : s.Held e.references.errorReference e.references.tableReference)
    (hunset : e.references.tableReference = 0 → e.references.errorReference = 0) :
    ∃ t : State, runTransactionErrorCallback code e queries (s.on S) =
      .ok ⟨⟩ (t.on (e.lookedUp s e.references.errorReference S)) := by
  obtain ⟨u, hkeeps, hset⟩ := setCallbackData_forM_on (s := s) (S := S) queries
  have hu := hkeeps.held hheld
  rw [runTransactionErrorCallback, Raise.bind_ok hset]
  rw [lookup_on hS hu, hkeeps.lookedUp hheld]
  cases hcb : u.callback e.references.errorReference e.references.tableReference "onError".toList
      e.isFirstData with
  | none =>
      obtain ⟨references, objects, hclear⟩ := clearAddedQueriesFromCallbackTable_on
        (S := e.lookedUp s e.references.errorReference S) hu.table
      exact ⟨_, (Raise.bind_ok hclear).trans Raise.pure_apply⟩
  | some f =>
      obtain ⟨t, ht⟩ := hu.table (callback_table hunset hcb)
      simp only
      rw [Raise.bind_ok (ReferencePush_on ht), Raise.bind_ok pushValue_on]
      obtain ⟨objects, hpcall⟩ := pcall_two_on code (s := u)
      rw [Raise.bind_ok hpcall]
      obtain ⟨references, objects', hclear⟩ := clearAddedQueriesFromCallbackTable_on
        (s := u.after objects _) (S := e.lookedUp s e.references.errorReference S) hu.table
      exact ⟨_, hclear⟩

/-- The results are on top when the callback is looked up, and a late lookup puts the table of
the transaction in their place. -/
lemma runTransactionSuccessCallback_on {postgresNumberToLua : Text → Double}
    {queries : List StagedQuery} {t : ℕ}
    (hheld : s.Held e.references.successReference e.references.tableReference)
    (htable : e.references.tableReference ≠ 0)
    (ht : s.reference e.references.tableReference = some (.object t)) :
    ∃ u : State, runTransactionSuccessCallback code postgresNumberToLua e queries (s.on S) =
        .ok ⟨⟩ (u.on S) ∧
      u.called = s.called ++
        (s.callback e.references.successReference e.references.tableReference "onSuccess".toList
          e.isFirstData).toList.map fun f =>
            ⟨f, [.object t,
              if IsLate e.references.successReference e.references.tableReference e.isFirstData then
                .object t
              else .table s.tables.length], (s.withResults postgresNumberToLua queries).tables⟩ := by
  have hkeeps : s.Keeps (s.withResults postgresNumberToLua queries) := State.keeps_append rfl
  rw [runTransactionSuccessCallback]
  simp only [if_neg htable]
  rw [Raise.bind_ok CreateTable_on, Raise.bind_ok (setResults_on queries)]
  rw [lookup_on (List.append_ne_nil_of_right_ne_nil _ (List.cons_ne_nil _ _)) (hkeeps.held hheld),
    hkeeps.callback rfl hheld, hkeeps.lookedUp hheld]
  generalize hx : (if IsLate e.references.successReference e.references.tableReference
    e.isFirstData then Value.object t else .table s.tables.length) = x
  have hlookedUp : s.lookedUp e.references.successReference e.references.tableReference
      e.isFirstData (S ++ [.table s.tables.length]) = S ++ [x] := by
    rw [← hx, State.lookedUp]
    split
    · rw [ht, List.dropLast_concat, Option.toList_some]
    · rfl
  rw [hlookedUp]
  cases s.callback e.references.successReference e.references.tableReference "onSuccess".toList
      e.isFirstData with
  | none =>
      obtain ⟨references, objects, hclear⟩ := clearAddedQueriesFromCallbackTable_on
        (S := S) (hkeeps.held hheld).table
      exact ⟨_, (Raise.bind_ok Pop_one_on).trans
        ((Raise.bind_ok hclear).trans Raise.pure_apply), (List.append_nil _).symm⟩
  | some f =>
      simp only
      rw [Raise.bind_ok (ReferencePush_on (hkeeps _ _ ht)),
        Raise.bind_ok (Push_on LuaStack.value_third)]
      obtain ⟨objects, hpcall⟩ := pcall_two_on code (s := s.withResults postgresNumberToLua queries)
        (S := S ++ [x]) (f := f) (a := .object t) (b := x)
      obtain ⟨references, objects', hclear⟩ := clearAddedQueriesFromCallbackTable_on
        (s := (s.withResults postgresNumberToLua queries).after objects _) (S := S)
        (hkeeps.held hheld).table
      rw [Raise.bind_ok hpcall, Raise.bind_ok Pop_one_on]
      exact ⟨_, hclear, rfl⟩

end Callbacks

/-! ### A finished execution -/

namespace FinishedExecution

/-- The references of the data are held, and without one to the table there are none. -/
structure Held (e : FinishedExecution) (s : State) : Prop where
  success : s.Held e.references.successReference e.references.tableReference
  error : s.Held e.references.errorReference e.references.tableReference
  abort : s.Held e.references.abortReference e.references.tableReference
  onData : s.Held e.references.onDataReference e.references.tableReference
  unset : e.references.tableReference = 0 → e.references = {}

end FinishedExecution

/-- A reference to a function is created for a field that is one, and the stack is as before. -/
lemma getFunctionReference_on {i : ℤ} {t : ℕ} (fieldName : Text)
    (hi : LuaStack.value S i = some (.object t)) :
    ∃ ref u, getFunctionReference i fieldName (s.on S) = .ok ref (u.on S) ∧ s.Keeps u ∧
      (ref ≠ 0 → ∃ f, u.reference ref = some f ∧ f.isFunction) := by
  rw [getFunctionReference, Raise.bind_ok (GetField_on hi),
    Raise.bind_ok (valueAt_on LuaStack.value_top)]
  split
  · exact ⟨_, _, ReferenceCreate_on, State.keeps_append rfl,
      fun _ => ⟨_, State.reference_concat, ‹_›⟩⟩
  · exact ⟨0, s, (Raise.bind_ok Pop_one_on).trans Raise.pure_apply, fun _ _ h => h,
      fun h => absurd rfl h⟩

/-- What `referenceCallbacks` makes of the table of a query is held. -/
lemma referenceCallbacks_held {i : ℤ} {t : ℕ} (hi : LuaStack.value S i = some (.object t)) :
    ∃ refs u, referenceCallbacks i (s.on S) = .ok refs (u.on S) ∧
      ∀ e : FinishedExecution, e.references = refs → e.Held u := by
  set u := s.withReferences (s.references ++ [some (.object t)])
  have htable : u.reference (s.references.length + 1) = some (.object t) := State.reference_concat
  obtain ⟨success, u₁, hsuccess, hkeeps₁, hfunction₁⟩ :=
    getFunctionReference_on (s := u) "onSuccess".toList hi
  obtain ⟨abort, u₂, habort, hkeeps₂, hfunction₂⟩ :=
    getFunctionReference_on (s := u₁) "onAborted".toList hi
  obtain ⟨onData, u₃, honData, hkeeps₃, hfunction₃⟩ :=
    getFunctionReference_on (s := u₂) "onData".toList hi
  obtain ⟨error, u₄, herror, hkeeps₄, hfunction₄⟩ :=
    getFunctionReference_on (s := u₃) "onError".toList hi
  have hkeeps₃₄ : u₂.Keeps u₄ := hkeeps₃.trans hkeeps₄
  have hkeeps₂₄ : u₁.Keeps u₄ := hkeeps₂.trans hkeeps₃₄
  refine ⟨⟨success, error, abort, onData, s.references.length + 1⟩, u₄, ?_, ?_⟩
  · rw [referenceCallbacks, Raise.bind_ok (Push_on hi), Raise.bind_ok ReferenceCreate_on,
      Raise.bind_ok hsuccess, Raise.bind_ok habort, Raise.bind_ok honData, Raise.bind_ok herror]
    rfl
  · rintro ⟨_, _, _, _⟩ rfl
    have htable' : ∃ o, u₄.reference (s.references.length + 1) = some (.object o) :=
      ⟨t, hkeeps₁.trans hkeeps₂₄ _ _ htable⟩
    exact {
      success := ⟨fun h => (hfunction₁ h).imp fun _ hf => ⟨hkeeps₂₄ _ _ hf.1, hf.2⟩, fun _ => htable'⟩
      error := ⟨hfunction₄, fun _ => htable'⟩
      abort := ⟨fun h => (hfunction₂ h).imp fun _ hf => ⟨hkeeps₃₄ _ _ hf.1, hf.2⟩, fun _ => htable'⟩
      onData := ⟨fun h => (hfunction₃ h).imp fun _ hf => ⟨hkeeps₄ _ _ hf.1, hf.2⟩, fun _ => htable'⟩
      unset := nofun }

namespace FinishedExecution

/-- Whether `runCallback` calls `LuaTransaction::runSuccessCallback`. -/
def IsTransactionSuccess (e : FinishedExecution) (queries : List StagedQuery) : Prop :=
  (∃ data, e.backend = .transaction data queries) ∧ e.backend.data.status ≠ .aborted ∧
    e.backend.data.resultStatus = .success

/-- The callbacks that are looked up directly above the stack that `runCallback` finds. -/
def consulted (e : FinishedExecution) : List ℕ :=
  if e.backend.data.status = .aborted then [e.references.abortReference]
  else match e.backend.data.resultStatus with
    | .none => []
    | .error => [e.references.errorReference]
    | .success =>
        match e.backend with
        | .query _ _ => [e.references.onDataReference, e.references.successReference]
        | .transaction _ _ => []

/-- Whether the function of a reference is looked up after the start. -/
abbrev Late (e : FinishedExecution) (functionReference : ℕ) : Prop :=
  IsLate functionReference e.references.tableReference e.isFirstData

end FinishedExecution

variable {e : FinishedExecution} {postgresNumberToLua : Text → Double}

lemma runCallbacks_on (hS : S ≠ []) (hcallback : s.callbackData e.query = true) (hheld : e.Held s) :
    ∃ t : State, runCallbacks code postgresNumberToLua e (s.on S) =
      .ok ⟨⟩ (t.on (e.consulted.foldl (fun S ref => e.lookedUp s ref S) S)) := by
  have hunset := hheld.unset
  unfold runCallbacks FinishedExecution.consulted
  split
  · cases e.backend with
    | query sql data =>
        obtain ⟨objects, called, hrun⟩ := runAbortedCallback_on code hS hheld.abort
        exact ⟨_, hrun⟩
    | transaction data queries => exact runTransactionAbortedCallback_on code hS hheld.abort
  · cases e.backend.data.resultStatus with
    | none => exact ⟨s, rfl⟩
    | error =>
        cases e.backend with
        | query sql data =>
            obtain ⟨objects, called, hrun⟩ := runErrorCallback_on code hS hheld.error
            exact ⟨_, hrun⟩
        | transaction data queries =>
            exact runTransactionErrorCallback_on code hS hheld.error fun h => by rw [hunset h]
    | success =>
        cases e.backend with
        | query sql data =>
            exact (runQuerySuccessCallback_on code hS hcallback hheld.onData hheld.success
              fun h => by rw [hunset h]).imp fun _ h => h.1
        | transaction data queries =>
            by_cases htable : e.references.tableReference = 0
            · refine ⟨s, ?_⟩
              simp only [runTransactionSuccessCallback, if_pos htable]
              rfl
            · obtain ⟨t, ht⟩ := hheld.success.table htable
              exact (runTransactionSuccessCallback_on code hheld.success htable ht).imp fun _ h => h.1

/-- After a late lookup the table is on top, and further ones leave it there. -/
lemma foldl_lookedUp {refs : List ℕ} (hheld : ∀ ref ∈ refs, s.Held ref e.references.tableReference) :
    refs.foldl (fun S ref => e.lookedUp s ref S) S =
      if ∃ ref ∈ refs, e.Late ref then
        S.dropLast ++ (s.reference e.references.tableReference).toList
      else S := by
  induction refs generalizing S with
  | nil => rw [if_neg (by rintro ⟨_, h, -⟩; cases h)]; rfl
  | cons ref refs ih =>
      rw [List.foldl_cons, ih fun r hr => hheld r (List.mem_cons_of_mem _ hr)]
      by_cases hlate : e.Late ref
      · obtain ⟨t, ht⟩ := (hheld ref List.mem_cons_self).table hlate.2.2
        have hfirst : e.lookedUp s ref S = S.dropLast ++ [.object t] := by
          rw [FinishedExecution.lookedUp, State.lookedUp, if_pos hlate, ht, Option.toList_some]
        rw [hfirst, ht, List.dropLast_concat, Option.toList_some, ite_self,
          if_pos ⟨ref, List.mem_cons_self, hlate⟩]
      · have hfirst : e.lookedUp s ref S = S := if_neg hlate
        have hiff : (∃ r ∈ ref :: refs, e.Late r) ↔ ∃ r ∈ refs, e.Late r := by
          rw [List.exists_mem_cons_iff, or_iff_right hlate]
        simp only [hfirst, hiff]

/-- Lookups of callbacks leave the stack alone unless one of them is late and the topmost
value is not the table itself. -/
lemma foldl_lookedUp_eq_iff (hS : S ≠ []) {refs : List ℕ}
    (hheld : ∀ ref ∈ refs, s.Held ref e.references.tableReference) :
    refs.foldl (fun S ref => e.lookedUp s ref S) S = S ↔
      (∀ ref ∈ refs, ¬ e.Late ref) ∨ S.getLast? = s.reference e.references.tableReference := by
  rw [foldl_lookedUp hheld]
  by_cases hany : ∃ ref ∈ refs, e.Late ref
  · obtain ⟨ref, hmem, hlate⟩ := hany
    rw [if_pos ⟨ref, hmem, hlate⟩]
    have hlookedUp : e.lookedUp s ref S = S ↔
        ¬ e.Late ref ∨ S.getLast? = s.reference e.references.tableReference :=
      lookedUp_eq_iff hS (hheld ref hmem)
    rw [FinishedExecution.lookedUp, State.lookedUp, if_pos hlate,
      or_iff_right (not_not.2 hlate)] at hlookedUp
    rw [hlookedUp, or_iff_right fun h => h ref hmem hlate]
  · rw [if_neg hany]
    exact iff_of_true rfl (.inl fun ref hmem hlate => hany ⟨ref, hmem, hlate⟩)

lemma FinishedExecution.Held.consulted (hheld : e.Held s) :
    ∀ ref ∈ e.consulted, s.Held ref e.references.tableReference := by
  unfold FinishedExecution.consulted
  split
  · exact List.forall_mem_singleton.2 hheld.abort
  · split
    · exact fun _ h => absurd h List.not_mem_nil
    · exact List.forall_mem_singleton.2 hheld.error
    · split
      · exact List.forall_mem_cons.2 ⟨hheld.onData, List.forall_mem_singleton.2 hheld.success⟩
      · exact fun _ h => absurd h List.not_mem_nil

lemma FinishedExecution.Held.keeps {t : State} (hheld : e.Held s) (h : s.Keeps t) : e.Held t :=
  ⟨h.held hheld.success, h.held hheld.error, h.held hheld.abort, h.held hheld.onData, hheld.unset⟩

/-- After its callbacks, an execution has its references freed. -/
lemma runCallback_eq {u : State} (h : runCallbacks code postgresNumberToLua e
    ((s.withCallbackData e.query).on s.stack) = .ok ⟨⟩ (u.on S)) :
    ∃ references, runCallback code postgresNumberToLua e s =
      .ok ⟨⟩ ((u.withReferences references).on S) :=
  (forM_free_on e.references.fields).imp fun _ hfree =>
    (Raise.bind_ok setCallbackData_on).trans ((Raise.bind_ok h).trans hfree)

lemma runCallback_on (hS : s.stack ≠ []) (hheld : e.Held s) :
    ∃ t, runCallback code postgresNumberToLua e s = .ok ⟨⟩ t ∧
      t.stack = e.consulted.foldl (fun S ref => e.lookedUp s ref S) s.stack := by
  have hkeeps : s.Keeps (s.withCallbackData e.query) := fun _ _ h => h
  obtain ⟨t, hrun⟩ := runCallbacks_on code (s := s.withCallbackData e.query) hS
    (Function.update_self _ _ _) (hheld.keeps hkeeps)
  exact (runCallback_eq code hrun).elim fun _ h => ⟨_, h, rfl⟩

lemma runCallback_unreferenced {queries : List StagedQuery}
    {t : State} (hsuccess : e.IsTransactionSuccess queries)
    (htable : e.references.tableReference = 0)
    (hrun : runCallback code postgresNumberToLua e s = .ok ⟨⟩ t) : t.called = s.called := by
  obtain ⟨⟨data, hbackend⟩, hstatus, hresult⟩ := hsuccess
  have hcallbacks : runCallbacks code postgresNumberToLua e
      ((s.withCallbackData e.query).on s.stack) =
        .ok ⟨⟩ ((s.withCallbackData e.query).on s.stack) := by
    rw [runCallbacks, if_neg hstatus, hresult, hbackend]
    simp only [runTransactionSuccessCallback, if_pos htable]
    rfl
  obtain ⟨references, hrun'⟩ := runCallback_eq code hcallbacks
  obtain ⟨-, rfl⟩ := EStateM.Result.ok.inj (hrun.symm.trans hrun')
  rfl

/-- The callback of a transaction that has succeeded is called with the results, or with the
table of the transaction twice. -/
lemma runCallback_called {queries : List StagedQuery} {o : ℕ} {t : State} (hheld : e.Held s)
    (hsuccess : e.IsTransactionSuccess queries)
    (ho : s.reference e.references.tableReference = some (.object o))
    (hrun : runCallback code postgresNumberToLua e s = .ok ⟨⟩ t) :
    t.called = s.called ++
        (s.callback e.references.successReference e.references.tableReference "onSuccess".toList
          e.isFirstData).toList.map fun f =>
            ⟨f, [.object o, if e.Late e.references.successReference then .object o
              else .table s.tables.length], (s.withResults postgresNumberToLua queries).tables⟩ := by
  have hkeeps : s.Keeps (s.withCallbackData e.query) := fun _ _ h => h
  have htable : e.references.tableReference ≠ 0 := by
    intro hzero
    rw [hzero] at ho
    cases ho
  obtain ⟨⟨data, hbackend⟩, hstatus, hresult⟩ := hsuccess
  obtain ⟨u, hsuccess, hcalled⟩ := runTransactionSuccessCallback_on code (S := s.stack)
    (s := s.withCallbackData e.query) (hkeeps.held hheld.success) htable ho
  have hcallbacks : runCallbacks code postgresNumberToLua e
      ((s.withCallbackData e.query).on s.stack) = .ok ⟨⟩ (u.on s.stack) := by
    rw [runCallbacks, if_neg hstatus, hresult, hbackend]
    exact hsuccess
  obtain ⟨references, hrun'⟩ := runCallback_eq code hcallbacks
  obtain ⟨-, rfl⟩ := EStateM.Result.ok.inj (hrun.symm.trans hrun')
  exact hcalled

/-- The functions called between two states are given the table of the execution and the
results. -/
def FinishedExecution.PassesResults (e : FinishedExecution) (s t : State)
    (results : List LuaTable) : Prop :=
  ∀ c ∈ t.called.drop s.called.length, ∃ o k,
    s.reference e.references.tableReference = some (.object o) ∧ c.args = [.object o, .table k] ∧
      IsResults c.tables k results

lemma isResults_withResults (queries : List StagedQuery) :
    IsResults (s.withResults postgresNumberToLua queries).tables s.tables.length
      (queries.map (StagedQuery.firstResult postgresNumberToLua)) :=
  isResults_append s.tables _

lemma passesResults_iff {t : State} {queries : List StagedQuery} (hheld : e.Held s)
    (hsuccess : e.IsTransactionSuccess queries)
    (hrun : runCallback code postgresNumberToLua e s = .ok ⟨⟩ t) :
    e.PassesResults s t (queries.map (StagedQuery.firstResult postgresNumberToLua)) ↔
      ¬ e.Late e.references.successReference ∨
        s.callback e.references.successReference e.references.tableReference "onSuccess".toList
          e.isFirstData = none := by
  by_cases htable : e.references.tableReference = 0
  · have hcalled := runCallback_unreferenced code hsuccess htable hrun
    refine iff_of_true ?_ (.inl fun h => h.2.2 htable)
    intro c hc
    rw [hcalled, List.drop_length] at hc
    cases hc
  · obtain ⟨o, ho⟩ := hheld.success.table htable
    have hcalled := runCallback_called code hheld hsuccess ho hrun
    rw [FinishedExecution.PassesResults, hcalled, List.drop_left]
    cases s.callback e.references.successReference e.references.tableReference "onSuccess".toList
        e.isFirstData with
    | none => exact iff_of_true (fun _ h => absurd h List.not_mem_nil) (.inr rfl)
    | some f =>
        rw [Option.toList_some, List.map_singleton, List.forall_mem_singleton, or_iff_left nofun]
        by_cases hlate : e.Late e.references.successReference
        · -- the table of the transaction is in the place of the results
          refine iff_of_false ?_ (not_not.2 hlate)
          rintro ⟨_, _, -, hargs, -⟩
          rw [if_pos hlate] at hargs
          cases hargs
        · rw [if_neg hlate]
          exact iff_of_true ⟨o, s.tables.length, ho, rfl, isResults_withResults queries⟩ hlate

/-- **The callbacks and the stack.**  A lookup leaves the stack with the callback on top, or as
it was, if and only if it is not late or the topmost value was the table itself.  The callbacks
of a finished execution leave the stack as it was if and only if none of the lookups directly
above it is late, or its topmost value is the table.  When a transaction has succeeded, its
callback is given the table and the first results of the staged queries, in order, if and only
if the lookup is not late or finds no function. -/
theorem callbacks_leave_stack (code : LuaCode) (postgresNumberToLua : Text → Double) (s : State)
    (hS : s.stack ≠ []) :
    (∀ functionReference tableReference callbackName allowCallback,
      s.Held functionReference tableReference →
      ∃ t : State,
        pushCallbackReference functionReference tableReference callbackName allowCallback s =
          .ok (s.callback functionReference tableReference callbackName allowCallback).isSome t ∧
        (t.stack = s.stack ++
            (s.callback functionReference tableReference callbackName allowCallback).toList ↔
          ¬ IsLate functionReference tableReference allowCallback ∨
            s.stack.getLast? = s.reference tableReference)) ∧
    ∀ e : FinishedExecution, e.Held s →
      ∃ t : State, runCallback code postgresNumberToLua e s = .ok ⟨⟩ t ∧
        (t.stack = s.stack ↔
          (∀ ref ∈ e.consulted, ¬ e.Late ref) ∨
            s.stack.getLast? = s.reference e.references.tableReference) ∧
        ∀ queries, e.IsTransactionSuccess queries →
          (e.PassesResults s t (queries.map (StagedQuery.firstResult postgresNumberToLua)) ↔
            ¬ e.Late e.references.successReference ∨
              s.callback e.references.successReference e.references.tableReference
                "onSuccess".toList e.isFirstData = none) := by
  refine ⟨fun functionReference tableReference callbackName allowCallback hheld => ?_,
    fun e hheld => ?_⟩
  · refine ⟨_, pushCallbackReference_on (s := s) hS hheld, ?_⟩
    show s.lookedUp _ _ _ s.stack ++ _ = _ ↔ _
    rw [List.append_left_inj, lookedUp_eq_iff hS hheld]
  · refine (runCallback_on code hS hheld).imp fun t ht => ⟨ht.1, ?_, fun queries hsuccess => ?_⟩
    · rw [ht.2, foldl_lookedUp_eq_iff hS hheld.consulted]
    · exact passesResults_iff code hheld hsuccess ht.1

/-! ### A late callback -/

/-- Lua code that returns at once. -/
def silentCode : LuaCode where
  call := fun _ _ _ objects => (none, objects)
  report := fun _ _ _ objects => objects

/-- A database is on the stack; the table of the query, `1`, has a callback. -/
def lateState : State where
  stack := [.object 7]
  objects :=
    { fields := fun t name => if t = 1 ∧ name = "onSuccess".toList then .function 5 else .nil
      addedQueries := fun _ => [] }
  references := [some (.object 1), some (.function 5)]

/-- A result with one row. -/
def oneResult : UnreadData where
  status := .complete
  resultStatus := .success
  results := [{ rows :=
    { columns := ["n".toList], columnTypes := [.string], rows := [⟨[false], ["one".toList]⟩] } }]
  unread := rfl

/-- A query whose callback was not captured. -/
def lateQuery : FinishedExecution where
  query := 0
  backend := .query [] oneResult
  references := { tableReference := 1 }
  isFirstData := true

/-- A transaction with one query, with the references of its execution. -/
def oneTransaction (references : CallbackReferences) : FinishedExecution where
  query := 0
  backend := .transaction { status := .complete, resultStatus := .success } [⟨1, oneResult⟩]
  references := references
  isFirstData := true

/-- The stack after a function has returned. -/
def stackAfter {α : Type} : EStateM.Result Unit State α → Option (List Value)
  | .ok _ t => some t.stack
  | .error _ _ => none

/-- The arguments of the functions that were called by then. -/
def argsAfter {α : Type} : EStateM.Result Unit State α → Option (List (List Value))
  | .ok _ t => some (t.called.map Called.args)
  | .error _ _ => none

/-- The database is replaced by the table of the query, below the callback and for good; and the
callback of the transaction is given its table in place of the results. -/
theorem late_callback_disturbs :
    stackAfter (pushCallbackReference 0 1 "onSuccess".toList true lateState) =
        some [.object 1, .function 5] ∧
      lateState.stack = [.object 7] ∧
      stackAfter (runCallback silentCode (fun _ => .nan) lateQuery lateState) =
        some [.object 1] ∧
      argsAfter (runCallback silentCode (fun _ => .nan) (oneTransaction { tableReference := 1 })
        lateState) = some [[.object 1, .object 1]] := by
  decide +kernel

/-- The callback of the transaction was captured: it is given the results. -/
theorem callbacks_leave_stack_captured :
    ∃ t : State,
      runCallback silentCode (fun _ => .nan)
          (oneTransaction { tableReference := 1, successReference := 2 }) lateState = .ok ⟨⟩ t ∧
        t.stack = [.object 7] ∧
        (oneTransaction { tableReference := 1, successReference := 2 }).PassesResults lateState t
          [StagedQuery.firstResult (fun _ => .nan) ⟨1, oneResult⟩] := by
  have hheld : (oneTransaction { tableReference := 1, successReference := 2 }).Held lateState :=
    { success := ⟨fun _ => ⟨.function 5, rfl, rfl⟩, fun _ => ⟨1, rfl⟩⟩
      error := ⟨nofun, fun _ => ⟨1, rfl⟩⟩
      abort := ⟨nofun, fun _ => ⟨1, rfl⟩⟩
      onData := ⟨nofun, fun _ => ⟨1, rfl⟩⟩
      unset := nofun }
  obtain ⟨t, hrun, hstack, hresults⟩ :=
    (callbacks_leave_stack silentCode (fun _ => .nan) lateState (by decide)).2 _ hheld
  exact ⟨t, hrun, hstack.2 (.inl nofun),
    (hresults _ ⟨⟨_, rfl⟩, by decide, rfl⟩).2 (.inl nofun)⟩

end GmsvPg.Callbacks
