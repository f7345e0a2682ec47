/-
# The functions of `ILuaBase`

The part of `LuaBase.h` with which the callbacks of an execution are looked up and called.  The
values are those of the stack; a table is one that Lua code has made, an object, or one that
the module fills with results.  A function that is called has a stack of its own, so that it
changes nothing on the stack of its caller.  An access to an index that is not on the stack,
or to the fields of a value that has none, ends the program.

As before, Lua code that replaces metatables, the error reporter or the field `__CppObject` of
an object is left out.  Nor is it recorded what Lua code writes to the tables of results: the
module reads none of them again that it has passed to Lua code.
-/
import GmsvPg.Library.LuaStack
import GmsvPg.Library.Raise
import GmsvPg.Lua.LuaQuery

namespace GmsvPg.Callbacks

open Library
open Lua (LuaKey LuaValue LuaTable)

/-! ### Values and tables -/

inductive Value
  | data (x : LuaValue)
  /-- a number that counts columns, rows or queries -/
  | index (n : ℕ)
  | object (t : ℕ)
  | table (k : ℕ)
  | function (f : ℕ)
  | userdata (t : ℕ)
  /-- the function `errorReporter` of the module -/
  | errorReporter
deriving DecidableEq

namespace Value

def nil : Value := .data .nil

/-- `IsType` with `Type::Function`. -/
def isFunction : Value → Bool
  | .function _ | .errorReporter => true
  | _ => false

/-- `IsType` with `Type::Table`. -/
def isTable : Value → Bool
  | .object _ | .table _ => true
  | _ => false

end Value

/-- The fields of a table that the module has made, in the order in which it has set them. -/
abbrev Contents : Type := List (Value × Value)

/-- The value of a field: the one that was set last. -/
def Contents.get (contents : Contents) (key : Value) : Value :=
  (contents.reverse.lookup key).getD .nil

namespace Contents

variable {contents : Contents} {key v : Value}

/-- A field that is set once has the value it was set to. -/
lemma get_of_mem (hnodup : (contents.map Prod.fst).Nodup) (h : (key, v) ∈ contents) :
    contents.get key = v := by
  obtain ⟨before, after, hsplit⟩ := List.append_of_mem h
  subst hsplit
  rw [List.map_append, List.map_cons, List.nodup_append, List.nodup_cons] at hnodup
  have hafter : after.reverse.lookup key = none := by
    rw [List.lookup_eq_none_iff]
    intro field hfield
    rw [bne_iff_ne]
    rintro rfl
    exact hnodup.2.1.1 (List.mem_map.2 ⟨field, List.mem_reverse.1 hfield, rfl⟩)
  rw [get, List.reverse_append, List.reverse_cons, List.append_assoc, List.lookup_append, hafter]
  simp

/-- A field that is not set is `nil`. -/
lemma get_of_notMem (h : key ∉ contents.map Prod.fst) : contents.get key = .nil := by
  have hnone : contents.reverse.lookup key = none := by
    rw [List.lookup_eq_none_iff]
    intro field hfield
    rw [bne_iff_ne]
    rintro rfl
    exact h (List.mem_map.2 ⟨field, List.mem_reverse.1 hfield, rfl⟩)
  rw [get, hnone]
  rfl

end Contents

/-- The objects: their fields, and the references to the queries that were added to a
transaction. -/
structure LuaObjects where
  fields : ℕ → Text → Value
  addedQueries : ℕ → List ℕ

/-- A field of an object; `__CppObject` is its userdata. -/
def LuaObjects.get (objects : LuaObjects) (t : ℕ) (name : Text) : Value :=
  if name = "__CppObject".toList then .userdata t else objects.fields t name

/-- The objects after the queries that were added to a transaction have been removed. -/
def LuaObjects.withoutQueries (objects : LuaObjects) (t : ℕ) : LuaObjects :=
  { objects with addedQueries := Function.update objects.addedQueries t [] }

/-- The table of global variables. -/
def globals : ℕ := 0

/-- What Lua code does, in terms of the arguments, the tables of the module and the objects. -/
structure LuaCode where
  /-- a function that is called by `PCall`: the error it raises, if it does, as the error
  reporter returns it, and the objects afterwards -/
  call : Value → List Value → List Contents → LuaObjects → Option Value × LuaObjects
  /-- `ErrorNoHalt`, which raises no error -/
  report : Value → List Value → List Contents → LuaObjects → LuaObjects

/-- A function that was called by `PCall`, with its arguments and the tables at that time. -/
structure Called where
  function : Value
  args : List Value
  tables : List Contents
deriving DecidableEq

/-! ### The state -/

/-- The stack of the running function, and what its values stand for: the objects, the tables
of the module, the values that are referenced and the queries that have callback data; with
the functions that were called so far. -/
structure State where
  stack : List Value
  objects : LuaObjects
  tables : List Contents := []
  references : List (Option Value) := []
  callbackData : ℕ → Bool := fun _ => false
  called : List Called := []

/-- A function of the module. -/
abbrev M : Type → Type := EStateM Unit State

/-- The result of an access, if there is one. -/
def access {α : Type} : Option α → M α
  | some a => pure a
  | none => throw ()

namespace State

/-- The state with another stack. -/
def on (s : State) (S : List Value) : State := { s with stack := S }

/-- The state with other tables. -/
def withTables (s : State) (tables : List Contents) : State := { s with tables := tables }

/-- The state with other references. -/
def withReferences (s : State) (references : List (Option Value)) : State :=
  { s with references := references }

/-- The state in which a query has callback data. -/
def withCallbackData (s : State) (query : ℕ) : State :=
  { s with callbackData := Function.update s.callbackData query true }

/-- The state after functions were called, with the objects they leave. -/
def after (s : State) (objects : LuaObjects) (called : List Called) : State :=
  { s with objects := objects, called := called }

/-- The value that a reference stands for; zero is no reference. -/
def reference (s : State) (ref : ℕ) : Option Value :=
  match ref with
  | 0 => none
  | n + 1 => s.references[n]?.join

end State

/-! ### The operations -/

def pushValue (v : Value) : M Unit := modify fun s => s.on (s.stack ++ [v])

def Top : M ℤ := do return (← get).stack.length

/-- The value at an index. -/
def valueAt (i : ℤ) : M Value := do access (LuaStack.value (← get).stack i)

def Push (i : ℤ) : M Unit := do pushValue (← valueAt i)

def Pop (n : ℕ := 1) : M Unit := do
  let S ← access (LuaStack.pop (← get).stack n)
  modify fun s => s.on S

def Insert (i : ℤ) : M Unit := do
  let S ← access (LuaStack.insert (← get).stack i)
  modify fun s => s.on S

def Remove (i : ℤ) : M Unit := do
  let S ← access (LuaStack.remove (← get).stack i)
  modify fun s => s.on S

/-- The topmost value is taken off and returned. -/
def popValue : M Value := do
  let v ← valueAt (-1)
  Pop
  return v

def GetField (i : ℤ) (name : Text) : M Unit := do
  match ← valueAt i with
  | .object t => pushValue ((← get).objects.get t name)
  | _ => throw ()

def CreateTable : M Unit := do
  pushValue (.table (← get).tables.length)
  modify fun s => { s with tables := s.tables ++ [[]] }

/-- A field of a table of the module is set. -/
def setKey (key v : Value) : Value → M Unit
  | .table k => modify fun s => { s with tables := s.tables.modify k (· ++ [(key, v)]) }
  | _ => throw ()

def SetField (i : ℤ) (name : Text) : M Unit := do
  let table ← valueAt i
  let v ← popValue
  setKey (.data (.string name)) v table

def SetTable (i : ℤ) : M Unit := do
  let table ← valueAt i
  let v ← popValue
  let key ← popValue
  setKey key v table

def RawGet (i : ℤ) : M Unit := do
  match ← valueAt i with
  | .table k =>
      let key ← popValue
      let contents ← access (← get).tables[k]?
      pushValue (contents.get key)
  | _ => throw ()

def ReferencePush (ref : ℕ) : M Unit := do pushValue (← access ((← get).reference ref))

def ReferenceCreate : M ℕ := do
  let v ← popValue
  modify fun s => { s with references := s.references ++ [some v] }
  return (← get).references.length

def ReferenceFree (ref : ℕ) : M Unit :=
  modify fun s => { s with references := s.references.set (ref - 1) none }

/-- The function under `nargs` arguments is taken off with them. -/
def popCall (nargs : ℕ) : M (Value × List Value) := do
  let S := (← get).stack
  let f ← valueAt (-(nargs + 1))
  Pop (nargs + 1)
  return (f, S.drop (S.length - nargs))

/-- `PCall` without results; it returns whether there was an error, which is then pushed. -/
def PCall (code : LuaCode) (nargs : ℕ) (errorFunc : ℤ) : M Bool := do
  let _ ← valueAt errorFunc
  let (f, args) ← popCall nargs
  let s ← get
  let (error, objects) := code.call f args s.tables s.objects
  modify fun s => { s with objects := objects, called := s.called ++ [⟨f, args, s.tables⟩] }
  match error with
  | none => return false
  | some e =>
      pushValue e
      return true

/-- `Call` without results, of `ErrorNoHalt`. -/
def Call (code : LuaCode) (nargs : ℕ) : M Unit := do
  let (f, args) ← popCall nargs
  modify fun s => { s with objects := code.report f args s.tables s.objects }

/-! ### What the operations do -/

section Operations

variable {s : State} {S ys : List Value} {v w key : Value} {i : ℤ} {n k t : ℕ} {name : Text}

lemma pushValue_on : pushValue v (s.on S) = .ok ⟨⟩ (s.on (S ++ [v])) := rfl

lemma Top_on : Top (s.on S) = .ok S.length (s.on S) := rfl

lemma valueAt_on (h : LuaStack.value S i = some v) : valueAt i (s.on S) = .ok v (s.on S) := by
  show access (LuaStack.value S i) (s.on S) = _
  rw [h]
  rfl

lemma Push_on (h : LuaStack.value S i = some v) :
    Push i (s.on S) = .ok ⟨⟩ (s.on (S ++ [v])) := Raise.bind_ok (valueAt_on h)

lemma Pop_on (hn : ys.length = n) : Pop n (s.on (S ++ ys)) = .ok ⟨⟩ (s.on S) := by
  show (access (LuaStack.pop (S ++ ys) n) >>= fun S => modify fun s => s.on S) (s.on (S ++ ys)) = _
  rw [LuaStack.pop_append hn]
  rfl

lemma Pop_one_on : Pop 1 (s.on (S ++ [v])) = .ok ⟨⟩ (s.on S) := Pop_on rfl

lemma Pop_two_on : Pop 2 (s.on (S ++ [v] ++ [key])) = .ok ⟨⟩ (s.on S) := by
  rw [List.append_assoc]
  exact Pop_on rfl

lemma Pop_three_on : Pop 3 (s.on (S ++ [v] ++ [key] ++ [w])) = .ok ⟨⟩ (s.on S) := by
  rw [List.append_assoc, List.append_assoc]
  exact Pop_on rfl

lemma popValue_on : popValue (s.on (S ++ [v])) = .ok v (s.on S) := by
  rw [popValue, Raise.bind_ok (valueAt_on LuaStack.value_top), Raise.bind_ok Pop_one_on]
  rfl

lemma Insert_on (hi : i = S.length + 1 ∨ i = -(ys ++ [v]).length) :
    Insert i (s.on (S ++ (ys ++ [v]))) = .ok ⟨⟩ (s.on (S ++ v :: ys)) := by
  show (access (LuaStack.insert (S ++ (ys ++ [v])) i) >>= fun S => modify fun s => s.on S) _ = _
  rw [LuaStack.insert_append hi]
  rfl

lemma Remove_on (hi : i = S.length + 1 ∨ i = -(v :: ys).length) :
    Remove i (s.on (S ++ v :: ys)) = .ok ⟨⟩ (s.on (S ++ ys)) := by
  show (access (LuaStack.remove (S ++ v :: ys) i) >>= fun S => modify fun s => s.on S) _ = _
  rw [LuaStack.remove_append hi]
  rfl

lemma GetField_on (h : LuaStack.value S i = some (.object t)) :
    GetField i name (s.on S) = .ok ⟨⟩ (s.on (S ++ [s.objects.get t name])) := by
  rw [GetField, Raise.bind_ok (valueAt_on h)]
  rfl

lemma CreateTable_on : CreateTable (s.on S) =
    .ok ⟨⟩ ((s.withTables (s.tables ++ [[]])).on (S ++ [.table s.tables.length])) :=
  rfl

lemma SetTable_on (h : LuaStack.value (S ++ [key] ++ [v]) i = some (.table k)) :
    SetTable i (s.on (S ++ [key] ++ [v])) = .ok ⟨⟩
      ((s.withTables (s.tables.modify k (· ++ [(key, v)]))).on S) := by
  rw [SetTable, Raise.bind_ok (valueAt_on h), Raise.bind_ok popValue_on,
    Raise.bind_ok popValue_on]
  rfl

lemma SetField_on (h : LuaStack.value (S ++ [v]) i = some (.table k)) :
    SetField i name (s.on (S ++ [v])) = .ok ⟨⟩
      ((s.withTables (s.tables.modify k (· ++ [(.data (.string name), v)]))).on S) := by
  rw [SetField, Raise.bind_ok (valueAt_on h), Raise.bind_ok popValue_on]
  rfl

lemma RawGet_on {contents : Contents} (h : LuaStack.value (S ++ [key]) i = some (.table k))
    (hk : s.tables[k]? = some contents) :
    RawGet i (s.on (S ++ [key])) = .ok ⟨⟩ (s.on (S ++ [contents.get key])) := by
  have htable : (access (s.on S).tables[k]? : M Contents) (s.on S) = .ok contents (s.on S) := by
    show access s.tables[k]? _ = _
    rw [hk]
    rfl
  rw [RawGet, Raise.bind_ok (valueAt_on h)]
  simp only
  rw [Raise.bind_ok popValue_on, Raise.bind_ok Raise.get_apply, Raise.bind_ok htable]
  rfl

lemma ReferencePush_on (h : s.reference n = some v) :
    ReferencePush n (s.on S) = .ok ⟨⟩ (s.on (S ++ [v])) := by
  show (access (s.reference n) >>= pushValue) (s.on S) = _
  rw [h]
  rfl

lemma ReferenceFree_on : ReferenceFree n (s.on S) =
    .ok ⟨⟩ ((s.withReferences (s.references.set (n - 1) none)).on S) := rfl

lemma State.reference_concat {references : List (Option Value)} :
    (s.withReferences (references ++ [some v])).reference (references.length + 1) = some v := by
  show (references ++ [some v])[references.length]?.join = some v
  rw [List.getElem?_append_right le_rfl, Nat.sub_self]
  rfl

lemma ReferenceCreate_on : ReferenceCreate (s.on (S ++ [v])) =
    .ok (s.references.length + 1)
      ((s.withReferences (s.references ++ [some v])).on S) := by
  rw [ReferenceCreate, Raise.bind_ok popValue_on, Raise.bind_ok Raise.modify_apply,
    Raise.bind_ok Raise.get_apply, Raise.pure_apply]
  show EStateM.Result.ok (s.references ++ [some v]).length _ = _
  rw [List.length_append]
  rfl

lemma popCall_on {f : Value} {args : List Value} (hn : args.length = n) :
    popCall n (s.on (S ++ f :: args)) = .ok (f, args) (s.on S) := by
  have hf : LuaStack.value (S ++ f :: args) (-(n + 1)) = some f :=
    LuaStack.value_append (.inr (by rw [List.length_cons, hn, Nat.cast_add]; rfl))
  have hargs : (S ++ f :: args).drop ((S ++ f :: args).length - n) = args := by
    have hlen : (S ++ f :: args).length - n = (S ++ [f]).length := by
      simp only [List.length_append, List.length_cons, List.length_nil]
      omega
    rw [hlen, show S ++ f :: args = S ++ [f] ++ args by simp, List.drop_left]
  rw [popCall, Raise.bind_ok Raise.get_apply, Raise.bind_ok (valueAt_on hf),
    Raise.bind_ok (Pop_on (by rw [List.length_cons, hn])), Raise.pure_apply]
  show EStateM.Result.ok (f, (S ++ f :: args).drop ((S ++ f :: args).length - n)) _ = _
  rw [hargs]

lemma PCall_on {code : LuaCode} {f : Value} {args : List Value} (hn : args.length = n)
    (hi : LuaStack.value (S ++ f :: args) i = some v) :
    PCall code n i (s.on (S ++ f :: args)) =
      .ok (code.call f args s.tables s.objects).1.isSome
        ((s.after (code.call f args s.tables s.objects).2
            (s.called ++ [⟨f, args, s.tables⟩])).on
          (S ++ (code.call f args s.tables s.objects).1.toList)) := by
  rw [PCall, Raise.bind_ok (valueAt_on hi), Raise.bind_ok (popCall_on hn)]
  simp only
  rw [Raise.bind_ok Raise.get_apply]
  show (do
    modify fun t => { t with
      objects := (code.call f args s.tables s.objects).2
      called := t.called ++ [⟨f, args, t.tables⟩] }
    match (code.call f args s.tables s.objects).1 with
    | none => pure false
    | some e => do
        pushValue e
        pure true : M Bool) (s.on S) = _
  cases (code.call f args s.tables s.objects).1 with
  | none => rw [Option.toList_none, List.append_nil]; rfl
  | some e => rfl

lemma Call_on {code : LuaCode} {f : Value} :
    Call code 1 (s.on (S ++ [f] ++ [v])) =
      .ok ⟨⟩ ((s.after (code.report f [v] s.tables s.objects) s.called).on S) := by
  have hcall : popCall 1 (s.on (S ++ f :: [v])) = .ok (f, [v]) (s.on S) := popCall_on rfl
  rw [List.append_assoc, Call]
  exact (Raise.bind_ok hcall).trans rfl

end Operations

end GmsvPg.Callbacks
