/-
# The parameters of a prepared query

The setters of `PreparedQuery`, with the check of the index that `LuaPreparedQuery` makes in
front of them, and the loop with which `executeStatement` and `executeInTransaction` build the
parameters for `executeParams`.  The loop counts an `unsigned int` up to the largest index that
was set, so it does not end when that index is the largest `unsigned int` there is; for every
other map it gives one parameter for each index up to the largest.

What the setters have done is described by the slots: for each index what it was last set to,
if it was set since the last `clearParameters`.
-/
import GmsvPg.Postgres.Query
import Mathlib.Algebra.Order.Floor.Ring
import Mathlib.Data.Int.Log
import Mathlib.Data.Rat.Floor

namespace GmsvPg

/-- A C++ `double`; a finite one by its sign and its absolute value. -/
inductive Double
  | finite (negative : Bool) (magnitude : ℚ)
  | infinite (negative : Bool)
  | nan
deriving DecidableEq

/-- `std::numeric_limits<unsigned int>::max()` -/
def maxUnsigned : ℕ := 2 ^ 32 - 1

/-! ### Numbers as text -/

/-- The integer next to `x`, the even one of two. -/
def roundHalfEven (x : ℚ) : ℤ :=
  if x - ⌊x⌋ < 1 / 2 then ⌊x⌋
  else if 1 / 2 < x - ⌊x⌋ then ⌊x⌋ + 1
  else if ⌊x⌋ % 2 = 0 then ⌊x⌋
  else ⌊x⌋ + 1

/-- `x`, which is positive, rounded to `precision` digits: the digits, and the power of ten of
the first of them. -/
def significantDigits (precision : ℕ) (x : ℚ) : Text × ℤ :=
  let exponent := Int.log 10 x
  let digits := (roundHalfEven (x * 10 ^ ((precision : ℤ) - 1 - exponent))).toNat
  if digits = 10 ^ precision then (Nat.toDigits 10 (10 ^ (precision - 1)), exponent + 1)
  else (Nat.toDigits 10 digits, exponent)

/-- Digits without the zeros at their end. -/
def stripZeros (digits : Text) : Text := (digits.reverse.dropWhile fun ch => ch == '0').reverse

/-- A number, with a point in front of its fraction if it has one. -/
def withFraction (whole fraction : Text) : Text :=
  if fraction = [] then whole else whole ++ '.' :: fraction

/-- A positive `x` as a stream writes it in the classic locale: as `printf` does with `%g`. -/
def formatPositive (precision : ℕ) (x : ℚ) : Text :=
  let (digits, exponent) := significantDigits precision x
  if 0 ≤ exponent ∧ exponent < precision then
    withFraction (digits.take (exponent.toNat + 1)) (stripZeros (digits.drop (exponent.toNat + 1)))
  else if -4 ≤ exponent ∧ exponent < 0 then
    withFraction ['0'] (List.replicate ((-exponent).toNat - 1) '0' ++ stripZeros digits)
  else
    let power := Nat.toDigits 10 exponent.natAbs
    withFraction (digits.take 1) (stripZeros (digits.drop 1)) ++
      'e' :: (if exponent < 0 then '-' else '+') ::
        (if power.length < 2 then '0' :: power else power)

/-- `PreparedQuery::numberToString` -/
def numberToString : Double → Except PGException Text
  | .finite negative x =>
      .ok ((if negative then ['-'] else []) ++ if x = 0 then ['0'] else formatPositive 17 x)
  | .infinite _ | .nan => .error (pgException "pg: prepared numeric parameters must be finite".toList)

/-! ### The setters -/

def parameterIndexMessage : Text := "Index must be greater than 0 and an integer".toList

/-- `getParameterIndex` of `LuaPreparedQuery.cpp`. -/
def getParameterIndex : Double → Except PGException ℕ
  | .finite negative x =>
      let value := if negative then -x else x
      if value < 1 ∨ (⌊value⌋ : ℚ) ≠ value ∨ (maxUnsigned : ℚ) < value then
        .error (pgException parameterIndexMessage)
      else .ok ⌊value⌋.toNat
  | .infinite _ | .nan => .error (pgException parameterIndexMessage)

namespace PreparedQuery

/-- `m_parameters[index] = field` -/
def assign (params : PreparedParameterMap) (index : ℕ) (field : PreparedQueryField) :
    PreparedParameterMap :=
  params.filter (fun pair => decide (pair.1 ≠ index)) ++ [(index, field)]

/-- The check of the index that all setters begin with. -/
def checkIndex (index : ℕ) : Except PGException Unit :=
  if index < 1 then .error (pgException "Index must be greater than 0".toList) else .ok ()

/-- `PreparedQuery::clearParameters` -/
def clearParameters : PreparedParameterMap := []

/-- `PreparedQuery::setNumber`.  The field is built before `m_parameters[index]` is evaluated. -/
def setNumber (params : PreparedParameterMap) (index : ℕ) (value : Double) :
    Except PGException PreparedParameterMap := do
  checkIndex index
  let text ← numberToString value
  return assign params index ⟨.number, text⟩

def nulParameterMessage : Text :=
  "pg: prepared text parameters cannot contain embedded NUL bytes".toList

/-- `PreparedQuery::setString` -/
def setString (params : PreparedParameterMap) (index : ℕ) (value : Text) :
    Except PGException PreparedParameterMap := do
  checkIndex index
  if '\x00' ∈ value then
    throw (pgException nulParameterMessage)
  return assign params index ⟨.string, value⟩

/-- `PreparedQuery::setBoolean` -/
def setBoolean (params : PreparedParameterMap) (index : ℕ) (value : Bool) :
    Except PGException PreparedParameterMap := do
  checkIndex index
  return assign params index ⟨.boolean, if value then "true".toList else "false".toList⟩

/-- `PreparedQuery::setNull` -/
def setNull (params : PreparedParameterMap) (index : ℕ) :
    Except PGException PreparedParameterMap := do
  checkIndex index
  return assign params index ⟨.null, []⟩

end PreparedQuery

/-- A call of one of the functions of `LuaPreparedQuery`, with what Lua passes. -/
inductive ParameterCall
  | setNumber (index value : Double)
  | setString (index : Double) (value : Text)
  | setBoolean (index : Double) (value : Bool)
  | setNull (index : Double)
  | clearParameters
deriving DecidableEq

namespace ParameterCall

/-- The map after a call that does not throw. -/
def apply (params : PreparedParameterMap) : ParameterCall → Except PGException PreparedParameterMap
  | .setNumber index value => do PreparedQuery.setNumber params (← getParameterIndex index) value
  | .setString index value => do PreparedQuery.setString params (← getParameterIndex index) value
  | .setBoolean index value => do PreparedQuery.setBoolean params (← getParameterIndex index) value
  | .setNull index => do PreparedQuery.setNull params (← getParameterIndex index)
  | .clearParameters => return PreparedQuery.clearParameters

/-- The map after a call; one that throws leaves it alone. -/
def run (params : PreparedParameterMap) (call : ParameterCall) : PreparedParameterMap :=
  match call.apply params with
  | .ok params => params
  | .error _ => params

/-- The map of a query after a sequence of calls. -/
def parametersAfter (calls : List ParameterCall) : PreparedParameterMap := calls.foldl run []

end ParameterCall

/-! ### What was set -/

/-- For each index that is set what it was set to: a text, or `NULL`. -/
abbrev Slots : Type := ℕ → Option (Option Text)

namespace ParameterCall

/-- The index that a call sets, and what it sets it to, if the call does not throw. -/
def sets : ParameterCall → Option (ℕ × Option Text)
  | .setNumber index value =>
      match getParameterIndex index, numberToString value with
      | .ok i, .ok text => some (i, some text)
      | _, _ => none
  | .setString index value =>
      match getParameterIndex index with
      | .ok i => if '\x00' ∈ value then none else some (i, some value)
      | .error _ => none
  | .setBoolean index value =>
      match getParameterIndex index with
      | .ok i => some (i, some (if value then "true".toList else "false".toList))
      | .error _ => none
  | .setNull index =>
      match getParameterIndex index with
      | .ok i => some (i, none)
      | .error _ => none
  | .clearParameters => none

/-- The slots after a call. -/
def update (slots : Slots) (call : ParameterCall) : Slots :=
  if call = .clearParameters then fun _ => none
  else
    match call.sets with
    | some (i, value) => Function.update slots i (some value)
    | none => slots

/-- The slots after a sequence of calls. -/
def slotsAfter (calls : List ParameterCall) : Slots := calls.foldl update fun _ => none

end ParameterCall

/-! ### The parameters of an execution -/

namespace PreparedQuery

/-- The body of the loop, for the index `i`. -/
def parameterAt (params : PreparedParameterMap) (i : ℕ) : LibpqParameter :=
  match params.lookup i with
  | some field => if field.type ≠ .null then .text field.value else .null
  | none => .null

/-- `for (unsigned int i = 1; i <= count; ++i)`, from some `i` on; `none` if `fuel` turns are
not enough. -/
def parameterLoop (params : PreparedParameterMap) (count : ℕ) :
    (fuel i : ℕ) → List LibpqParameter → Option (List LibpqParameter)
  | 0, _, _ => none
  | fuel + 1, i, parameters =>
      if i ≤ count then
        parameterLoop params count fuel ((i + 1) % 2 ^ 32) (parameters ++ [parameterAt params i])
      else some parameters

variable {β : Type} (executeParams : Text → List LibpqParameter → β)

/-- `PreparedQuery::executeStatement`, up to the call of `executeParams`. -/
def executeStatement (fuel : ℕ) (sql : Text) (params : PreparedParameterMap) : Option β :=
  (parameterLoop params (maxParameterIndex params) fuel 1 []).map (executeParams sql)

/-- `PreparedQuery::executeInTransaction`, up to the call of `executeParams`. -/
def executeInTransaction (fuel : ℕ) (sql : Text) (params : PreparedParameterMap) :
    Option (Except PGException β) :=
  if isTransactionControlSql sql then some (.error (pgException controlMessage))
  else (parameterLoop params (maxParameterIndex params) fuel 1 []).map fun parameters =>
    .ok (executeParams sql parameters)

/-! ### The loop -/

section Loop

variable {params : PreparedParameterMap} {parameters : List LibpqParameter}

/-- Below the largest `unsigned int` the counter does not wrap around. -/
lemma parameterLoop_eq {count i n : ℕ} (hcount : count < maxUnsigned) (hn : count + 1 = i + n) :
    parameterLoop params count (n + 1) i parameters =
      some (parameters ++ (List.range' i n).map (parameterAt params)) := by
  induction n generalizing i parameters with
  | zero =>
      rw [parameterLoop, if_neg (by omega)]
      simp
  | succ n ih =>
      have hnext : (i + 1) % 2 ^ 32 = i + 1 := Nat.mod_eq_of_lt (by unfold maxUnsigned at hcount; omega)
      rw [parameterLoop, if_pos (by omega), hnext, ih (by omega), List.range'_succ, List.map_cons,
        List.append_assoc, List.singleton_append]

/-- No counter is beyond the largest `unsigned int`. -/
lemma parameterLoop_eq_none {count fuel i : ℕ} (hcount : maxUnsigned ≤ count) (hi : i < 2 ^ 32) :
    parameterLoop params count fuel i parameters = none := by
  induction fuel generalizing i parameters with
  | zero => rfl
  | succ fuel ih =>
      have hle : i ≤ count := by
        unfold maxUnsigned at hcount
        omega
      rw [parameterLoop, if_pos hle]
      exact ih (Nat.mod_lt _ (by norm_num))

lemma parameterLoop_maxUnsigned {fuel i : ℕ} (hi : i < 2 ^ 32) :
    parameterLoop params maxUnsigned fuel i parameters = none :=
  parameterLoop_eq_none le_rfl hi

/-- The fuel decides only whether the loop ends. -/
lemma parameterLoop_unique {count fuel fuel' i : ℕ} {result result' : List LibpqParameter}
    (h : parameterLoop params count fuel i parameters = some result)
    (h' : parameterLoop params count fuel' i parameters = some result') : result = result' := by
  induction fuel generalizing fuel' i parameters with
  | zero => cases h
  | succ fuel ih =>
      cases fuel' with
      | zero => cases h'
      | succ fuel' =>
          rw [parameterLoop] at h h'
          by_cases hi : i ≤ count
          · rw [if_pos hi] at h h'
            exact ih h h'
          · rw [if_neg hi] at h h'
            exact Option.some.inj (h.symm.trans h')

/-- The loop ends and gives one parameter for each index. -/
lemma parameterLoop_executionParameters (h : maxParameterIndex params < maxUnsigned) :
    parameterLoop params (maxParameterIndex params) (maxParameterIndex params + 1) 1 [] =
      some (executionParameters params) := by
  rw [parameterLoop_eq h (Nat.add_comm _ _), List.nil_append, List.range'_eq_map_range,
    List.map_map]
  exact congrArg some (List.map_congr_left fun i _ =>
    congrArg (parameterAt params) (Nat.add_comm 1 i))

/-- Where the loop ends, it gives one parameter for each index. -/
lemma executionParameters_of_parameterLoop {fuel : ℕ}
    (h : parameterLoop params (maxParameterIndex params) fuel 1 [] = some parameters) :
    parameters = executionParameters params := by
  have hlt : maxParameterIndex params < maxUnsigned := by
    by_contra hge
    rw [parameterLoop_eq_none (Nat.not_lt.1 hge) (by norm_num)] at h
    cases h
  exact parameterLoop_unique h (parameterLoop_executionParameters hlt)

end Loop

/-! ### The map holds the slots -/

/-- What a field stands for. -/
def text (field : PreparedQueryField) : Option Text :=
  if field.type ≠ .null then some field.value else none

/-- The map holds what is in the slots, under the indices that Lua can pass. -/
structure Holds (params : PreparedParameterMap) (slots : Slots) : Prop where
  lookup : ∀ i, (params.lookup i).map text = slots i
  index : ∀ pair ∈ params, 1 ≤ pair.1 ∧ pair.1 ≤ maxUnsigned

lemma lookup_erase (params : PreparedParameterMap) (index i : ℕ) :
    (params.filter fun pair => decide (pair.1 ≠ index)).lookup i =
      if i = index then none else params.lookup i := by
  induction params with
  | nil => simp
  | cons pair params ih =>
      by_cases hpair : pair.1 = index
      · rw [List.filter_cons_of_neg (by simp [hpair]), ih]
        by_cases hi : i = index
        · rw [if_pos hi, if_pos hi]
        · have hne : (i == pair.1) = false := by simpa [hpair] using hi
          rw [if_neg hi, if_neg hi, List.lookup_cons, hne]
      · rw [List.filter_cons_of_pos (by simp [hpair]), List.lookup_cons, ih, List.lookup_cons]
        by_cases hi : i = index
        · have hne : (i == pair.1) = false := by simpa [hi] using Ne.symm hpair
          rw [if_pos hi, if_pos hi, hne]
        · rw [if_neg hi, if_neg hi]

lemma lookup_assign (params : PreparedParameterMap) (index i : ℕ) (field : PreparedQueryField) :
    (assign params index field).lookup i = if i = index then some field else params.lookup i := by
  rw [assign, List.lookup_append, lookup_erase]
  by_cases hi : i = index
  · rw [if_pos hi, if_pos hi, hi, List.lookup_cons_self, Option.none_or]
  · have hne : (i == index) = false := by simpa using hi
    rw [if_neg hi, if_neg hi, List.lookup_cons, hne, List.lookup_nil, Option.or_none]

lemma Holds.assign {params : PreparedParameterMap} {slots : Slots} (h : Holds params slots)
    {index : ℕ} (hindex : 1 ≤ index ∧ index ≤ maxUnsigned) (field : PreparedQueryField) :
    Holds (assign params index field) (Function.update slots index (some (text field))) where
  lookup i := by
    rw [lookup_assign]
    by_cases hi : i = index
    · rw [if_pos hi, hi, Function.update_self, Option.map_some]
    · rw [if_neg hi, Function.update_of_ne hi, h.lookup]
  index pair hpair := by
    rcases List.mem_append.1 hpair with hmem | hmem
    · exact h.index pair (List.mem_filter.1 hmem).1
    · rw [List.mem_singleton.1 hmem]
      exact hindex

end PreparedQuery

lemma getParameterIndex_bounds {index : Double} {i : ℕ} (h : getParameterIndex index = .ok i) :
    1 ≤ i ∧ i ≤ maxUnsigned := by
  cases index with
  | finite negative x =>
      rw [getParameterIndex] at h
      generalize (if negative then -x else x) = value at h
      by_cases hvalue : value < 1 ∨ (⌊value⌋ : ℚ) ≠ value ∨ (maxUnsigned : ℚ) < value
      · rw [if_pos hvalue] at h
        cases h
      · rw [if_neg hvalue] at h
        obtain rfl := Except.ok.inj h
        push Not at hvalue
        obtain ⟨hone, hfloor, hmax⟩ := hvalue
        have hone : 1 ≤ ⌊value⌋ := Int.le_floor.2 (by exact_mod_cast hone)
        have hmax : ⌊value⌋ ≤ (maxUnsigned : ℤ) := by
          rw [← hfloor] at hmax
          exact_mod_cast hmax
        omega
  | infinite | nan => cases h

namespace ParameterCall

open PreparedQuery

lemma run_of_ok {params params' : PreparedParameterMap} {call : ParameterCall}
    (h : call.apply params = .ok params') : run params call = params' := by
  rw [run, h]

lemma run_of_error {params : PreparedParameterMap} {call : ParameterCall} {e : PGException}
    (h : call.apply params = .error e) : run params call = params := by
  rw [run, h]

/-- A call clears the map, sets a field, or throws. -/
lemma run_cases (params : PreparedParameterMap) (call : ParameterCall) :
    (call = .clearParameters ∧ run params call = []) ∨
      (call ≠ .clearParameters ∧ ∃ i field, (1 ≤ i ∧ i ≤ maxUnsigned) ∧
        call.sets = some (i, text field) ∧ run params call = assign params i field) ∨
      (call ≠ .clearParameters ∧ call.sets = none ∧ run params call = params) := by
  -- the index has passed the check of the Lua layer before a setter checks it again
  have hcheck : ∀ {index i}, getParameterIndex index = .ok i → checkIndex i = .ok () :=
    fun hindex => if_neg (Nat.not_lt.2 (getParameterIndex_bounds hindex).1)
  cases call with
  | clearParameters => exact .inl ⟨rfl, rfl⟩
  | setNumber index value =>
      refine .inr ?_
      rcases hindex : getParameterIndex index with e | i
      · refine .inr ⟨by simp, by simp only [sets, hindex], run_of_error (e := e) ?_⟩
        rw [apply, hindex]
        rfl
      rcases hnumber : numberToString value with e | digits
      · refine .inr ⟨by simp, by simp only [sets, hindex, hnumber], run_of_error (e := e) ?_⟩
        rw [apply, hindex]
        show PreparedQuery.setNumber params i value = _
        rw [PreparedQuery.setNumber, hcheck hindex, hnumber]
        rfl
      · refine .inl ⟨by simp, i, ⟨.number, digits⟩, getParameterIndex_bounds hindex,
          by simp only [sets, hindex, hnumber]; rfl, run_of_ok ?_⟩
        rw [apply, hindex]
        show PreparedQuery.setNumber params i value = _
        rw [PreparedQuery.setNumber, hcheck hindex, hnumber]
        rfl
  | setString index value =>
      refine .inr ?_
      rcases hindex : getParameterIndex index with e | i
      · refine .inr ⟨by simp, by simp only [sets, hindex], run_of_error (e := e) ?_⟩
        rw [apply, hindex]
        rfl
      by_cases hnul : '\x00' ∈ value
      · refine .inr ⟨by simp, by simp only [sets, hindex, if_pos hnul],
          run_of_error (e := pgException nulParameterMessage) ?_⟩
        rw [apply, hindex]
        show PreparedQuery.setString params i value = _
        rw [PreparedQuery.setString, hcheck hindex, if_pos hnul]
        rfl
      · refine .inl ⟨by simp, i, ⟨.string, value⟩, getParameterIndex_bounds hindex,
          by simp only [sets, hindex, if_neg hnul]; rfl, run_of_ok ?_⟩
        rw [apply, hindex]
        show PreparedQuery.setString params i value = _
        rw [PreparedQuery.setString, hcheck hindex, if_neg hnul]
        rfl
  | setBoolean index value =>
      refine .inr ?_
      rcases hindex : getParameterIndex index with e | i
      · refine .inr ⟨by simp, by simp only [sets, hindex], run_of_error (e := e) ?_⟩
        rw [apply, hindex]
        rfl
      · refine .inl ⟨by simp, i, ⟨.boolean, _⟩, getParameterIndex_bounds hindex,
          by simp only [sets, hindex]; rfl, run_of_ok ?_⟩
        rw [apply, hindex]
        show PreparedQuery.setBoolean params i value = _
        rw [PreparedQuery.setBoolean, hcheck hindex]
        rfl
  | setNull index =>
      refine .inr ?_
      rcases hindex : getParameterIndex index with e | i
      · refine .inr ⟨by simp, by simp only [sets, hindex], run_of_error (e := e) ?_⟩
        rw [apply, hindex]
        rfl
      · refine .inl ⟨by simp, i, ⟨.null, []⟩, getParameterIndex_bounds hindex,
          by simp only [sets, hindex]; rfl, run_of_ok ?_⟩
        rw [apply, hindex]
        show PreparedQuery.setNull params i = _
        rw [PreparedQuery.setNull, hcheck hindex]
        rfl

/-- The map holds the slots after any sequence of calls. -/
lemma holds_after (calls : List ParameterCall) :
    Holds (parametersAfter calls) (slotsAfter calls) := by
  induction calls using List.reverseRecOn with
  | nil => exact ⟨fun _ => rfl, fun _ h => absurd h List.not_mem_nil⟩
  | append_singleton calls call ih =>
      rw [parametersAfter, slotsAfter, List.foldl_concat, List.foldl_concat]
      show Holds (run (parametersAfter calls) call) (update (slotsAfter calls) call)
      rw [update]
      rcases run_cases (parametersAfter calls) call with ⟨hclear, hrun⟩ |
        ⟨hclear, i, field, hi, hsets, hrun⟩ | ⟨hclear, hsets, hrun⟩
      · rw [hrun, if_pos hclear]
        exact ⟨fun _ => rfl, fun _ h => absurd h List.not_mem_nil⟩
      · rw [hrun, if_neg hclear, hsets]
        exact ih.assign hi field
      · rw [hrun, if_neg hclear, hsets]
        exact ih

end ParameterCall

/-! ### The largest index -/

/-- The largest index that is set, or 0. -/
def Slots.IsLargest (slots : Slots) (n : ℕ) : Prop :=
  (n = 0 ∧ ∀ i, slots i = none) ∨ slots n ≠ none ∧ ∀ i, slots i ≠ none → i ≤ n

namespace PreparedQuery

variable {params : PreparedParameterMap} {slots : Slots}

lemma foldl_max (params : PreparedParameterMap) (m : ℕ) :
    params.foldl (fun max pair => if max < pair.1 then pair.1 else max) m =
      max m (maxParameterIndex params) := by
  induction params generalizing m with
  | nil => exact (max_eq_left (Nat.zero_le m)).symm
  | cons pair params ih =>
      rw [maxParameterIndex, List.foldl_cons, List.foldl_cons, ih, ih]
      split <;> split <;> omega

lemma maxParameterIndex_cons (pair : ℕ × PreparedQueryField) (params : PreparedParameterMap) :
    maxParameterIndex (pair :: params) = max pair.1 (maxParameterIndex params) := by
  rw [maxParameterIndex, List.foldl_cons, foldl_max]
  split <;> omega

lemma le_maxParameterIndex {pair : ℕ × PreparedQueryField} (h : pair ∈ params) :
    pair.1 ≤ maxParameterIndex params := by
  induction params with
  | nil => exact absurd h List.not_mem_nil
  | cons first params ih =>
      rw [maxParameterIndex_cons]
      rcases List.mem_cons.1 h with rfl | hmem
      · exact le_max_left _ _
      · exact (ih hmem).trans (le_max_right _ _)

lemma maxParameterIndex_eq_zero_or (params : PreparedParameterMap) :
    maxParameterIndex params = 0 ∨ ∃ pair ∈ params, pair.1 = maxParameterIndex params := by
  induction params with
  | nil => exact .inl rfl
  | cons first params ih =>
      rw [maxParameterIndex_cons]
      rcases le_total (maxParameterIndex params) first.1 with hle | hle
      · rw [max_eq_left hle]
        exact .inr ⟨first, List.mem_cons_self, rfl⟩
      · rw [max_eq_right hle]
        refine ih.imp_right ?_
        rintro ⟨pair, hmem, heq⟩
        exact ⟨pair, List.mem_cons_of_mem _ hmem, heq⟩

lemma Holds.mem_iff (h : Holds params slots) {i : ℕ} :
    slots i ≠ none ↔ ∃ pair ∈ params, pair.1 = i := by
  rw [← h.lookup, ne_eq, Option.map_eq_none_iff, List.lookup_eq_none_iff]
  simp only [not_forall, bne_iff_ne, ne_eq, not_not, exists_prop]
  exact ⟨fun ⟨pair, hmem, heq⟩ => ⟨pair, hmem, heq.symm⟩,
    fun ⟨pair, hmem, heq⟩ => ⟨pair, hmem, heq.symm⟩⟩

lemma Holds.isLargest (h : Holds params slots) : slots.IsLargest (maxParameterIndex params) := by
  have hle : ∀ i, slots i ≠ none → i ≤ maxParameterIndex params := by
    intro i hi
    obtain ⟨pair, hmem, rfl⟩ := h.mem_iff.1 hi
    exact le_maxParameterIndex hmem
  rcases maxParameterIndex_eq_zero_or params with hzero | hmem
  · refine .inl ⟨hzero, fun i => ?_⟩
    by_contra hi
    obtain ⟨pair, hmem, rfl⟩ := h.mem_iff.1 hi
    have hone := (h.index pair hmem).1
    have := hle pair.1 hi
    omega
  · exact .inr ⟨h.mem_iff.2 hmem, hle⟩

/-- What is set is within the indices that Lua can pass, and the largest of these is the
largest index only if it is set. -/
lemma Holds.maxParameterIndex_lt_iff (h : Holds params slots) :
    maxParameterIndex params < maxUnsigned ↔ slots maxUnsigned = none := by
  constructor
  · intro hlt
    by_contra hset
    obtain ⟨pair, hmem, heq⟩ := h.mem_iff.1 hset
    have := le_maxParameterIndex hmem
    omega
  · intro hunset
    rcases maxParameterIndex_eq_zero_or params with hzero | ⟨pair, hmem, heq⟩
    · rw [hzero]
      unfold maxUnsigned
      norm_num
    · have hle := (h.index pair hmem).2
      have hne : pair.1 ≠ maxUnsigned := fun hmax => h.mem_iff.2 ⟨pair, hmem, hmax⟩ hunset
      omega

/-- What `executeParams` is given for an index. -/
lemma Holds.parameterAt_eq (h : Holds params slots) (i : ℕ) :
    parameterAt params i = (slots i).join.elim .null .text := by
  rw [← h.lookup, parameterAt]
  cases params.lookup i with
  | none => rfl
  | some field =>
      rw [Option.map_some, text]
      by_cases hnull : field.type = .null
      · simp [hnull]
      · simp [hnull]

end PreparedQuery

/-! ### Parameters in their slots -/

open PreparedQuery ParameterCall in
/-- **Parameters in their slots.**  After any sequence of calls, `executeStatement` and, unless
the SQL is transaction control, `executeInTransaction` call `executeParams`, both with one
parameter for each index up to the largest that is set, each being the text its index was last
set to or `NULL`, if and only if the largest `unsigned int` is not set. -/
theorem parameters_in_slots (sql : Text) (calls : List ParameterCall) :
    (∃ parameters : List LibpqParameter,
      (∃ fuel, executeStatement Prod.mk fuel sql (parametersAfter calls) =
        some (sql, parameters)) ∧
      (∃ fuel, executeInTransaction Prod.mk fuel sql (parametersAfter calls) =
        some (if isTransactionControlSql sql then .error (pgException controlMessage)
          else .ok (sql, parameters))) ∧
      (slotsAfter calls).IsLargest parameters.length ∧
      ∀ i, 1 ≤ i → i ≤ parameters.length →
        parameters[i - 1]? = some ((slotsAfter calls i).join.elim .null .text)) ↔
    slotsAfter calls maxUnsigned = none := by
  have hholds := holds_after calls
  rw [← hholds.maxParameterIndex_lt_iff]
  constructor
  · rintro ⟨parameters, ⟨fuel, hfuel⟩, -⟩
    by_contra hmax
    have hmax : maxParameterIndex (parametersAfter calls) = maxUnsigned := by
      rcases maxParameterIndex_eq_zero_or (parametersAfter calls) with hzero | ⟨pair, hmem, heq⟩
      · rw [hzero] at hmax
        exact absurd hmax (by unfold maxUnsigned; norm_num)
      · have := (hholds.index pair hmem).2
        omega
    rw [executeStatement, hmax, parameterLoop_maxUnsigned (by norm_num)] at hfuel
    exact absurd hfuel (by simp)
  · intro hlt
    have hloop := parameterLoop_executionParameters hlt
    refine ⟨executionParameters (parametersAfter calls),
      ⟨maxParameterIndex (parametersAfter calls) + 1, ?_⟩,
      ⟨maxParameterIndex (parametersAfter calls) + 1, ?_⟩, ?_, fun i hi hle => ?_⟩
    · rw [executeStatement, hloop]
      rfl
    · rw [executeInTransaction, hloop]
      split <;> rfl
    · rw [executionParameters, List.length_map, List.length_range]
      exact hholds.isLargest
    · rw [executionParameters, List.length_map, List.length_range] at hle
      rw [← hholds.parameterAt_eq, executionParameters, List.getElem?_map,
        List.getElem?_range (by omega), Option.map_some]
      show some (parameterAt (parametersAfter calls) (i - 1 + 1)) = _
      rw [Nat.sub_add_cancel hi]

/-- `setNull(4294967295)` -/
def largestCall : ParameterCall := .setNull (.finite false 4294967295)

open PreparedQuery ParameterCall in
/-- With the largest index set the loop does not end. -/
theorem largest_index_diverges :
    ¬ ∀ calls : List ParameterCall, ∃ fuel parameters,
      parameterLoop (parametersAfter calls) (maxParameterIndex (parametersAfter calls)) fuel 1 [] =
        some parameters := by
  intro h
  obtain ⟨fuel, parameters, hloop⟩ := h [largestCall]
  have hmax : maxParameterIndex (parametersAfter [largestCall]) = maxUnsigned := by
    decide +kernel
  rw [hmax, parameterLoop_maxUnsigned (by norm_num)] at hloop
  exact absurd hloop (by simp)

/-- The paths of `Query` for a child of a transaction take the parameters of the loop. -/
theorem PreparedQuery.executeInTransaction_query {params : PreparedParameterMap}
    (h : maxParameterIndex params < maxUnsigned) (replies : ℕ → Reply) (sql : Text) (w : Backend) :
    (PreparedQuery.executeInTransaction (LibpqExecutor.executeParams replies)
      (maxParameterIndex params + 1) sql params).map (fun called =>
        match called with
        | .error error => .error error w
        | .ok action => action w) =
      some ((Query.preparedQuery sql params).executeInTransaction replies w) := by
  rw [PreparedQuery.executeInTransaction, parameterLoop_executionParameters h]
  rcases hcontrol : isTransactionControlSql sql with _ | _
  · rw [Query.executeInTransaction_of_not_control
      (show isTransactionControlSql (Query.preparedQuery sql params).sql = false from hcontrol)]
    rfl
  · rw [Query.executeInTransaction_of_control
      (show isTransactionControlSql (Query.preparedQuery sql params).sql = true from hcontrol)]
    rfl

end GmsvPg
