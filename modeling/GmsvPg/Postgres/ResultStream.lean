/-
# The result stream of a request

`drainResults` with its data sink, over the stream of results that a connection still has to
return.  A result is a handle, the position it has in the stream: the stream records which
handles `PQgetResult` has returned and which were given to `PQclear`.  The two loops count
down a number of turns; one more than there are results is enough for both.
-/
import GmsvPg.Postgres.ResultData

namespace GmsvPg

open LibpqExecutor

/-- A connection with the results of the request that was sent last, and the data the results
are appended to, if there is a sink. -/
structure ResultStream where
  request : Request := .query []
  reply : Reply := {}
  connection : PGconn := {}
  results : List StatementPGresult := []
  /-- how many of the results `PQgetResult` has returned -/
  fetched : ℕ := 0
  /-- `PQgetResult` has returned a null pointer after the last of them -/
  exhausted : Bool := false
  /-- the handles that were given to `PQclear`, in order -/
  cleared : List ℕ := []
  data : Option QueryData := none
deriving DecidableEq, Repr

/-- The exception that an answer raises. -/
def Answer.exception : Answer → Option PGException
  | .done => none
  | .raised error => some error

namespace ResultStream

/-- `PQgetResult` -/
def PQgetResult (s : ResultStream) : Option ℕ × ResultStream :=
  match s.results[s.fetched]? with
  | some result =>
      (some s.fetched, { s with
        fetched := s.fetched + 1
        connection := s.connection.fetch result.toPGresult })
  | none =>
      (none, { s with exhausted := true, connection := s.connection.ready s.request s.reply })

/-- `PQclear` -/
def PQclear (handle : ℕ) (s : ResultStream) : ResultStream :=
  { s with cleared := s.cleared ++ [handle] }

/-- The result behind a handle. -/
def result (s : ResultStream) (handle : ℕ) : StatementPGresult :=
  s.results.getD handle { status := .fatalError }

/-- `PQresultStatus` -/
def PQresultStatus (s : ResultStream) (handle : ℕ) : ExecStatusType := (s.result handle).status

/-- `PQreset`, which discards what the connection has still to return. -/
def PQreset (s : ResultStream) : ResultStream := { s with connection := s.connection.reset s.reply }

/-- `drainUnsupportedCopy` -/
def drainUnsupportedCopy (s : ResultStream) : ResultStream := s.PQreset

/-- The exception of `throwResultError`. -/
def throwResultError (s : ResultStream) (handle : ℕ) : PGException :=
  let message := (s.result handle).errorMessage
  let error := if message ≠ [] then message else s.connection.errorMessage
  let state := (s.result handle).sqlstate
  if s.connection.status = .bad ∨ (2 ≤ state.length ∧ state.take 2 = "08".toList) then
    PGConnectionException error state
  else pgException error state

/-- `while ((result = PQgetResult(connection)) != nullptr) PQclear(result);` -/
def clearRemaining : ℕ → ResultStream → Option ResultStream
  | 0, _ => none
  | fuel + 1, s =>
      match s.PQgetResult with
      | (none, s) => some s
      | (some handle, s) => clearRemaining fuel (s.PQclear handle)

section Drain

variable (PQunescapeBytea : Text → Option Text)

/-- `appendResult`, if there is a sink. -/
def appendResult (handle : ℕ) (s : ResultStream) : ResultStream :=
  { s with data := s.data.map fun data =>
      data.addStatementResult (.ofResult PQunescapeBytea (s.result handle)) }

/-- `drainResults`: the exception it throws, if it does. -/
def drainResults : ℕ → ResultStream → Option (Option PGException × ResultStream)
  | 0, _ => none
  | fuel + 1, s =>
      match s.PQgetResult with
      | (none, s) =>
          if s.connection.status = .bad then
            some (some (PGConnectionException s.connection.errorMessage), s)
          else some (none, s)
      | (some handle, s) =>
          let status := s.PQresultStatus handle
          if isCopyStatus status then
            some (some (PGConnectionException copyMessage), (s.PQclear handle).drainUnsupportedCopy)
          else if !isSuccessStatus status then
            let error := s.throwResultError handle
            -- the handler clears the result, and all that follow, and throws again
            (clearRemaining fuel (s.PQclear handle)).map fun s => (some error, s)
          else drainResults fuel ((s.appendResult PQunescapeBytea handle).PQclear handle)

end Drain

/-! ### Turns of the loops -/

/-- The results that have not been fetched. -/
def pending (s : ResultStream) : List StatementPGresult := s.results.drop s.fetched

/-- `xs` has been fetched and cleared. -/
def skip (s : ResultStream) (xs : List StatementPGresult) : ResultStream :=
  { s with
    fetched := s.fetched + xs.length
    connection := xs.foldl (fun c result => c.fetch result.toPGresult) s.connection
    cleared := s.cleared ++ List.range' s.fetched xs.length }

/-- The null pointer has been returned. -/
def ended (s : ResultStream) : ResultStream :=
  { s with exhausted := true, connection := s.connection.ready s.request s.reply }

/-- A list of results has been appended to the sink. -/
def appended (PQunescapeBytea : Text → Option Text) (s : ResultStream)
    (xs : List StatementPGresult) : ResultStream :=
  { s with data := s.data.map fun data => data.addResults (xs.map (.ofResult PQunescapeBytea)) }

variable {s : ResultStream} {xs : List StatementPGresult} {x : StatementPGresult}

@[simp] lemma skip_nil : s.skip [] = s := by
  simp [skip]

lemma skip_cons : s.skip (x :: xs) = (s.skip [x]).skip xs := by
  simp [skip, List.range'_succ, Nat.add_assoc, Nat.add_comm 1]

lemma getElem?_of_pending (h : s.pending = x :: xs) : s.results[s.fetched]? = some x := by
  have hhead : (s.results.drop s.fetched).head? = some x := by
    rw [show s.results.drop s.fetched = x :: xs from h, List.head?_cons]
  rwa [List.head?_drop] at hhead

lemma PQgetResult_nil (h : s.pending = []) : s.PQgetResult = (none, s.ended) := by
  have hnone : s.results[s.fetched]? = none :=
    List.getElem?_eq_none (List.drop_eq_nil_iff.1 h)
  rw [PQgetResult, hnone]
  rfl

lemma PQgetResult_cons (h : s.pending = x :: xs) :
    s.PQgetResult = (some s.fetched, { s with
      fetched := s.fetched + 1
      connection := s.connection.fetch x.toPGresult }) := by
  rw [PQgetResult, getElem?_of_pending h]

lemma pending_skip {ys : List StatementPGresult} (h : s.pending = xs ++ ys) :
    (s.skip xs).pending = ys := by
  show s.results.drop (s.fetched + xs.length) = ys
  rw [← List.drop_drop, show s.results.drop s.fetched = xs ++ ys from h, List.drop_left]

/-- The inner loop clears everything that is left. -/
lemma clearRemaining_eq (n : ℕ) (h : s.pending = xs) :
    clearRemaining (xs.length + 1 + n) s = some (s.skip xs).ended := by
  induction xs generalizing s with
  | nil =>
      rw [List.length_nil, Nat.zero_add, Nat.add_comm, clearRemaining, PQgetResult_nil h, skip_nil]
  | cons x xs ih =>
      have hskip : (s.skip [x]).pending = xs := pending_skip h
      have hnext := ih hskip
      rw [List.length_cons, show xs.length + 1 + 1 + n = xs.length + 1 + n + 1 by omega,
        clearRemaining, PQgetResult_cons h, skip_cons, ← hnext]
      rfl

variable {PQunescapeBytea : Text → Option Text}

/-- A turn of the outer loop for a success. -/
lemma drainResults_success {fuel : ℕ} (h : s.pending = x :: xs)
    (hx : isSuccessStatus x.status = true) :
    drainResults PQunescapeBytea (fuel + 1) s =
      drainResults PQunescapeBytea fuel ((s.skip [x]).appended PQunescapeBytea [x]) := by
  have hresult : s.results.getD s.fetched { status := .fatalError } = x := by
    rw [List.getD_eq_getElem?_getD, getElem?_of_pending h]
    rfl
  have hcopy : isCopyStatus x.status = false := by
    revert hx
    cases x.status <;> decide
  rw [drainResults, PQgetResult_cons h]
  simp only [PQresultStatus, result, hresult, hcopy, hx, Bool.not_true, Bool.false_eq_true, if_false]
  rw [appendResult, PQclear, result]
  simp only [hresult]
  rfl

/-- A stretch of successes. -/
lemma drainResults_append {ys : List StatementPGresult} (fuel : ℕ) (h : s.pending = xs ++ ys)
    (hxs : ∀ x ∈ xs, isSuccessStatus x.status = true) :
    drainResults PQunescapeBytea (xs.length + fuel) s =
      drainResults PQunescapeBytea fuel ((s.skip xs).appended PQunescapeBytea xs) := by
  induction xs generalizing s with
  | nil => simp [appended]
  | cons x xs ih =>
      have hskip : ((s.skip [x]).appended PQunescapeBytea [x]).pending = xs ++ ys :=
        pending_skip h
      rw [List.length_cons, Nat.add_right_comm,
        drainResults_success h (hxs x List.mem_cons_self),
        ih hskip fun y hy => hxs y (List.mem_cons_of_mem x hy), skip_cons]
      refine congrArg (drainResults PQunescapeBytea fuel) ?_
      unfold appended skip
      simp only [ResultStream.mk.injEq, true_and]
      refine ⟨rfl, ?_, ?_, ?_⟩
      · simp [Nat.add_assoc, Nat.add_comm 1]
      · simp [List.range'_succ]
      · simp [Option.map_map, Function.comp_def, QueryData.addResults]

/-- The end of the stream. -/
lemma drainResults_nil {fuel : ℕ} (h : s.pending = []) :
    drainResults PQunescapeBytea (fuel + 1) s =
      some (if s.ended.connection.status = .bad then
        some (PGConnectionException s.connection.errorMessage) else none, s.ended) := by
  rw [drainResults, PQgetResult_nil h]
  show (if s.ended.connection.status = .bad then _ else _) = _
  split <;> rfl

/-- The exception for a result that is an error, once it has been fetched. -/
def failure (s : ResultStream) (x : StatementPGresult) : PGException :=
  (s.connection.fetch x.toPGresult).resultError x.toPGresult

/-- A result that is an error: all that follow are fetched and cleared as well. -/
lemma drainResults_failure {n : ℕ} (h : s.pending = x :: xs)
    (hx : isSuccessStatus x.status = false) (hcopy : isCopyStatus x.status = false) :
    drainResults PQunescapeBytea (xs.length + 1 + n + 1) s =
      some (some (s.failure x), (s.skip (x :: xs)).ended) := by
  have hresult : s.results.getD s.fetched { status := .fatalError } = x := by
    rw [List.getD_eq_getElem?_getD, getElem?_of_pending h]
    rfl
  have hskip : (s.skip [x]).pending = xs := pending_skip h
  have hrest := clearRemaining_eq n hskip
  rw [drainResults, PQgetResult_cons h]
  simp only [PQresultStatus, result, hresult, hcopy, hx, Bool.not_false, Bool.false_eq_true,
    if_false, if_true]
  rw [throwResultError, result]
  simp only [hresult]
  rw [skip_cons, ← Option.map_some (f := fun t => (some (s.failure x), t)), ← hrest]
  rfl

/-- The stream of a request that has just been sent. -/
def sent (request : Request) (reply : Reply) (c : PGconn) (results : List StatementPGresult)
    (data : Option QueryData) : ResultStream :=
  { request, reply, connection := c, results, data }

/-- Everything has been fetched, and was cleared once each. -/
structure Complete (t : ResultStream) (results : List StatementPGresult) : Prop where
  results : t.results = results
  fetched : t.fetched = t.results.length
  exhausted : t.exhausted = true
  cleared : t.cleared = List.range t.results.length

lemma Complete.appended {t : ResultStream} {results : List StatementPGresult}
    (h : t.Complete results) : (t.appended PQunescapeBytea xs).Complete results where
  results := h.results
  fetched := h.fetched
  exhausted := h.exhausted
  cleared := h.cleared

section Sent

variable {request : Request} {reply : Reply} {c : PGconn} {data : Option QueryData}
  {results : List StatementPGresult} {fuel : ℕ}

lemma complete_ended : ((sent request reply c results data).skip results).ended.Complete results where
  results := rfl
  fetched := Nat.zero_add _
  exhausted := rfl
  cleared := by
    show [] ++ List.range' 0 results.length = List.range results.length
    rw [List.nil_append, List.range_eq_range']

/-- A stream of successes. -/
lemma drainResults_successes (hxs : ∀ x ∈ results, isSuccessStatus x.status = true)
    (hfuel : results.length < fuel) :
    ∃ error, drainResults PQunescapeBytea fuel (sent request reply c results data) =
      some (error, (((sent request reply c results data).skip results).ended).appended
        PQunescapeBytea results) := by
  obtain ⟨n, rfl⟩ := Nat.exists_eq_add_of_lt hfuel
  have hpending : (sent request reply c results data).pending = results ++ [] :=
    (List.append_nil _).symm
  have hskip : (((sent request reply c results data).skip results).appended
      PQunescapeBytea results).pending = [] := pending_skip hpending
  rw [Nat.add_assoc, drainResults_append _ hpending hxs, drainResults_nil hskip]
  exact ⟨_, rfl⟩

/-- A stream with an error after a stretch of successes. -/
lemma drainResults_error {xs ys : List StatementPGresult}
    (hxs : ∀ y ∈ xs, isSuccessStatus y.status = true) (hx : isSuccessStatus x.status = false)
    (hcopy : isCopyStatus x.status = false) (hfuel : (xs ++ x :: ys).length < fuel) :
    drainResults PQunescapeBytea fuel (sent request reply c (xs ++ x :: ys) data) =
      some (some ((sent request reply c (xs ++ x :: ys) data).skip xs |>.failure x),
        (((sent request reply c (xs ++ x :: ys) data).skip (xs ++ x :: ys)).ended).appended
          PQunescapeBytea xs) := by
  obtain ⟨n, rfl⟩ := Nat.exists_eq_add_of_lt hfuel
  have hpending : (sent request reply c (xs ++ x :: ys) data).pending = xs ++ x :: ys := rfl
  have hlength : (xs ++ x :: ys).length + n + 1 = xs.length + (ys.length + 1 + n + 1) := by
    rw [List.length_append, List.length_cons]
    omega
  have hskip : (((sent request reply c (xs ++ x :: ys) data).skip xs).appended
      PQunescapeBytea xs).pending = x :: ys := pending_skip hpending
  rw [hlength, drainResults_append _ hpending hxs, drainResults_failure hskip hx hcopy]
  refine congrArg some (Prod.ext rfl ?_)
  have hrange : List.range' 0 xs.length ++ List.range' (0 + xs.length) (ys.length + 1) =
      List.range' 0 (xs.length + (ys.length + 1)) := List.range'_append_1
  unfold appended ended skip sent
  simp [← hrange, List.foldl_append]

end Sent

/-- The drained stream comes to what the drained results come to for the caller and for the
connection. -/
theorem drainResults_drain {fuel : ℕ} (h : s.pending = xs) (hfuel : xs.length < fuel) :
    ∃ t, drainResults PQunescapeBytea fuel s =
        some ((PGconn.drain s.request s.reply (xs.map (·.toPGresult)) s.connection).1.exception, t) ∧
      t.connection = (PGconn.drain s.request s.reply (xs.map (·.toPGresult)) s.connection).2 := by
  induction xs generalizing s fuel with
  | nil =>
      obtain ⟨n, rfl⟩ := Nat.exists_eq_add_of_lt hfuel
      rw [drainResults_nil h, List.map_nil, PGconn.drain]
      refine ⟨s.ended, ?_, ?_⟩
      · by_cases hbad : (s.connection.ready s.request s.reply).status = .bad
        · rw [if_pos hbad, if_pos (show s.ended.connection.status = .bad from hbad)]
          rfl
        · rw [if_neg hbad, if_neg (show ¬ s.ended.connection.status = .bad from hbad)]
          rfl
      · split <;> rfl
  | cons x xs ih =>
      obtain ⟨n, rfl⟩ := Nat.exists_eq_add_of_lt hfuel
      have hturns : (x :: xs).length + n + 1 = xs.length + 1 + n + 1 := rfl
      have hresult : s.results.getD s.fetched { status := .fatalError } = x := by
        rw [List.getD_eq_getElem?_getD, getElem?_of_pending h]
        rfl
      rw [hturns, List.map_cons, PGconn.drain]
      cases hcopy : isCopyStatus x.status with
      | true =>
          rw [drainResults, PQgetResult_cons h]
          simp only [PQresultStatus, result, hresult, hcopy, if_true]
          exact ⟨_, rfl, rfl⟩
      | false =>
          cases hx : isSuccessStatus x.status with
          | true =>
              have hskip : ((s.skip [x]).appended PQunescapeBytea [x]).pending = xs :=
                pending_skip h
              rw [drainResults_success h hx]
              exact ih hskip (by omega)
          | false =>
              rw [drainResults_failure h hx hcopy]
              refine ⟨_, rfl, ?_⟩
              show (PGconn.ready _ s.request s.reply) = PGconn.discard _ _ _ _
              rw [PGconn.discard, List.foldl_map]
              rfl

/-- What the sink is given: the results up to the first that is no success. -/
def successes (results : List StatementPGresult) : List StatementPGresult :=
  results.takeWhile fun result => isSuccessStatus result.status

lemma successes_cons (hx : isSuccessStatus x.status = true) :
    successes (x :: xs) = x :: successes xs :=
  List.takeWhile_cons_of_pos hx

lemma successes_cons_of_not (hx : isSuccessStatus x.status = false) : successes (x :: xs) = [] :=
  List.takeWhile_cons_of_neg (Bool.eq_false_iff.1 hx)

/-- However the stream ends, the results before its first failure stay in the sink. -/
theorem drainResults_data {fuel : ℕ} (h : s.pending = xs) (hfuel : xs.length < fuel) :
    ∃ error t, drainResults PQunescapeBytea fuel s = some (error, t) ∧
      t.data = s.data.map fun data =>
        data.addResults ((successes xs).map (.ofResult PQunescapeBytea)) := by
  induction xs generalizing s fuel with
  | nil =>
      obtain ⟨n, rfl⟩ := Nat.exists_eq_add_of_lt hfuel
      rw [drainResults_nil h]
      refine ⟨_, s.ended, rfl, ?_⟩
      simp [successes, ended]
  | cons x xs ih =>
      obtain ⟨n, rfl⟩ := Nat.exists_eq_add_of_lt hfuel
      have hturns : (x :: xs).length + n + 1 = xs.length + 1 + n + 1 := rfl
      rw [hturns]
      cases hx : isSuccessStatus x.status with
      | true =>
          have hskip : ((s.skip [x]).appended PQunescapeBytea [x]).pending = xs :=
            pending_skip h
          obtain ⟨error, t, hrun, hdata⟩ := ih hskip (show xs.length < xs.length + 1 + n by omega)
          refine ⟨error, t, (drainResults_success h hx).trans hrun, ?_⟩
          rw [hdata, successes_cons hx]
          simp [appended, skip, Option.map_map, Function.comp_def, QueryData.addResults]
      | false =>
          have hkept : s.data = s.data.map fun data =>
              data.addResults ((successes (x :: xs)).map (.ofResult PQunescapeBytea)) := by
            simp [successes_cons_of_not hx]
          cases hcopy : isCopyStatus x.status with
          | true =>
              have hresult : s.results.getD s.fetched { status := .fatalError } = x := by
                rw [List.getD_eq_getElem?_getD, getElem?_of_pending h]
                rfl
              rw [drainResults, PQgetResult_cons h]
              simp only [PQresultStatus, result, hresult, hcopy, if_true]
              exact ⟨_, _, rfl, hkept⟩
          | false =>
              rw [drainResults_failure h hx hcopy]
              exact ⟨_, _, rfl, hkept⟩

end ResultStream

end GmsvPg
