/-
# A transaction and its children

When a transaction is finished its children should be, with the same outcome.  Only
`Transaction::executeStatement` knows the children: wherever a transaction is finished
without having been executed, they are left as they were.  Where it is executed, the outer
handler decides for each child by the flag of the transaction alone, while `runQuery` decides
for the transaction by the flag and the error, and `abortAllQueries` and `shutdown` may store
the status of the transaction over both.
-/
import GmsvPg.Database.RunQuery

namespace GmsvPg

open Library LibpqExecutor Transaction Backend

namespace IQueryData

/-- The outcomes that an execution can be finished with. -/
def IsSuccess (d : IQueryData) : Prop := d.status = .complete ∧ d.resultStatus = .success

def IsAborted (d : IQueryData) : Prop := d.status = .aborted

def IsError (d : IQueryData) : Prop := d.status = .complete ∧ d.resultStatus = .error

end IQueryData

/-- The child is finished, with the outcome of its transaction. -/
structure SameOutcome (data child : IQueryData) : Prop where
  finished : child.finished = true
  success : child.IsSuccess ↔ data.IsSuccess
  aborted : child.IsAborted ↔ data.IsAborted
  error : (child.IsError ∧ child.errorText ≠ []) ↔ data.IsError

/-- The children agree with their transaction. -/
def Agrees (w : Backend) : Prop :=
  w.data.finished = true → ∀ d ∈ w.children, SameOutcome w.data d

/-- The ways in which an accepted transaction is finished. -/
inductive Finish
  /-- `run` executes it -/
  | run (env : Environment)
  /-- `run` finds that it was aborted, or that the database is shutting down -/
  | refused
  /-- `abortQuery`, `abortQueued` or `abortQueuedAndClose` removes it from the queue -/
  | aborted
  /-- one of the `completeQueuedWithError`, or `completeQueryWithError` -/
  | completedWithError (reason : Text)

/-- `data->setStatus(QUERY_ABORTED); data->setFinished(true)` -/
def abortedData (d : IQueryData) : IQueryData := { d with status := .aborted, finished := true }

/-- An execution that is completed with an error. -/
def completedData (reason : Text) (d : IQueryData) : IQueryData :=
  { d with errorText := reason, resultStatus := .error, status := .complete, finished := true }

/-- The state in which the transaction is finished. -/
def finishTransaction (queries : List Query) (w : Backend) : Finish → Backend
  | .run env => runTransaction env queries w
  | .refused | .aborted => { w with data := abortedData w.data }
  | .completedWithError reason => { w with data := completedData reason w.data }

/-- A handler of `runQuery` takes the error for the cancellation that was requested. -/
def Cancelled (env : Environment) (error : PGException) (w : Backend) : Prop :=
  error.cls ≠ .other ∧ lateFlag env.stores w = true ∧ isUserCancellationError error = true

/-- The condition under which the children agree: there are none; or the transaction is
executed and either succeeds, with nothing stored over its status, or fails, and the flag
that is read for each child says the same as the status that the transaction ends with. -/
def KeepsChildren (queries : List Query) (w : Backend) : Finish → Prop
  | .run env =>
      queries = [] ∨
        (opens env w = true ∧
          match (transactionCourse env queries w).ending.error with
          | none => env.marked = false
          | some error =>
              ∀ i < queries.length,
                (flagRead env.stores w i = true ↔ env.marked = true ∨ Cancelled env error w))
  | _ => queries = []

/-! ### The final data of the transaction -/

/-- What `run` adds to the data: the final status. -/
def finishedData (marked : Bool) (d : IQueryData) : IQueryData :=
  { d with
    status := if marked = true ∨ d.status = .aborted then .aborted else .complete
    finished := true }

section final

variable {env : Environment} {queries : List Query} {session w : Backend} {error : PGException}
  {marked : Bool} {d data : IQueryData}

lemma runTransaction_finished (env : Environment) (queries : List Query) (session : Backend) :
    runTransaction env queries (accepted session queries) =
      { afterQuery env queries (started session queries) with
        data := finishedData env.marked (afterQuery env queries (started session queries)).data } :=
  runTransaction_eq env queries session

lemma finishedData_isAborted :
    (finishedData marked d).IsAborted ↔ marked = true ∨ d.status = .aborted := by
  unfold finishedData IQueryData.IsAborted
  by_cases h : marked = true ∨ d.status = .aborted
  · simp only [h, if_true]
  · simp only [h, if_false, reduceCtorEq]

lemma finishedData_status :
    (finishedData marked d).status = .complete ↔ ¬ (finishedData marked d).IsAborted := by
  rw [finishedData_isAborted]
  unfold finishedData
  by_cases h : marked = true ∨ d.status = .aborted
  · simp only [h, if_true, not_true_eq_false, reduceCtorEq]
  · simp only [h, if_false, not_false_eq_true]

/-- The handlers of `runQuery` store `QUERY_ABORTED` for a cancellation only. -/
lemma handleError_status (hstatus : w.data.status = .running) :
    (handleError env error w).data.status = .aborted ↔
      error.cls ≠ .other ∧ stored env.stores.late w.data.cancellationRequested = true ∧
        isUserCancellationError error = true := by
  rw [handleError_data]
  split
  · exact iff_of_true rfl ‹_›
  · refine iff_of_false ?_ ‹_›
    have hrunning : (queryFailed error (clearRequest (caught env.stores w)).data).status =
        w.data.status := rfl
    rw [hrunning, hstatus]
    exact QueryStatus.noConfusion

lemma handleError_failed (h : (handleError env error w).data.status ≠ .aborted) :
    (handleError env error w).data.resultStatus = .error := by
  rw [handleError_data] at h ⊢
  split
  · rename_i hcancelled
    rw [if_pos hcancelled] at h
    exact absurd rfl h
  · rfl

/-- A transaction that a handler has finished is aborted, or it has failed. -/
lemma finishedData_handleError :
    ¬ (finishedData marked (handleError env error w).data).IsSuccess ∧
      ((finishedData marked (handleError env error w).data).IsError ↔
        ¬ (finishedData marked (handleError env error w).data).IsAborted) := by
  have hresult : (finishedData marked (handleError env error w).data).resultStatus =
      (handleError env error w).data.resultStatus := rfl
  constructor
  · rintro ⟨-, hsuccess⟩
    exact handleError_resultStatus (hresult ▸ hsuccess)
  · constructor
    · rintro ⟨hcomplete, -⟩
      exact finishedData_status.1 hcomplete
    · intro hnot
      refine ⟨finishedData_status.2 hnot, hresult.trans (handleError_failed ?_)⟩
      intro haborted
      exact hnot (finishedData_isAborted.2 (.inr haborted))

end final

/-! ### The children of an executed transaction -/

section children

variable {error : PGException} {cancelled : Bool} {d data : IQueryData} {message : Text}

lemma rolledBackMessage_ne_nil (what : Text) : rolledBackMessage what ≠ [] :=
  List.append_ne_nil_of_left_ne_nil (by decide) what

/-- The handler can tell of the child how it was finished: it is complete if it has an
error. -/
def Intact (d : IQueryData) : Prop :=
  d.resultStatus = .error → d.status = .complete ∧ d.errorText ≠ []

lemma abandonChild_finished : (abandonChild error cancelled d).finished = true := by
  unfold abandonChild
  split
  · rfl
  · split <;> rfl

lemma abandonChild_error (hd : Intact d) :
    (abandonChild error false d).IsError ∧ (abandonChild error false d).errorText ≠ [] := by
  unfold abandonChild
  rw [if_neg Bool.false_ne_true]
  split
  · exact ⟨⟨rfl, rfl⟩, rolledBackMessage_ne_nil _⟩
  · rename_i hresult
    obtain ⟨hcomplete, htext⟩ := hd (not_not.1 hresult)
    exact ⟨⟨hcomplete, not_not.1 hresult⟩, htext⟩

lemma not_isAborted_of_complete (h : d.status = .complete) : ¬ d.IsAborted := by
  unfold IQueryData.IsAborted
  rw [h]
  exact QueryStatus.noConfusion

/-- A child has the outcome of a transaction that was not successful if the handler has
aborted it just when the transaction is aborted. -/
lemma sameOutcome_abandonChild (hd : Intact d) (hsuccess : ¬ data.IsSuccess)
    (herror : data.IsError ↔ ¬ data.IsAborted) :
    SameOutcome data (abandonChild error cancelled d) ↔
      (cancelled = true ↔ data.IsAborted) := by
  cases cancelled with
  | true =>
      have haborted : (abandonChild error true d).IsAborted := rfl
      have hcomplete : (abandonChild error true d).status ≠ .complete := QueryStatus.noConfusion
      constructor
      · intro h
        exact iff_of_true rfl (h.aborted.1 haborted)
      · intro h
        have hdata := h.1 rfl
        exact
          { finished := abandonChild_finished
            success := iff_of_false (fun hs => hcomplete hs.1) hsuccess
            aborted := iff_of_true haborted hdata
            error := iff_of_false (fun he => hcomplete he.1.1) fun he => herror.1 he hdata }
  | false =>
      have hfailed := @abandonChild_error error d hd
      have hnot := not_isAborted_of_complete hfailed.1.1
      constructor
      · intro h
        exact iff_of_false Bool.false_ne_true fun haborted => hnot (h.aborted.2 haborted)
      · intro h
        have hdata : ¬ data.IsAborted := fun haborted => Bool.false_ne_true (h.2 haborted)
        refine
          { finished := abandonChild_finished
            success := iff_of_false ?_ hsuccess
            aborted := iff_of_false hnot hdata
            error := iff_of_true hfailed (herror.2 hdata) }
        intro hs
        have hresult := hs.2
        rw [hfailed.1.2] at hresult
        cases hresult

/-- The text that reports a failed connection is not empty. -/
lemma Ending.failure_ne_nil {ending : Ending} (h : ending.failure = some message) :
    message ≠ [] := by
  unfold failure at h
  split at h
  · split at h
    · cases h
      exact List.append_ne_nil_of_left_ne_nil (by decide) _
    · cases h
  · split at h
    · cases h
      exact List.append_ne_nil_of_left_ne_nil (by decide) _
    · cases h
  · cases h

/-- Before the outer handler a child is fresh, or it has failed with the connection. -/
lemma intact_of_mem_children {ending : Ending} {cs : List IQueryData}
    (hcs : ∀ d ∈ cs, forgetStatus d = {}) (herror : ending.error ≠ none)
    (hd : d ∈ ending.children cs) (flag : Bool) :
    Intact { d with cancellationRequested := flag } := by
  have hfresh (hmem : d ∈ cs) : Intact { d with cancellationRequested := flag } := by
    intro hresult
    have hnone := resultStatus_of_fresh (hcs d hmem)
    rw [show d.resultStatus = .error from hresult] at hnone
    cases hnone
  cases hfailure : ending.failure with
  | some message =>
      rw [Ending.children_of_failure hfailure] at hd
      obtain ⟨d', -, rfl⟩ := List.mem_map.1 hd
      exact fun _ => ⟨rfl, Ending.failure_ne_nil hfailure⟩
  | none =>
      unfold Ending.children at hd
      rw [hfailure] at hd
      cases ending with
      | committed c => exact absurd rfl herror
      | beginRaised error c => exact hfresh hd
      | childRaised error c => exact hfresh hd
      | childEnded c => exact hfresh hd
      | commitRaised error c => exact hfresh hd

end children

/-! ### The ways in which a transaction is finished -/

section finish

variable {env : Environment} {queries : List Query} {session w : Backend} {data : IQueryData}

/-- A child that nothing has finished agrees with no transaction. -/
lemma agrees_untouched (hfinished : w.data.finished = true)
    (hchildren : w.children = (accepted session queries).children) :
    Agrees w ↔ queries = [] := by
  rw [Agrees, hchildren]
  cases queries with
  | nil => exact iff_of_true (fun _ d hd => nomatch hd) rfl
  | cons query queries =>
      refine iff_of_false ?_ (List.cons_ne_nil _ _)
      intro h
      cases (h hfinished {} List.mem_cons_self).finished

/-- A committed transaction agrees with its children unless a late abort is stored over its
status. -/
lemma agrees_succeeded {cs : List IQueryData} (hlength : cs.length = queries.length)
    (hresult : data.resultStatus = .success) (hstatus : data.status ≠ .aborted) (marked : Bool) :
    (∀ d ∈ cs.map succeedChild, SameOutcome (finishedData marked data) d) ↔
      queries = [] ∨ marked = false := by
  have haborted : (finishedData marked data).IsAborted ↔ marked = true := by
    rw [finishedData_isAborted, or_iff_left hstatus]
  constructor
  · intro h
    by_cases hnil : queries = []
    · exact .inl hnil
    · refine .inr (Bool.eq_false_iff.2 ?_)
      intro hmarked
      have hne : cs ≠ [] := by
        rintro rfl
        exact hnil (List.length_eq_zero_iff.1 hlength.symm)
      obtain ⟨d, hd⟩ := List.exists_mem_of_ne_nil cs hne
      have hchild : (succeedChild d).IsAborted :=
        (h _ (List.mem_map_of_mem hd)).aborted.2 (haborted.2 hmarked)
      cases hchild
  · intro h d hd
    obtain ⟨d', hd', rfl⟩ := List.mem_map.1 hd
    have hmarked : marked = false := by
      rcases h with hnil | hmarked
      · rw [hnil, List.length_nil, List.length_eq_zero_iff] at hlength
        rw [hlength] at hd'
        cases hd'
      · exact hmarked
    have hnot : ¬ (finishedData marked data).IsAborted := by
      rw [haborted, hmarked]
      exact Bool.false_ne_true
    have herror : (finishedData marked data).resultStatus ≠ .error := by
      rw [show (finishedData marked data).resultStatus = data.resultStatus from rfl, hresult]
      exact QueryResultStatus.noConfusion
    exact
      { finished := rfl
        success := iff_of_true ⟨rfl, rfl⟩ ⟨finishedData_status.2 hnot, hresult⟩
        aborted := iff_of_false QueryStatus.noConfusion hnot
        error := iff_of_false (fun h => QueryResultStatus.noConfusion h.1.2) fun h => herror h.2 }

/-- What the outer handler and `runQuery` leave agrees if the handler has aborted every child
just when the transaction is aborted. -/
lemma agrees_failed {error : PGException} {cs : List IQueryData} {ending : Ending} {w' : Backend}
    (hcs : ∀ d ∈ cs, forgetStatus d = {}) (hlength : cs.length = queries.length)
    (herror : ending.error = some error) (hchildren : w'.children = ending.children cs)
    (hdata : data = (handleError env error (handleFailure env.stores error w')).data)
    (marked : Bool) :
    (∀ d ∈ (handleFailure env.stores error w').children,
        SameOutcome (finishedData marked data) d) ↔
      ∀ i < queries.length,
        (flagRead env.stores w' i = true ↔ (finishedData marked data).IsAborted) := by
  obtain ⟨hsuccess, hfailed⟩ := hdata ▸ @finishedData_handleError env
    (handleFailure env.stores error w') error marked
  have hcount : w'.children.length = queries.length := by
    have hmap := congrArg List.length (Ending.children_flags ending cs)
    rw [List.length_map, List.length_map] at hmap
    rw [hchildren, hmap, hlength]
  have hsame (d : IQueryData) (hd : d ∈ w'.children) (flag cancelled : Bool) :
      SameOutcome (finishedData marked data)
          (abandonChild error cancelled { d with cancellationRequested := flag }) ↔
        (cancelled = true ↔ (finishedData marked data).IsAborted) := by
    refine sameOutcome_abandonChild ?_ hsuccess hfailed
    refine intact_of_mem_children hcs ?_ (hchildren ▸ hd) flag
    rw [herror]
    exact Option.some_ne_none error
  rw [handleFailure_children]
  constructor
  · intro h i hi
    have hlt : i < w'.children.length := hcount ▸ hi
    exact (hsame _ (List.getElem_mem hlt) _ _).1
      (h _ (List.mem_mapIdx.2 ⟨i, hlt, rfl⟩))
  · intro h d hd
    obtain ⟨i, hi, rfl⟩ := List.mem_mapIdx.1 hd
    exact (hsame _ (List.getElem_mem hi) _ _).2 (h i (hcount ▸ hi))

/-- Up to the outer handler the status of the transaction is left alone. -/
lemma Ending.data_status (ending : Ending) (d : IQueryData) : (ending.data d).status = d.status := by
  unfold data
  split
  · rfl
  · split <;> rfl

lemma handleFailure_status (stores : FlagStores) (error : PGException) (w : Backend) :
    (handleFailure stores error w).data.status = w.data.status := by
  unfold handleFailure
  simp only
  split <;> rfl

/-- What `queryDone` leaves of a transaction that has followed its course. -/
lemma agrees_queryDone {k : Course} {w' : Backend} (hreached : Reached env.replies w w' k)
    (hdata : w.data.status = .running)
    (hchildren : w.children = (started session queries).children) (marked : Bool) :
    (∀ d ∈ (queryDone env k.ending w').children,
        SameOutcome (finishedData marked (queryDone env k.ending w').data) d) ↔
      queries = [] ∨
        match k.ending.error with
        | none => marked = false
        | some error =>
            ∀ i < queries.length,
              (flagRead env.stores w i = true ↔ marked = true ∨ Cancelled env error w) := by
  obtain ⟨cs, hcs, hlength, hcs'⟩ := started_children hreached hchildren
  have hstatus : w'.data.status = .running := by
    rw [hreached.data, Ending.data_status, hdata]
  cases herror : k.ending.error with
  | none =>
      have hcommitted : ∃ c, k.ending = .committed c := by
        cases hending : k.ending with
        | committed c => exact ⟨c, rfl⟩
        | _ =>
            rw [hending] at herror
            cases herror
      obtain ⟨c, hending⟩ := hcommitted
      have hdone : queryDone env k.ending w' = querySucceeded w' := by
        rw [queryDone, herror]
      have hsucceeded : (querySucceeded w').children = cs.map succeedChild := by
        rw [hending] at hcs'
        exact hcs'
      rw [hdone, hsucceeded]
      refine agrees_succeeded hlength rfl ?_ marked
      rw [show (querySucceeded w').data.status = w'.data.status from rfl, hstatus]
      exact QueryStatus.noConfusion
  | some error =>
      have hdone : queryDone env k.ending w' =
          handleError env error (handleFailure env.stores error w') := by
        rw [queryDone, herror]
      have haborted : (finishedData marked
          (handleError env error (handleFailure env.stores error w')).data).IsAborted ↔
            marked = true ∨ Cancelled env error w := by
        rw [finishedData_isAborted, handleError_status
          ((handleFailure_status env.stores error w').trans hstatus), handleFailure_flag,
          hreached.lateFlag_eq]
        rfl
      rw [hdone, handleError_children,
        agrees_failed hcs hlength herror hcs' rfl marked, haborted]
      simp only [hreached.flagRead_eq]
      constructor
      · exact .inr
      · rintro (rfl | h)
        · exact fun i hi => absurd hi (Nat.not_lt_zero i)
        · exact h

end finish

/-- In whatever way an accepted transaction is finished, its children agree with it if and
only if it keeps them. -/
theorem children_agree (queries : List Query) (session : Backend) (way : Finish) :
    Agrees (finishTransaction queries (accepted session queries) way) ↔
      KeepsChildren queries (accepted session queries) way := by
  cases way with
  | refused => exact @agrees_untouched queries session _ rfl rfl
  | aborted => exact @agrees_untouched queries session _ rfl rfl
  | completedWithError reason => exact @agrees_untouched queries session _ rfl rfl
  | run env =>
      rw [finishTransaction, runTransaction_finished]
      cases hopens : opens env (started session queries) with
      | false =>
          obtain ⟨w', hsame, -, hdone⟩ := afterQuery_of_not_opens queries hopens
          have hchildren : (afterQuery env queries (started session queries)).children =
              (accepted session queries).children := by
            rw [hdone, handleError_children, hsame.children]
            rfl
          have hnot : opens env (accepted session queries) = false := hopens
          refine (@agrees_untouched queries session _ ?_ ?_).trans ?_
          · rfl
          · exact hchildren
          · simp only [KeepsChildren, hnot, Bool.false_eq_true, false_and, or_false]
      | true =>
          obtain ⟨w', w'', hsame, hreached, hdone⟩ := afterQuery_of_opens queries hopens
          have hopened : opens env (accepted session queries) = true := hopens
          have hflag (i : ℕ) : flagRead env.stores w' i =
              flagRead env.stores (accepted session queries) i := by
            unfold flagRead collected collectFlags storeFlags
            rw [hsame.data, hsame.children]
            rfl
          have hlate : lateFlag env.stores w' = lateFlag env.stores (accepted session queries) := by
            unfold lateFlag collected collectFlags storeFlags
            rw [hsame.data, hsame.children]
            rfl
          have hagrees := @agrees_queryDone env queries session w' _ w'' hreached
            (congrArg IQueryData.status hsame.data) hsame.children env.marked
          simp only [hflag, Cancelled, hlate] at hagrees
          rw [hdone]
          simp only [KeepsChildren, hopened, true_and, Cancelled]
          constructor
          · intro h
            exact hagrees.1 (h rfl)
          · exact fun h _ => hagrees.2 h

/-! ### Children that are left behind -/

/-- The children of a transaction that is aborted in the queue are never finished. -/
theorem children_left_behind :
    ¬ Agrees (finishTransaction [.query "SELECT 1".toList]
      (accepted {} [.query "SELECT 1".toList]) .aborted) := by
  intro h
  cases (h rfl {} List.mem_cons_self).finished

end GmsvPg
