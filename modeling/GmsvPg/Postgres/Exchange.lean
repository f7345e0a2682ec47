/-
# What an exchange can come to

The five ways in which the exchange of a request for its reply can end, with what each says
about the connection, and what they mean for `BEGIN`, `COMMIT`, `ROLLBACK` and the
statements of a transaction.
-/
import GmsvPg.Postgres.LibpqExecutor

namespace GmsvPg

open LibpqExecutor

lemma isError_of_isSuccessStatus {status : ExecStatusType} (h : isSuccessStatus status = true) :
    status.isError = false := by
  revert h
  cases status <;> decide

/-- A result that neither succeeds nor starts a `COPY` is an error. -/
lemma isError_of_not {status : ExecStatusType} (hcopy : isCopyStatus status = false)
    (hsuccess : isSuccessStatus status = false) : status.isError = true := by
  revert hcopy hsuccess
  cases status <;> decide

/-- The first result that is no success is an error, and libpq has not found the connection
lost by then: an error of the server. -/
def rejectedBy : List PGresult → Bool
  | [] => false
  | result :: rest =>
      !result.lost &&
        (result.status.isError || (isSuccessStatus result.status && rejectedBy rest))

/-- The server answers the request with an error. -/
def Reply.rejects (reply : Reply) : Bool := rejectedBy reply.results

lemma rejectedBy_append {before after : List PGresult}
    (hsuccess : ∀ result ∈ before, isSuccessStatus result.status = true)
    (hlost : ∀ result ∈ before, result.lost = false) :
    rejectedBy (before ++ after) = rejectedBy after := by
  induction before with
  | nil => rfl
  | cons result before ih =>
      have hsuccess' := hsuccess result List.mem_cons_self
      rw [List.cons_append, rejectedBy, hlost result List.mem_cons_self, hsuccess',
        isError_of_isSuccessStatus hsuccess',
        ih (fun r hr => hsuccess r (List.mem_cons_of_mem _ hr))
          (fun r hr => hlost r (List.mem_cons_of_mem _ hr))]
      rfl

/-- The outcome of an exchange: the answer, and the connection afterwards. -/
inductive Exchanged (request : Request) (reply : Reply) (c : PGconn) : Answer × PGconn → Prop
  | refused {after : PGconn} :
      c.refuses request reply = true →
      after.status = c.status → after.transactionStatus = c.transactionStatus →
      Exchanged request reply c (.raised (PGConnectionException reply.errorMessage), after)
  | done {after : PGconn} :
      c.refuses request reply = false → reply.failed = false → after.status = .ok →
      after.transactionStatus = request.statusAfter reply c.transactionStatus →
      Exchanged request reply c (.done, after)
  | lost {message : Text} {after : PGconn} :
      c.refuses request reply = false → after.status = .bad →
      Exchanged request reply c (.raised (PGConnectionException message), after)
  | copy {after : PGconn} :
      c.refuses request reply = false → after.transactionStatus = .idle →
      Exchanged request reply c (.raised (PGConnectionException copyMessage), after)
  | failed {error : PGException} {after : PGconn} :
      c.refuses request reply = false → reply.failed = true →
      after.transactionStatus = request.statusAfter reply c.transactionStatus →
      (error.cls ≠ .connection → reply.rejects = true) →
      Exchanged request reply c (.raised error, after)

namespace PGconn

variable {request : Request} {reply : Reply} {c : PGconn}

lemma foldl_fetch_transactionStatus (results : List PGresult) (c : PGconn) :
    (results.foldl fetch c).transactionStatus = c.transactionStatus := by
  induction results generalizing c with
  | nil => rfl
  | cons result rest ih => exact ih (c.fetch result)

/-- An error of class `PGException` is raised on a live connection only. -/
lemma status_of_resultError {result : PGresult}
    (h : (c.resultError result).cls ≠ .connection) : c.status = .ok := by
  unfold resultError at h
  cases hstatus : c.status with
  | ok => rfl
  | bad =>
      simp only [hstatus, true_or, if_true] at h
      exact absurd rfl h

lemma status_of_fetch {result : PGresult} (h : (c.fetch result).status = .ok) :
    result.lost = false ∧ c.status = .ok := by
  unfold fetch at h
  cases hlost : result.lost with
  | true =>
      rw [hlost] at h
      cases h
  | false =>
      rw [hlost] at h
      exact ⟨rfl, h⟩

/-- Reading the results that are left, when those before them are successes. -/
lemma drain_spec {before results : List PGresult} {now : PGconn}
    (hrefuses : c.refuses request reply = false)
    (hresults : reply.results = before ++ results)
    (hsuccess : ∀ result ∈ before, isSuccessStatus result.status = true)
    (hlost : now.status = .ok → ∀ result ∈ before, result.lost = false)
    (hnow : now.transactionStatus = c.transactionStatus) :
    Exchanged request reply c (drain request reply results now) := by
  induction results generalizing before now with
  | nil =>
      rw [List.append_nil] at hresults
      unfold drain
      cases hstatus : (now.ready request reply).status with
      | bad =>
          rw [if_pos rfl]
          exact .lost hrefuses hstatus
      | ok =>
          rw [if_neg (by decide)]
          refine .done hrefuses ?_ hstatus ?_
          · rw [Reply.failed, hresults, List.any_eq_false]
            intro result hresult
            rw [isError_of_isSuccessStatus (hsuccess result hresult)]
            decide
          · rw [ready, hnow]
  | cons result rest ih =>
      have hfetch : (now.fetch result).transactionStatus = c.transactionStatus := hnow
      unfold drain
      cases hcopy : isCopyStatus result.status with
      | true =>
          rw [if_pos rfl]
          exact .copy hrefuses rfl
      | false =>
          cases hok : isSuccessStatus result.status with
          | true =>
              rw [if_neg (by decide), if_pos rfl]
              refine @ih (before ++ [result]) (now.fetch result) ?_ ?_ ?_ hfetch
              · rw [hresults, List.append_assoc, List.singleton_append]
              · intro r hr
                rcases List.mem_append.1 hr with hr | hr
                · exact hsuccess r hr
                · rw [List.mem_singleton.1 hr, hok]
              · intro hlive r hr
                obtain ⟨hkept, hlive⟩ := status_of_fetch hlive
                rcases List.mem_append.1 hr with hr | hr
                · exact hlost hlive r hr
                · rw [List.mem_singleton.1 hr, hkept]
          | false =>
              rw [if_neg (by decide), if_neg (by decide)]
              have herror := isError_of_not hcopy hok
              refine .failed hrefuses ?_ ?_ ?_
              · rw [Reply.failed, hresults, List.any_eq_true]
                exact ⟨result, by simp, herror⟩
              · rw [discard, ready, foldl_fetch_transactionStatus, hfetch]
              · intro hcls
                obtain ⟨hkept, hlive⟩ := status_of_fetch (status_of_resultError hcls)
                rw [Reply.rejects, hresults, rejectedBy_append hsuccess (hlost hlive), rejectedBy,
                  hkept, herror]
                rfl

end PGconn

/-- What an exchange can come to. -/
theorem Reply.exchange_spec (reply : Reply) (request : Request) (c : PGconn) :
    Exchanged request reply c (reply.exchange request c) := by
  have hmessage : PGconn.refuses { c with errorMessage := reply.errorMessage } request reply =
      c.refuses request reply := rfl
  simp only [Reply.exchange, hmessage]
  cases hrefuses : c.refuses request reply with
  | true => exact .refused hrefuses rfl rfl
  | false =>
      have hnone : ∀ result ∈ ([] : List PGresult), result.lost = false := by simp
      exact PGconn.drain_spec hrefuses (List.nil_append _).symm (by simp) (fun _ => hnone) rfl

namespace Exchanged

variable {request : Request} {reply : Reply} {c after : PGconn} {answer : Answer}
  {error : PGException}

/-- A live connection, idle before a failed `BEGIN`, is idle after it. -/
lemma settled_of_begin (h : Exchanged BEGIN reply c (.raised error, after))
    (hc : c.Settled) : after.Settled := by
  intro hlive
  cases h with
  | refused _ hstatus htransaction =>
      rw [htransaction]
      exact hc (hstatus ▸ hlive)
  | lost _ hbad =>
      rw [hbad] at hlive
      cases hlive
  | copy _ hidle => exact hidle
  | failed hrefuses hfailed htransaction _ =>
      have hok : c.status = .ok := by
        cases hstatus : c.status with
        | ok => rfl
        | bad => simp [PGconn.refuses, hstatus] at hrefuses
      rw [htransaction, Request.statusAfter, if_pos rfl, if_pos hfailed, hc hok]

/-- A successful `BEGIN` opens a transaction. -/
lemma inTrans_of_begin (h : Exchanged BEGIN reply c (.done, after)) :
    after.status = .ok ∧ after.transactionStatus = .inTrans := by
  cases h with
  | done _ hfailed hlive htransaction =>
      refine ⟨hlive, ?_⟩
      rw [htransaction, Request.statusAfter, if_pos rfl, hfailed]
      rfl

/-- A successful `COMMIT` ends the transaction. -/
lemma idle_of_commit (h : Exchanged COMMIT reply c (.done, after)) :
    after.transactionStatus = .idle := by
  cases h with
  | done _ hfailed _ htransaction =>
      rw [htransaction, Request.statusAfter, if_neg (by decide), if_pos rfl, hfailed]
      rfl

/-- After a `ROLLBACK` a live connection is idle. -/
lemma settled_of_rollback (h : Exchanged ROLLBACK reply c (answer, after)) : after.Settled := by
  have hidle (before : PGTransactionStatusType) : ROLLBACK.statusAfter reply before = .idle := by
    rw [Request.statusAfter, if_neg (by decide), if_neg (by decide), if_pos rfl]
  intro hlive
  cases h with
  | refused hrefuses hstatus _ =>
      -- libpq refuses a `ROLLBACK` on a dead connection only
      rw [PGconn.refuses, ← hstatus, hlive] at hrefuses
      simp at hrefuses
  | done _ _ _ htransaction => rw [htransaction, hidle]
  | lost _ hbad =>
      rw [hbad] at hlive
      cases hlive
  | copy _ htransaction => exact htransaction
  | failed _ _ htransaction _ => rw [htransaction, hidle]

/-- A statement that succeeds and does not end the transaction leaves it open. -/
lemma inTrans_of_statement {query : Text} {values : List (Option Text)}
    (h : Exchanged (.queryParams query values) reply c (.done, after))
    (hends : reply.endsTransaction = false) (hc : c.transactionStatus = .inTrans) :
    after.PQtransactionStatus = .inTrans := by
  have hbegin : Request.queryParams query values ≠ BEGIN := Request.noConfusion
  have hcommit : Request.queryParams query values ≠ COMMIT := Request.noConfusion
  have hrollback : Request.queryParams query values ≠ ROLLBACK := Request.noConfusion
  cases h with
  | done _ hfailed hlive htransaction =>
      rw [PGconn.PQtransactionStatus, hlive, htransaction, Request.statusAfter, if_neg hbegin,
        if_neg hcommit, if_neg hrollback, hfailed, hends]
      exact hc

/-- A request that raises a plain `PGException` is rejected by the server. -/
lemma rejects_of_raised (h : Exchanged request reply c (.raised error, after))
    (hcls : error.cls ≠ .connection) : reply.rejects = true := by
  cases h with
  | refused => exact absurd rfl hcls
  | lost => exact absurd rfl hcls
  | copy => exact absurd rfl hcls
  | failed _ _ _ hrejects => exact hrejects hcls

end Exchanged

end GmsvPg
