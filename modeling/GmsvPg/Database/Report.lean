/-
# What a transaction reports

A transaction that succeeds should have been committed with all its children, in order and in
one transaction of the server; and where an error text says that the transaction was rolled
back, the server should have kept nothing.  A child may end the surrounding transaction
itself.  If it leaves the session outside a transaction, the transaction notices and says
that its outcome is unknown, but its children say that they were rolled back; if it leaves
the session inside a new one, or fails, nothing is noticed.
-/
import GmsvPg.Database.RunQuery
import GmsvPg.Postgres.TransactionControl

namespace GmsvPg

open Library LibpqExecutor Transaction Backend

/-- The text says that the transaction was rolled back. -/
def Claims (text : Text) : Prop := "Transaction rolled back".toList <+: text

/-- A child has ended the surrounding transaction. -/
def Ended (log : List (Request × Reply)) : Prop :=
  ∃ sql values reply, (Request.queryParams sql values, reply) ∈ log ∧
    reply.endsTransaction = true

/-- The server has kept nothing: every `COMMIT` it received was answered with an error, and no
child had ended the transaction. -/
structure Discarded (log : List (Request × Reply)) : Prop where
  commit : ∀ reply, (COMMIT, reply) ∈ log → reply.rejects = true
  children : ¬ Ended log

/-- The server has executed the queries in order in one transaction, and has acknowledged its
`COMMIT`. -/
def Committed (queries : List Query) (log : List (Request × Reply)) : Prop :=
  ∃ b rs c, log = (BEGIN, b) :: (queries.map Query.request).zip rs ++ [(COMMIT, c)] ∧
    rs.length = queries.length ∧ b.failed = false ∧ c.failed = false ∧
    ∀ r ∈ rs, r.failed = false ∧ r.endsTransaction = false

/-- The state reports truthfully what has happened on the server. -/
structure Truthful (queries : List Query) (w : Backend) : Prop where
  success : w.data.resultStatus = .success → Committed queries w.sent
  rolledBack : (Claims w.data.errorText ∨ ∃ d ∈ w.children, Claims d.errorText) →
    Discarded w.sent

/-! ### What reaches the server -/

section log

variable {replies : ℕ → Reply} {n : ℕ} {c c' : PGconn} {query : Query} {queries : List Query}
  {error : PGException} {log : List (Request × Reply)}

lemma mem_entry {request : Request} {reply : Reply} {x : Request × Reply}
    (h : x ∈ c.entry request reply) : x = (request, reply) := by
  unfold PGconn.entry at h
  split at h
  · cases h
  · exact List.mem_singleton.1 h

lemma fst_of_mem_entry {request : Request} {reply : Reply} {x : Request × Reply}
    (h : x ∈ c.entry request reply) : x.1 = request := by
  rw [mem_entry h]

lemma commit_ne_begin : COMMIT ≠ BEGIN := by decide

lemma commit_ne_rollback : COMMIT ≠ ROLLBACK := by decide

/-- The requests of the children are their statements. -/
lemma mem_childCourse_log {x : Request × Reply} (h : x ∈ (childCourse replies n c query).log) :
    x.1 = query.request := by
  unfold childCourse at h
  split at h
  · cases h
  · rw [mem_entry h]

lemma mem_childrenCourse_log {x : Request × Reply}
    (h : x ∈ (childrenCourse replies n c queries).log) :
    ∃ sql values, x.1 = .queryParams sql values := by
  induction queries generalizing n c with
  | nil => cases h
  | cons query queries ih =>
      rw [childrenCourse] at h
      split at h
      · rcases List.mem_append.1 h with h | h
        · exact ⟨_, _, mem_childCourse_log h⟩
        · exact ih h
      · exact ⟨_, _, mem_childCourse_log h⟩

/-- What the course of one child can be. -/
lemma childCourse_cases (replies : ℕ → Reply) (n : ℕ) (c : PGconn) (query : Query) :
    (∃ log m error c', childCourse replies n c query = ⟨log, m, .raised error c'⟩) ∨
      (∃ c', childCourse replies n c query = ⟨[(query.request, replies n)], n + 1, .ended c'⟩ ∧
        Exchanged query.request (replies n) c (.done, c') ∧
        c'.PQtransactionStatus ≠ .inTrans) ∨
      (∃ c', childCourse replies n c query = ⟨[(query.request, replies n)], n + 1, .through c'⟩ ∧
        Exchanged query.request (replies n) c (.done, c') ∧
        c'.PQtransactionStatus = .inTrans) := by
  cases hrefusal : query.refusal with
  | some error => exact .inl ⟨_, _, _, _, childCourse_refused hrefusal⟩
  | none =>
      have hspec := (replies n).exchange_spec query.request c
      rcases hexchange : (replies n).exchange query.request c with ⟨answer, c'⟩
      rw [hexchange] at hspec
      cases answer with
      | raised error => exact .inl ⟨_, _, _, _, childCourse_raised hrefusal hexchange⟩
      | done =>
          have hentry : c.entry query.request (replies n) = [(query.request, replies n)] := by
            cases hspec with
            | done hrefuses => rw [PGconn.entry, hrefuses, if_neg Bool.false_ne_true]
          rw [← hentry]
          by_cases hstatus : c'.PQtransactionStatus = .inTrans
          · exact .inr (.inr ⟨c', childCourse_through hrefusal hexchange hstatus, hspec, hstatus⟩)
          · exact .inr (.inl ⟨c', childCourse_ended hrefusal hexchange hstatus, hspec, hstatus⟩)

lemma inTrans_of_PQtransactionStatus (h : c.PQtransactionStatus = .inTrans) :
    c.transactionStatus = .inTrans := by
  unfold PGconn.PQtransactionStatus at h
  split at h
  · exact h
  · cases h

lemma Exchanged.not_failed {request : Request} {reply : Reply}
    (h : Exchanged request reply c (.done, c')) : reply.failed = false := by
  cases h with
  | done _ hfailed => exact hfailed

/-- Children that are through have all been executed, in order and without an error. -/
lemma childrenCourse_log_of_through (h : (childrenCourse replies n c queries).stop = .through c') :
    ∃ rs, (childrenCourse replies n c queries).log = (queries.map Query.request).zip rs ∧
      rs.length = queries.length ∧ ∀ r ∈ rs, r.failed = false := by
  induction queries generalizing n c with
  | nil => exact ⟨[], rfl, rfl, by simp⟩
  | cons query queries ih =>
      rcases childCourse_cases replies n c query with
        ⟨log, m, error, c₁, hfirst⟩ | ⟨c₁, hfirst, hdone, -⟩ | ⟨c₁, hfirst, hdone, -⟩
      · rw [childrenCourse_stops (congrArg (fun k => k.stop.error) hfirst), hfirst] at h
        cases h
      · rw [childrenCourse_stops (congrArg (fun k => k.stop.error) hfirst), hfirst] at h
        cases h
      · have hcourse := childrenCourse_through queries
          (congrArg ChildrenCourse.stop hfirst)
        rw [hfirst] at hcourse
        rw [hcourse] at h ⊢
        obtain ⟨rs, hlog, hlength, hrs⟩ := ih h
        refine ⟨replies n :: rs, ?_, ?_, ?_⟩
        · rw [hlog]
          rfl
        · rw [List.length_cons, List.length_cons, hlength]
        · intro r hr
          rcases List.mem_cons.1 hr with rfl | hr
          · exact hdone.not_failed
          · exact hrs r hr

/-- If a child is found to have ended the transaction, it has. -/
lemma ended_of_childrenCourse (hc : c.transactionStatus = .inTrans)
    (h : (childrenCourse replies n c queries).stop = .ended c') :
    Ended (childrenCourse replies n c queries).log := by
  induction queries generalizing n c with
  | nil => cases h
  | cons query queries ih =>
      rcases childCourse_cases replies n c query with
        ⟨log, m, error, c₁, hfirst⟩ | ⟨c₁, hfirst, hdone, hstatus⟩ | ⟨c₁, hfirst, hdone, hstatus⟩
      · rw [childrenCourse_stops (congrArg (fun k => k.stop.error) hfirst), hfirst] at h
        cases h
      · rw [childrenCourse_stops (congrArg (fun k => k.stop.error) hfirst), hfirst]
        refine ⟨_, _, _, List.mem_singleton_self _, ?_⟩
        by_contra hends
        exact hstatus (hdone.inTrans_of_statement (Bool.eq_false_iff.2 hends) hc)
      · have hcourse := childrenCourse_through queries
          (congrArg ChildrenCourse.stop hfirst)
        rw [hfirst] at hcourse
        rw [hcourse] at h ⊢
        obtain ⟨sql, values, reply, hmem, hends⟩ :=
          ih (inTrans_of_PQtransactionStatus hstatus) h
        exact ⟨sql, values, reply, List.mem_append_right _ hmem, hends⟩

lemma ended_append {log log' : List (Request × Reply)} :
    Ended (log ++ log') ↔ Ended log ∨ Ended log' := by
  simp only [Ended, List.mem_append]
  grind

/-- `BEGIN`, `COMMIT` and `ROLLBACK` end no surrounding transaction. -/
lemma not_ended_entry (sql : Text) (reply : Reply) : ¬ Ended (c.entry (.query sql) reply) := by
  rintro ⟨sql', values, reply', hmem, -⟩
  cases mem_entry hmem

lemma commit_notMem_begunCourse {reply : Reply} :
    (COMMIT, reply) ∉ (begunCourse replies n c c' queries).log := by
  intro hmem
  rcases List.mem_append.1 hmem with hmem | hmem
  · exact absurd (fst_of_mem_entry hmem) commit_ne_begin
  · obtain ⟨sql, values, hrequest⟩ := mem_childrenCourse_log hmem
    cases hrequest

/-- An ending at which the server has not committed: no `COMMIT` has been sent, or it has been
answered with an error. -/
def Ending.NotCommitted : Ending → Prop
  | .commitRaised error _ => error.cls ≠ .connection
  | .committed _ => False
  | _ => True

/-- Every `COMMIT` of such a course has been answered with an error. -/
lemma course_rejects {reply : Reply} (h : (course replies n c queries).ending.NotCommitted)
    (hmem : (COMMIT, reply) ∈ (course replies n c queries).log) : reply.rejects = true := by
  rcases hbegun : (replies n).exchange BEGIN c with ⟨answer, c₁⟩
  cases answer with
  | raised error =>
      rw [course_of_raised queries hbegun] at hmem
      exact absurd (fst_of_mem_entry hmem) commit_ne_begin
  | done =>
      rw [course_of_done queries hbegun] at hmem h
      have hnotMem : (COMMIT, reply) ∉ (begunCourse replies n c c₁ queries).log :=
        commit_notMem_begunCourse
      generalize begunCourse replies n c c₁ queries = k at h hmem hnotMem
      cases hstop : k.stop with
      | raised error c' =>
          rw [closing_of_raised hstop] at hmem
          exact absurd hmem hnotMem
      | ended c' =>
          rw [closing_of_ended hstop] at hmem
          exact absurd hmem hnotMem
      | through c' =>
          rw [closing_of_through hstop] at hmem h
          have hspec := (replies k.requests).exchange_spec COMMIT c'
          rcases hexchange : (replies k.requests).exchange COMMIT c' with ⟨answer, c''⟩
          rw [hexchange] at h hspec
          rcases List.mem_append.1 hmem with hmem | hmem
          · exact absurd hmem hnotMem
          · have hreply : reply = replies k.requests := congrArg Prod.snd (mem_entry hmem)
            rw [hreply]
            cases answer with
            | raised error => exact hspec.rejects_of_raised h
            | done => exact h.elim

lemma ended_sent (k : Course) : Ended (k.sent replies) ↔ Ended k.log := by
  unfold Course.sent
  split
  · rw [ended_append, ROLLBACK]
    simp only [not_ended_entry, or_false]
  · exact Iff.rfl

/-- After such an ending nothing is kept unless a child has ended the transaction. -/
lemma course_discarded_iff (h : (course replies n c queries).ending.NotCommitted) :
    Discarded ((course replies n c queries).sent replies) ↔
      ¬ Ended (course replies n c queries).log := by
  constructor
  · intro hdiscarded hended
    exact hdiscarded.children ((ended_sent _).2 hended)
  · intro hended
    constructor
    · intro reply hmem
      unfold Course.sent at hmem
      split at hmem
      · rcases List.mem_append.1 hmem with hmem | hmem
        · exact course_rejects h hmem
        · exact absurd (fst_of_mem_entry hmem) commit_ne_rollback
      · exact course_rejects h hmem
    · rw [ended_sent]
      exact hended

lemma entry_of_done {request : Request} {reply : Reply}
    (h : Exchanged request reply c (.done, c')) : c.entry request reply = [(request, reply)] := by
  cases h with
  | done hrefuses => rw [PGconn.entry, hrefuses, if_neg Bool.false_ne_true]

/-- The log of a course that is committed. -/
lemma course_log_of_committed (h : (course replies n c queries).ending = .committed c') :
    ∃ b rs k, (course replies n c queries).log =
        (BEGIN, b) :: (queries.map Query.request).zip rs ++ [(COMMIT, k)] ∧
      rs.length = queries.length ∧ b.failed = false ∧ k.failed = false ∧
      ∀ r ∈ rs, r.failed = false := by
  have hbegin := (replies n).exchange_spec BEGIN c
  rcases hbegun : (replies n).exchange BEGIN c with ⟨answer, c₁⟩
  rw [hbegun] at hbegin
  cases answer with
  | raised error =>
      rw [course_of_raised queries hbegun] at h
      cases h
  | done =>
      rw [course_of_done queries hbegun] at h ⊢
      cases hstop : (begunCourse replies n c c₁ queries).stop with
      | raised error c' =>
          rw [closing_of_raised hstop] at h
          cases h
      | ended c' =>
          rw [closing_of_ended hstop] at h
          cases h
      | through c₂ =>
          rw [closing_of_through hstop] at h ⊢
          obtain ⟨rs, hlog, hlength, hrs⟩ := childrenCourse_log_of_through hstop
          have hspec := (replies (begunCourse replies n c c₁ queries).requests).exchange_spec
            COMMIT c₂
          rcases hexchange : (replies (begunCourse replies n c c₁ queries).requests).exchange
            COMMIT c₂ with ⟨answer, c₃⟩
          rw [hexchange] at h hspec
          cases answer with
          | raised error => cases h
          | done =>
              refine ⟨replies n, rs, replies (begunCourse replies n c c₁ queries).requests, ?_,
                hlength, hbegin.not_failed, hspec.not_failed, hrs⟩
              simp only [begunCourse, hlog, entry_of_done hbegin]
              exact congrArg _ (entry_of_done hspec)

/-- Every reply belongs to one of the queries. -/
lemma exists_mem_zip {rs : List Reply} {r : Reply} (hlength : rs.length = queries.length)
    (hr : r ∈ rs) : ∃ query : Query, (query.request, r) ∈ (queries.map Query.request).zip rs := by
  induction queries generalizing rs with
  | nil =>
      rw [List.eq_nil_of_length_eq_zero hlength] at hr
      cases hr
  | cons query queries ih =>
      rcases rs with _ | ⟨r', rs⟩
      · cases hr
      · rcases List.mem_cons.1 hr with rfl | hr
        · exact ⟨query, List.mem_cons_self⟩
        · obtain ⟨query', hmem⟩ := ih (by simpa using hlength) hr
          exact ⟨query', List.mem_cons_of_mem _ hmem⟩

/-- A `COMMIT` that succeeds commits all children in order unless one of them has ended the
transaction. -/
lemma course_committed_iff (h : (course replies n c queries).ending = .committed c') :
    Committed queries ((course replies n c queries).sent replies) ↔
      ¬ Ended (course replies n c queries).log := by
  have hsent : (course replies n c queries).sent replies = (course replies n c queries).log := by
    rw [Course.sent, h]
    rfl
  rw [hsent]
  constructor
  · rintro ⟨b, rs, k, hlog, -, -, -, hrs⟩ ⟨sql, values, reply, hmem, hends⟩
    rw [hlog] at hmem
    rcases List.mem_append.1 hmem with hmem | hmem
    · rcases List.mem_cons.1 hmem with hmem | hmem
      · cases hmem
      · rw [(hrs reply (List.of_mem_zip hmem).2).2] at hends
        cases hends
    · cases List.mem_singleton.1 hmem
  · intro hended
    obtain ⟨b, rs, k, hlog, hlength, hb, hk, hrs⟩ := course_log_of_committed h
    refine ⟨b, rs, k, hlog, hlength, hb, hk, fun r hr => ⟨hrs r hr, ?_⟩⟩
    by_contra hends
    obtain ⟨query, hzip⟩ := exists_mem_zip hlength hr
    refine hended ⟨query.sql, query.parameters.map LibpqParameter.value, r, ?_, by simpa using hends⟩
    rw [hlog]
    exact List.mem_append_left _ (List.mem_cons_of_mem _ hzip)

/-- A course that ends because a child is found to have ended the transaction. -/
lemma course_ended (h : (course replies n c queries).ending = .childEnded c') :
    Ended (course replies n c queries).log := by
  have hbegin := (replies n).exchange_spec BEGIN c
  rcases hbegun : (replies n).exchange BEGIN c with ⟨answer, c₁⟩
  rw [hbegun] at hbegin
  cases answer with
  | raised error =>
      rw [course_of_raised queries hbegun] at h
      cases h
  | done =>
      rw [course_of_done queries hbegun] at h ⊢
      cases hstop : (begunCourse replies n c c₁ queries).stop with
      | raised error c' =>
          rw [closing_of_raised hstop] at h
          cases h
      | ended c' =>
          rw [closing_of_ended hstop]
          exact ended_append.2 (.inr (ended_of_childrenCourse hbegin.inTrans_of_begin.2 hstop))
      | through c' =>
          rw [closing_of_through hstop, commitEnding] at h
          simp only at h
          split at h <;> cases h

end log

/-! ### What the texts say -/

section text

variable {what text : Text}

/-- A text that begins with another prefix does not claim a rollback. -/
lemma not_claims_append {first : Text} (hlength : 13 ≤ first.length)
    (hfirst : first.take 13 ≠ "Transaction rolled back".toList.take 13) :
    ¬ Claims (first ++ what) := by
  rintro ⟨rest, hrest⟩
  have htake := congrArg (List.take 13) hrest
  rw [List.take_append_of_le_length (by decide), List.take_append_of_le_length hlength] at htake
  exact hfirst htake.symm

lemma not_claims_nil : ¬ Claims [] := by
  intro h
  have hlength := h.length_le
  exact absurd hlength (by decide)

lemma claims_rolledBackMessage (what : Text) : Claims (rolledBackMessage what) :=
  ⟨": ".toList ++ what, rfl⟩

lemma not_claims_endedMessage : ¬ Claims endedMessage := by
  rw [← List.append_nil endedMessage]
  exact not_claims_append (by decide) (by decide)

lemma outcomeUnknown_of_part (h : "Transaction outcome unknown".toList <:+: text ∨
    "Transaction commit outcome unknown".toList <:+: text) : outcomeUnknown text = true := by
  rw [outcomeUnknown, Text.contains, Text.contains, Bool.or_eq_true, decide_eq_true_eq,
    decide_eq_true_eq]
  exact h

lemma unknownMessage_eq (what : Text) :
    unknownMessage what = "Transaction outcome unknown".toList ++ (": ".toList ++ what) := by
  have hprefix : "Transaction outcome unknown: ".toList =
      "Transaction outcome unknown".toList ++ ": ".toList := by decide
  exact (congrArg (· ++ what) hprefix).trans (List.append_assoc _ _ _)

lemma commitUnknownMessage_eq (what : Text) :
    commitUnknownMessage what =
      "Transaction commit outcome unknown".toList ++ (": ".toList ++ what) := by
  have hprefix : "Transaction commit outcome unknown: ".toList =
      "Transaction commit outcome unknown".toList ++ ": ".toList := by decide
  exact (congrArg (· ++ what) hprefix).trans (List.append_assoc _ _ _)

lemma outcomeUnknown_endedMessage : outcomeUnknown endedMessage = true := by decide

lemma not_outcomeUnknown_nil : outcomeUnknown [] = false := by decide

end text

lemma unknownMessage_text (what : Text) :
    outcomeUnknown (unknownMessage what) = true ∧ unknownMessage what ≠ [] ∧
      ¬ Claims (unknownMessage what) := by
  rw [unknownMessage_eq]
  refine ⟨outcomeUnknown_of_part (.inl (List.prefix_append _ _).isInfix), ?_, ?_⟩
  · exact List.append_ne_nil_of_left_ne_nil (by decide) _
  · exact not_claims_append (by decide) (by decide)

lemma commitUnknownMessage_text (what : Text) :
    outcomeUnknown (commitUnknownMessage what) = true ∧ commitUnknownMessage what ≠ [] ∧
      ¬ Claims (commitUnknownMessage what) := by
  rw [commitUnknownMessage_eq]
  refine ⟨outcomeUnknown_of_part (.inr (List.prefix_append _ _).isInfix), ?_, ?_⟩
  · exact List.append_ne_nil_of_left_ne_nil (by decide) _
  · exact not_claims_append (by decide) (by decide)

/-- The text that reports a failed connection says that the outcome is unknown. -/
lemma Ending.failure_text {ending : Ending} {message : Text} (h : ending.failure = some message) :
    outcomeUnknown message = true ∧ message ≠ [] ∧ ¬ Claims message := by
  cases ending with
  | childRaised error c =>
      by_cases hcls : error.cls = .connection
      · rw [childRaised_failure hcls, Option.some.injEq] at h
        rw [← h]
        exact unknownMessage_text error.message
      · rw [childRaised_no_failure hcls] at h
        cases h
  | commitRaised error c =>
      by_cases hcls : error.cls = .connection
      · rw [commitRaised_failure hcls, Option.some.injEq] at h
        rw [← h]
        exact commitUnknownMessage_text error.message
      · rw [commitRaised_no_failure hcls] at h
        cases h
  | beginRaised | childEnded | committed => cases h

/-- The text of a child after the outer handler. -/
lemma abandonChild_errorText (error : PGException) (cancelled : Bool) (d : IQueryData) :
    (abandonChild error cancelled d).errorText =
      if cancelled = false ∧ d.resultStatus ≠ .error then rolledBackMessage error.message
      else d.errorText := by
  unfold abandonChild
  cases cancelled with
  | true => rfl
  | false =>
      by_cases hstatus : d.resultStatus = .error
      · simp [hstatus]
      · simp [hstatus]

/-! ### The report -/

/-- The condition under which a transaction reports truthfully: where it is executed, no child
has ended it, or the connection has failed, or it has noticed that a child ended it and every
child counts as cancelled. -/
def ReportsTruth (env : Environment) (queries : List Query) (w : Backend) : Prop :=
  opens env w = true →
    ¬ Ended (transactionCourse env queries w).log ∨
      (transactionCourse env queries w).ending.failure ≠ none ∨
      ((∃ c, (transactionCourse env queries w).ending = .childEnded c) ∧
        ∀ i < queries.length, flagRead env.stores w i = true)

section report

variable {env : Environment} {queries : List Query} {session w w' : Backend} {k : Course}
  {error : PGException} {c : PGconn}

/-- After an error the report is about rollbacks only. -/
lemma truthful_of_error :
    Truthful queries (handleError env error (handleFailure env.stores error w)) ↔
      ((Claims (handleError env error (handleFailure env.stores error w)).data.errorText ∨
          ∃ d ∈ (handleFailure env.stores error w).children, Claims d.errorText) →
        Discarded w.sent) := by
  constructor
  · intro h
    have hrolledBack := h.rolledBack
    rw [handleError_children, handleError_sent, handleFailure_sent] at hrolledBack
    exact hrolledBack
  · intro h
    refine ⟨fun hsuccess => absurd hsuccess handleError_resultStatus, ?_⟩
    rw [handleError_children, handleError_sent, handleFailure_sent]
    exact h

/-- A child that the handler leaves. -/
lemma mem_handleFailure_children {d : IQueryData}
    (h : d ∈ (handleFailure env.stores error w).children) :
    ∃ i, ∃ _ : i < w.children.length, ∃ d' ∈ w.children, ∃ flag,
      d = abandonChild error (flagRead env.stores w i) { d' with cancellationRequested := flag } := by
  rw [handleFailure_children, List.mem_mapIdx] at h
  obtain ⟨i, hi, rfl⟩ := h
  exact ⟨i, hi, _, List.getElem_mem hi, _, rfl⟩

/-- The connection has failed: nothing is claimed. -/
lemma truthful_of_failure {message : Text} (h : k.ending.failure = some message)
    (hreached : Reached env.replies w w' k) :
    Truthful queries (handleError env error (handleFailure env.stores error w')) := by
  obtain ⟨hunknown, hne, hclaims⟩ := Ending.failure_text h
  have hdata : w'.data.errorText = message := by
    rw [hreached.data, Ending.data_of_failure h]
  have htext : (handleFailure env.stores error w').data.errorText = message := by
    rw [handleFailure_errorText, hdata, hunknown, if_pos rfl]
  rw [truthful_of_error]
  rintro (hclaim | ⟨d, hd, hclaim⟩)
  · rw [handleError_errorText (htext ▸ hne), htext] at hclaim
    exact absurd hclaim hclaims
  · obtain ⟨i, hi, d', hd', flag, rfl⟩ := mem_handleFailure_children hd
    obtain ⟨cs, -, hchildren⟩ := hreached.children
    rw [hchildren, Ending.children_of_failure h] at hd'
    obtain ⟨d'', -, rfl⟩ := List.mem_map.1 hd'
    rw [abandonChild_errorText, if_neg (by simp [failChild])] at hclaim
    exact absurd hclaim hclaims

/-- The outer handler has said that the transaction was rolled back: this is true if nothing
was kept. -/
lemma truthful_of_rolledBack (htext : w.data.errorText = []) :
    Truthful queries (handleError env error (handleFailure env.stores error w)) ↔
      Discarded w.sent := by
  have hclaim : Claims (handleError env error (handleFailure env.stores error w)).data.errorText := by
    have hrolledBack : (handleFailure env.stores error w).data.errorText =
        rolledBackMessage error.message := by
      rw [handleFailure_errorText, htext, not_outcomeUnknown_nil, if_neg Bool.false_ne_true]
    have hne : rolledBackMessage error.message ≠ [] :=
      List.append_ne_nil_of_left_ne_nil (by decide) _
    rw [handleError_errorText (hrolledBack ▸ hne), hrolledBack]
    exact claims_rolledBackMessage _
  rw [truthful_of_error]
  exact ⟨fun h => h (.inl hclaim), fun h _ => h⟩

/-- The transaction has noticed that a child ended it: its children claim a rollback unless
they all count as cancelled. -/
lemma truthful_of_ended (htext : w.data.errorText = endedMessage)
    (hfresh : ∀ d ∈ w.children, forgetStatus d = {}) (hended : ¬ Discarded w.sent) :
    Truthful queries (handleError env error (handleFailure env.stores error w)) ↔
      ∀ i < w.children.length, flagRead env.stores w i = true := by
  have hkept : (handleFailure env.stores error w).data.errorText = endedMessage := by
    rw [handleFailure_errorText, htext, outcomeUnknown_endedMessage, if_pos rfl]
  have hne : endedMessage ≠ [] := by decide
  rw [truthful_of_error, handleError_errorText (hkept ▸ hne), hkept]
  constructor
  · intro h i hi
    by_contra hflag
    have hmem : abandonChild error (flagRead env.stores w i)
        { w.children[i] with
          cancellationRequested :=
            stored (env.stores.child i) w.children[i].cancellationRequested } ∈
        (handleFailure env.stores error w).children := by
      rw [handleFailure_children, List.mem_mapIdx]
      exact ⟨i, hi, rfl⟩
    have hstatus := resultStatus_of_fresh (hfresh _ (List.getElem_mem hi))
    refine hended (h (.inr ⟨_, hmem, ?_⟩))
    rw [abandonChild_errorText, if_pos]
    · exact claims_rolledBackMessage _
    · refine ⟨Bool.eq_false_iff.2 hflag, ?_⟩
      simp only [hstatus]
      exact QueryResultStatus.noConfusion
  · intro hflags
    rintro (hclaim | ⟨d, hd, hclaim⟩)
    · exact absurd hclaim not_claims_endedMessage
    · obtain ⟨i, hi, d', hd', flag, rfl⟩ := mem_handleFailure_children hd
      rw [abandonChild_errorText, if_neg (fun h => by simp [hflags i hi] at h)] at hclaim
      simp only [errorText_of_fresh (hfresh d' hd')] at hclaim
      exact absurd hclaim not_claims_nil

/-- After an ending without a `COMMIT`, or with one that was rejected, the report is true if
no child had ended the transaction. -/
lemma truthful_of_notCommitted (hc : k = course env.replies w.requests c queries)
    (hlog : w'.sent = k.sent env.replies) (hnot : k.ending.NotCommitted)
    (herror : k.ending.error = some error) (htext : w'.data.errorText = []) :
    Truthful queries (queryDone env k.ending w') ↔ ¬ Ended k.log := by
  rw [hc] at hnot
  rw [queryDone, herror, hc, ← course_discarded_iff hnot, ← hc, ← hlog]
  exact truthful_of_rolledBack htext

/-- After a `COMMIT` that succeeds. -/
lemma truthful_of_committed {c' : PGconn} (hc : k = course env.replies w.requests c queries)
    (hlog : w'.sent = k.sent env.replies) (hending : k.ending = .committed c')
    (htext : w'.data.errorText = []) (hchildren : ∀ d ∈ w'.children, d.errorText = []) :
    Truthful queries (queryDone env k.ending w') ↔ ¬ Ended k.log := by
  have hdone : queryDone env k.ending w' = querySucceeded w' := by rw [hending]; rfl
  rw [hdone]
  rw [hc] at hending
  rw [hc, ← course_committed_iff hending, ← hc, ← hlog]
  constructor
  · intro h
    exact h.success rfl
  · intro h
    refine ⟨fun _ => h, ?_⟩
    rintro (hclaim | ⟨d, hd, hclaim⟩)
    · exact absurd (htext ▸ hclaim) not_claims_nil
    · exact absurd (hchildren d hd ▸ hclaim) not_claims_nil

/-- A transaction reports truthfully if and only if its ending is one that it reports
truthfully. -/
lemma truthful_queryDone_iff (hc : k = course env.replies w.requests c queries)
    (hreached : Reached env.replies w w' k) (hsent : w.sent = []) (htext : w.data.errorText = [])
    (hw : w.children = (started session queries).children) :
    Truthful queries (queryDone env k.ending w') ↔
      ¬ Ended k.log ∨ k.ending.failure ≠ none ∨
        ((∃ c, k.ending = .childEnded c) ∧
          ∀ i < queries.length, flagRead env.stores w i = true) := by
  obtain ⟨cs, hfresh, hlength, hchildren⟩ := started_children hreached hw
  have hlog : w'.sent = k.sent env.replies := by
    rw [hreached.sent, hsent, List.nil_append]
  have hdata : w'.data = k.ending.data w.data := hreached.data
  cases hending : k.ending with
  | beginRaised error c' =>
      rw [hending] at hdata
      rw [← hending, truthful_of_notCommitted hc hlog (hending ▸ trivial)
        (congrArg Ending.error hending) (hdata ▸ htext), hending]
      simp [Ending.failure]
  | childRaised error c' =>
      by_cases hcls : error.cls = .connection
      · have hfailure : k.ending.failure = some _ :=
          hending ▸ Ending.childRaised_failure (c := c') hcls
        rw [Ending.childRaised_failure hcls, queryDone]
        simp only [ne_eq, reduceCtorEq, not_false_eq_true, true_or, or_true, iff_true]
        exact truthful_of_failure hfailure hreached
      · rw [hending, Ending.childRaised_data hcls] at hdata
        rw [← hending, truthful_of_notCommitted hc hlog (hending ▸ trivial)
          (congrArg Ending.error hending) (hdata ▸ htext), hending,
          Ending.childRaised_no_failure hcls]
        simp
  | childEnded c' =>
      have hended : Ended k.log := by
        rw [hc] at hending ⊢
        exact course_ended hending
      have hkept : ¬ Discarded w'.sent := by
        intro hdiscarded
        rw [hlog] at hdiscarded
        exact hdiscarded.children ((ended_sent k).2 hended)
      rw [hending] at hdata hchildren
      have hcs : w'.children = cs := hchildren
      have htext' : w'.data.errorText = endedMessage := by rw [hdata]; rfl
      have hiff : Truthful queries
          (handleError env endedError (handleFailure env.stores endedError w')) ↔ _ :=
        truthful_of_ended htext' (hcs ▸ hfresh) hkept
      simp only [hreached.flagRead_eq, hcs, hlength] at hiff
      simp only [hended, not_true_eq_false, Ending.failure, ne_eq, false_or,
        Ending.childEnded.injEq, exists_eq', true_and]
      exact hiff
  | commitRaised error c' =>
      by_cases hcls : error.cls = .connection
      · have hfailure : k.ending.failure = some _ :=
          hending ▸ Ending.commitRaised_failure (c := c') hcls
        rw [Ending.commitRaised_failure hcls, queryDone]
        simp only [ne_eq, reduceCtorEq, not_false_eq_true, true_or, or_true, iff_true]
        exact truthful_of_failure hfailure hreached
      · rw [hending, Ending.commitRaised_data hcls] at hdata
        rw [← hending, truthful_of_notCommitted hc hlog (hending ▸ hcls)
          (congrArg Ending.error hending) (hdata ▸ htext), hending,
          Ending.commitRaised_no_failure hcls]
        simp
  | committed c' =>
      rw [hending] at hdata hchildren
      have htexts : ∀ d ∈ w'.children, d.errorText = [] := by
        intro d hd
        rw [hchildren] at hd
        obtain ⟨d', hd', rfl⟩ := List.mem_map.1 hd
        have htext' : d'.errorText = [] := errorText_of_fresh (hfresh d' hd')
        exact htext'
      rw [← hending, truthful_of_committed hc hlog hending (by rw [hdata]; exact htext) htexts,
        hending]
      simp [Ending.failure]

end report

/-- The report does not depend on the status. -/
lemma truthful_congr {queries : List Query} {w w' : Backend}
    (hstatus : w'.data.resultStatus = w.data.resultStatus)
    (htext : w'.data.errorText = w.data.errorText) (hchildren : w'.children = w.children)
    (hsent : w'.sent = w.sent) : Truthful queries w' ↔ Truthful queries w := by
  constructor
  · intro h
    exact ⟨hstatus ▸ hsent ▸ h.success, htext ▸ hchildren ▸ hsent ▸ h.rolledBack⟩
  · intro h
    refine ⟨?_, ?_⟩
    · rw [hstatus, hsent]
      exact h.success
    · rw [htext, hchildren, hsent]
      exact h.rolledBack

/-- A transaction of which nothing was sent reports truthfully. -/
lemma truthful_of_not_sent {env : Environment} {queries : List Query} {error : PGException}
    {w : Backend} (hsent : w.sent = []) : Truthful queries (handleError env error w) := by
  refine ⟨fun hsuccess => absurd hsuccess handleError_resultStatus, fun _ => ?_⟩
  rw [handleError_sent, hsent]
  refine ⟨by simp, ?_⟩
  rintro ⟨sql, values, reply, hmem, -⟩
  cases hmem

/-- A started transaction, after `runQuery`. -/
lemma truthful_afterQuery_iff (env : Environment) (queries : List Query) (session : Backend) :
    Truthful queries (afterQuery env queries (started session queries)) ↔
      ReportsTruth env queries (started session queries) := by
  unfold ReportsTruth
  cases hopens : opens env (started session queries) with
  | false =>
      obtain ⟨w', hsame, -, hdone⟩ := afterQuery_of_not_opens queries hopens
      rw [hdone]
      exact ⟨fun _ habsurd => absurd habsurd Bool.false_ne_true,
        fun _ => truthful_of_not_sent hsame.sent⟩
  | true =>
      obtain ⟨w', w'', hsame, hreached, hdone⟩ := afterQuery_of_opens queries hopens
      have hcourse : transactionCourse env queries (started session queries) =
          course env.replies w'.requests (started session queries).entryConnection queries := by
        rw [hsame.requests]
        rfl
      have hflags (i : ℕ) : flagRead env.stores w' i =
          flagRead env.stores (started session queries) i := by
        unfold flagRead collected collectFlags storeFlags
        rw [hsame.data, hsame.children]
      rw [hdone, truthful_queryDone_iff hcourse hreached hsame.sent
        (congrArg IQueryData.errorText hsame.data) hsame.children]
      simp only [hflags, forall_const]

/-- What `run` adds to `runQuery` is not part of the report. -/
lemma truthful_runTransaction_iff (env : Environment) (queries : List Query) (session : Backend) :
    Truthful queries (runTransaction env queries (accepted session queries)) ↔
      Truthful queries (afterQuery env queries (started session queries)) := by
  rw [runTransaction_eq]
  exact truthful_congr rfl rfl rfl rfl

/-- Every accepted transaction reports truthfully, when `run` has run it, if and only if its
ending is one that it reports truthfully. -/
theorem truthful_report (env : Environment) (queries : List Query) (session : Backend) :
    Truthful queries (runTransaction env queries (accepted session queries)) ↔
      ReportsTruth env queries (accepted session queries) :=
  (truthful_runTransaction_iff env queries session).trans
    (truthful_afterQuery_iff env queries session)

/-! ### A transaction that a child has prepared -/

/-- The only child ends the surrounding transaction and leaves the session idle. -/
def prepared : Environment where
  replies
    | 1 => { results := [{ status := .commandOk }], endsTransaction := true,
             transactionStatus := .idle }
    | _ => { results := [{ status := .commandOk }] }

def prepareTransaction : Query := .query "PREPARE TRANSACTION 'x'".toList

lemma prepareTransaction_not_refused : prepareTransaction.refusal = none := by
  have hcontrol : isTransactionControlSql "PREPARE TRANSACTION 'x'".toList = false := by
    rw [isTransactionControlSql, leadingSqlKeyword,
      show skipLeading "PREPARE TRANSACTION 'x'".toList = _ from skipLeading_letter (by decide) _]
    decide
  rw [Query.refusal, show prepareTransaction.sql = "PREPARE TRANSACTION 'x'".toList from rfl,
    hcontrol]
  decide

lemma prepared_course :
    transactionCourse prepared [prepareTransaction] (started { connectionHandle := some {} }
        [prepareTransaction]) =
      ⟨[(BEGIN, prepared.replies 0), (prepareTransaction.request, prepared.replies 1)], 2,
        .childEnded {}⟩ := by
  have hbegun : (prepared.replies 0).exchange BEGIN {} =
      (.done, { transactionStatus := .inTrans }) := by decide
  have hchild : (prepared.replies 1).exchange prepareTransaction.request
      { transactionStatus := .inTrans } = (.done, {}) := by decide
  have hfirst : childCourse prepared.replies 1 { transactionStatus := .inTrans }
      prepareTransaction = ⟨[(prepareTransaction.request, prepared.replies 1)], 2, .ended {}⟩ :=
    childCourse_ended prepareTransaction_not_refused hchild (by decide)
  have hbegunCourse : begunCourse prepared.replies 0 {} { transactionStatus := .inTrans }
      [prepareTransaction] =
        ⟨[(BEGIN, prepared.replies 0), (prepareTransaction.request, prepared.replies 1)], 2,
          .ended {}⟩ := by
    rw [begunCourse, childrenCourse_stops (congrArg (fun k => k.stop.error) hfirst), hfirst]
    rfl
  have hcourse : transactionCourse prepared [prepareTransaction]
      (started { connectionHandle := some {} } [prepareTransaction]) =
        course prepared.replies 0 {} [prepareTransaction] := rfl
  rw [hcourse, course_of_done _ hbegun, hbegunCourse, closing_of_ended rfl]

/-- The child of a transaction that was prepared says that it was rolled back. -/
theorem rolledBack_claimed :
    ¬ Truthful [prepareTransaction] (runTransaction prepared [prepareTransaction]
      (accepted { connectionHandle := some {} } [prepareTransaction])) := by
  rw [truthful_runTransaction_iff, truthful_afterQuery_iff, ReportsTruth, prepared_course]
  intro h
  rcases h rfl with hended | hfailure | ⟨-, hcancelled⟩
  · exact hended ⟨_, _, prepared.replies 1, List.mem_cons_of_mem _ (List.mem_singleton.2 rfl), rfl⟩
  · exact hfailure rfl
  · exact absurd (hcancelled 0 Nat.zero_lt_one) (by decide)

end GmsvPg
