/-
# Errors without a reason

`onError` is given the text that is stored in the data.  `runQuery` takes it from the exception,
unless a transaction has stored one, and for a session that is not open and is not opened the
exception carries the text that the session has for its last attempt.  After a successful attempt
that text is empty: a connection that was lost since then leaves the execution without a reason,
if it may not reconnect.  `connectRun` has a text of its own for that.
-/
import GmsvPg.Database.Finished
import GmsvPg.Lua.FailedWork
import GmsvPg.Postgres.ErrorText

namespace GmsvPg

open Library LibpqExecutor Raise Transaction Backend

/-- libpq gives a message for each call that fails and for each result that is an error. -/
structure Environment.Explained (env : Environment) : Prop where
  reply : ∀ n, (env.replies n).Explained
  connect : ∀ n message, env.connects n = .failed message → message ≠ []

/-- There is a session, or `runQuery` may open one, or the last attempt has left a text. -/
def Backend.HasReason (env : Environment) (w : Backend) : Prop :=
  w.isOpen = true ∨ (env.shouldAutoReconnect .entry = true ∧ env.shuttingDown .entry = false) ∨
    w.connectionError ≠ []

instance (env : Environment) (w : Backend) : Decidable (w.HasReason env) :=
  inferInstanceAs (Decidable (_ ∨ _))

/-! ### One execution -/

section execution

variable {env : Environment} {w : Backend}

/-- The exceptions of `executeStatement` have a text. -/
lemma explains_execution (henv : env.Explained) (e : Execution) :
    Triple Live (e.executeStatement env) (fun _ => Live) Explains := by
  cases e with
  | query sql multiStatementsEnabled =>
      cases multiStatementsEnabled with
      | true => exact speaks_executeCommand henv.reply sql
      | false => exact speaks_executeParams henv.reply sql []
  | preparedQuery sql parameters => exact speaks_executeParams henv.reply sql _
  | transaction queries =>
      exact (explains_executeStatement henv.reply env.stores queries).mono (fun _ h => h)
        (fun _ _ h => h) fun _ _ h => h.1

lemma hasReason_of_opens (h : opens env w = true) : w.HasReason env := by
  rw [opens, Bool.or_eq_true, Bool.and_eq_true, Bool.and_eq_true, Bool.not_eq_true'] at h
  exact h.imp_right fun h => .inl h.1

/-- The text of a session that could not be opened. -/
lemma closedSession_hasReason (henv : env.Explained) (h : opens env w = false) :
    (closedSession env w).connectionError ≠ [] ↔ w.HasReason env := by
  rw [opens, Bool.or_eq_false_iff] at h
  obtain ⟨hopen, h⟩ := h
  unfold closedSession HasReason
  cases hauto : env.shouldAutoReconnect .entry with
  | false => simp [hopen]
  | true =>
      cases hdown : env.shuttingDown .entry with
      | true =>
          rw [if_pos rfl, attemptReconnect_of_shuttingDown hdown]
          simp [hopen]
      | false =>
          -- the attempt has failed with a text
          refine iff_of_true ?_ (.inr (.inl ⟨rfl, rfl⟩))
          rw [if_pos rfl, attemptReconnect, hdown, if_neg Bool.false_ne_true, Backend.connect]
          cases hresult : env.connects w.attempts with
          | null => exact List.cons_ne_nil _ _
          | failed message => exact henv.connect _ _ hresult
          | connected =>
              rw [hauto, hdown, hresult] at h
              exact absurd h (by simp)

lemma isUserCancellationError_nil : isUserCancellationError (PGConnectionException []) = false := by
  decide

/-- The text of an execution for which a handler has run. -/
lemma handleError_reason {error : PGException} (hfresh : w.data.errorText = []) :
    ((handleError env error w).data.resultStatus = .error →
        (handleError env error w).data.errorText ≠ []) ↔
      error.message ≠ [] ∨ (handleError env error w).data.resultStatus ≠ .error := by
  rw [handleError_data]
  split
  · exact iff_of_true (fun h => nomatch h) (.inr QueryResultStatus.noConfusion)
  · have htext : (queryFailed error (clearRequest (caught env.stores w)).data).errorText =
        error.message := if_pos hfresh
    rw [htext]
    exact ⟨fun h => .inl (h rfl), fun h _ => h.resolve_right fun h => h rfl⟩

/-- An execution that fails has a text, if and only if there is a reason to give. -/
theorem runExecution_hasReason (henv : env.Explained) (e : Execution)
    (hfresh : w.data.errorText = []) :
    ((runExecution env e w).data.resultStatus = .error →
        (runExecution env e w).data.errorText ≠ []) ↔ w.HasReason env := by
  cases hopens : opens env w with
  | true =>
      refine iff_of_true (fun hstatus => ?_) (hasReason_of_opens hopens)
      obtain ⟨w', hopened, -, hc⟩ := openSession_of_opens hopens
      have hlive : Live w' := ⟨_, hc, entryConnection_status w⟩
      have hbody : runExecutionBody env e w =
          (e.executeStatement env >>= fun _ => modify querySucceeded) w' := bind_ok hopened
      unfold runExecution at hstatus ⊢
      rw [hbody] at hstatus ⊢
      cases hrun : e.executeStatement env w' with
      | ok a w'' =>
          rw [bind_ok hrun] at hstatus
          exact absurd hstatus QueryResultStatus.noConfusion
      | error error w'' =>
          rw [bind_error hrun] at hstatus ⊢
          have hmessage : error.message ≠ [] := (explains_execution henv e).error hlive hrun
          simp only [handleError_data] at hstatus ⊢
          split at hstatus
          · exact absurd hstatus QueryResultStatus.noConfusion
          · rename_i hcancelled
            rw [if_neg hcancelled]
            show (if _ then _ else _) ≠ []
            split
            · exact hmessage
            · assumption
  | false =>
      obtain ⟨hraised, hdata⟩ := openSession_closedSession hopens
      have hbody : runExecutionBody env e w =
          .error (PGConnectionException (closedSession env w).connectionError)
            (closedSession env w) := bind_error hraised
      rw [runExecution, hbody, handleError_reason (by rw [hdata, hfresh]),
        ← closedSession_hasReason henv hopens]
      refine ⟨fun h => h.elim id fun hstatus hnil => hstatus ?_, .inl⟩
      -- an empty text is not taken for a cancellation
      rw [handleError_data, hnil, isUserCancellationError_nil, if_neg (by simp)]
      rfl

/-- `runQuery` is the same for a transaction. -/
lemma afterQuery_eq (queries : List Query) :
    afterQuery env queries w = runExecution env (.transaction queries) w := by
  unfold afterQuery runExecution runQuery
  cases hbody : runQueryBody env queries w with
  | ok a w' =>
      rw [tryCatch_ok hbody, show runExecutionBody env (.transaction queries) w = _ from hbody]
  | error error w' =>
      rw [tryCatch_error hbody, show runExecutionBody env (.transaction queries) w = _ from hbody]
      rfl

/-- The same for the data that is finished. -/
lemma outcome_hasReason (henv : env.Explained) (e : Execution) (session : Backend) :
    ((e.outcome env session).resultStatus = .error → (e.outcome env session).errorText ≠ []) ↔
      session.HasReason env := by
  cases e with
  | transaction queries =>
      have hdata : (Execution.outcome env session (.transaction queries)) =
          finishedData env.marked
            (runExecution env (.transaction queries) (started session queries)).data := by
        rw [Execution.outcome, runTransaction_finished, afterQuery_eq]
      rw [hdata]
      exact runExecution_hasReason henv (.transaction queries) (w := started session queries) rfl
  | query sql multiStatementsEnabled =>
      exact runExecution_hasReason henv (.query sql multiStatementsEnabled)
        (w := started session []) rfl
  | preparedQuery sql parameters =>
      exact runExecution_hasReason henv (.preparedQuery sql parameters)
        (w := started session []) rfl

end execution

end GmsvPg

namespace GmsvPg.Database

open Library

/-- What `executeStatement` throws on a live session when libpq gives its messages, or an
exception of the standard library. -/
def Thrown (error : PGException) : Prop :=
  (error.cls = .other ∧ error.message ≠ []) ∨
    ∃ env e w w', Environment.Explained env ∧ Live w ∧
      GmsvPg.Execution.executeStatement env e w = .error error w'

/-- libpq gives a message for each call that fails and for each result that is an error. -/
def LibpqExplains : Action → Prop
  | .worker (.connected (some text)) | .main (.connected (some text)) => text ≠ []
  | .worker (.left (some error)) => Thrown error
  | _ => True

/-- `runQuery` gives up on a session that is not open without an attempt to open it. -/
def WorkerPC.givesUp (s : Shared) : WorkerPC → Bool
  | .running _ .testAutoReconnect => !s.shouldAutoReconnect
  | .running _ (.reconnectFirst .testShuttingDown) => s.shuttingDown
  | _ => false

/-- Where `runQuery` gives up, the last attempt has left a text. -/
def GivesReason (s : State) : Action → Prop
  | .worker _ => s.workerPC.givesUp s.toShared = true → s.session.connectionError ≠ []
  | _ => True

instance (s : State) (a : Action) : Decidable (GivesReason s a) :=
  match a with
  | .worker _ => inferInstanceAs (Decidable (_ → _))
  | .main _ | .call _ | .connectionLost => .isTrue trivial

lemma Thrown.message {error : PGException} (h : Thrown error) : error.message ≠ [] := by
  rcases h with ⟨-, h⟩ | ⟨env, e, w, w', henv, hlive, hrun⟩
  · exact h
  · exact (explains_execution henv e).error hlive hrun

/-! ### What the threads have to say -/

/-- The exception that `runQuery` handles. -/
def RunStage.error : RunStage → Option PGException
  | .leaveGuard (some error) | .testCancellation error | .clearCancellationThrown error
  | .testRetry error | .reconnectAgain error _ | .storeError error | .testErrorText error
  | .setErrorText error => some error
  | _ => none

/-- The attempt at the beginning of `runQuery` has failed. -/
def RunStage.attemptFailed : RunStage → Bool
  | .reconnectFirst (.storeStatus false) | .reconnectFirst (.logEvent false) => true
  | _ => false

/-- What the worker thread has at hand to explain a failure with, `text` being that of the
session. -/
def WorkerPC.Explains (text : Text) : WorkerPC → Prop
  | .running _ r =>
      (∀ error, r.error = some error → error.message ≠ []) ∧ (r.attemptFailed = true → text ≠ [])
  | .connecting (.drain _ _ _ reason) => reason ≠ []
  | _ => True

/-- The execution that has `QUERY_ERROR` and does not have its text yet. -/
def WorkerPC.owes : WorkerPC → List Execution
  | .running e (.testErrorText _) | .running e (.setErrorText _) => [e]
  | _ => []

/-- The execution that has its text from `connectRun` and does not have `QUERY_ERROR` yet. -/
def WorkerPC.told : WorkerPC → List Execution
  | .connecting (.drain _ .setError _ _) => []
  | .connecting (.drain e _ _ _) => [e]
  | _ => []

/-- The execution that has its text from `waitForQuery`. -/
def MainPC.told : MainPC → List Execution
  | .waiting _ (.complete .setError) => []
  | .waiting e (.complete _) | .waiting e .forceResultStatus | .waiting e .forceStatus
  | .waiting e .forceFinished | .waiting e .forcePut => [e]
  | _ => []

namespace Shared

variable {s : Shared} {a : Access}

lemma errorText_apply (h : ∀ text, a ≠ .setError e text) :
    ((s.apply a).own e).errorText = (s.own e).errorText := by
  cases a with
  | connectSession error => cases error <;> rfl
  | setError e' text =>
      have hne : e' ≠ e := by
        rintro rfl
        exact h text rfl
      simp [apply, hne]
  | setStatus | setResultStatus | setFinished | setCancellationRequested | markAborted
  | setCancelled =>
      simp only [apply, own_modifyData, own_record]
      split <;> rfl
  | _ => rfl

lemma errorText_setError (e : Execution) (text : Text) :
    ((s.apply (.setError e text)).own e).errorText = text := by
  simp [apply]

/-- A text is not taken back. -/
lemma errorText_apply_ne_nil (ha : ∀ text, a = .setError e text → text ≠ [])
    (h : (s.own e).errorText ≠ []) : ((s.apply a).own e).errorText ≠ [] := by
  by_cases hset : ∃ text, a = .setError e text
  · obtain ⟨text, rfl⟩ := hset
    rw [errorText_setError]
    exact ha text rfl
  · rw [errorText_apply fun text htext => hset ⟨text, htext⟩]
    exact h

lemma resultStatus_of_apply (h : ((s.apply a).own e).resultStatus = .error) :
    (s.own e).resultStatus = .error ∨ a = .setResultStatus e .error := by
  cases a with
  | connectSession error => cases error <;> exact .inl h
  | setResultStatus e' v =>
      simp only [apply, own_modifyData, DataId.own.injEq] at h
      split at h
      · rename_i heq
        obtain rfl := heq
        exact .inr (congrArg _ h)
      · exact .inl h
  | setStatus | setError | setFinished | setCancellationRequested | markAborted
  | setCancelled =>
      simp only [apply, own_modifyData, own_record] at h
      split at h <;> exact .inl h
  | _ => exact .inl h

lemma forced_of_apply (h : e ∈ (s.apply a).history.forced) :
    e ∈ s.history.forced ∨ a = .forceFinish e := by
  cases a with
  | connectSession error => cases error <;> exact .inl h
  | forceFinish e' =>
      rcases List.mem_append.1 h with h | h
      · exact .inl h
      · exact .inr (congrArg _ (List.mem_singleton.1 h).symm)
  | _ => exact .inl h

end Shared

/-! ### What one step says -/

section steps

variable {s : Shared} {c : Choice} {a : Access} {e : Execution}

/-- What `attemptReconnect` leaves in the session when it fails. -/
lemma ReconnectStage.next_explains {r : ReconnectStage} {z : ReconnectStage ⊕ Bool}
    (h : r.next s c = some (a, z)) (hc : LibpqExplains (.worker c))
    (hr : (RunStage.reconnectFirst r).attemptFailed = true → s.session.connectionError ≠ []) :
    match z with
    | .inl r' => (RunStage.reconnectFirst r').attemptFailed = true →
        (s.apply a).session.connectionError ≠ []
    | .inr true => True
    | .inr false => r = .testShuttingDown ∧ s.shuttingDown = true ∨ s.session.connectionError ≠ [] := by
  cases r with
  | testShuttingDown =>
      simp only [ReconnectStage.next] at h
      split at h
      · obtain ⟨rfl, rfl⟩ := by simpa using h
        exact .inl ⟨rfl, ‹_›⟩
      · obtain ⟨rfl, rfl⟩ := by simpa using h
        exact fun hfailed => absurd hfailed Bool.false_ne_true
  | clearActive | storeNotConnected | resetSession =>
      obtain ⟨rfl, rfl⟩ := by simpa [ReconnectStage.next] using h
      exact fun hfailed => absurd hfailed Bool.false_ne_true
  | attemptConnection =>
      cases c with
      | connected error =>
          obtain ⟨rfl, rfl⟩ := by simpa [ReconnectStage.next] using h
          cases error with
          | none => exact fun hfailed => absurd hfailed Bool.false_ne_true
          | some text => exact fun _ => hc
      | _ => exact absurd h (by simp [ReconnectStage.next])
  | storeStatus success | logEvent success =>
      obtain ⟨rfl, rfl⟩ := by simpa [ReconnectStage.next] using h
      cases success with
      | true => first | exact fun hfailed => absurd hfailed Bool.false_ne_true | trivial
      | false => first | exact fun _ => hr rfl | exact .inr (hr rfl)

lemma WorkerPC.explains_running {text : Text} {r : RunStage} (herror : r.error = none)
    (hattempt : r.attemptFailed = false) : (WorkerPC.running e r).Explains text :=
  ⟨fun error h => absurd (herror.symm.trans h) (by simp),
    fun h => absurd (hattempt.symm.trans h) (by simp)⟩

lemma WorkerPC.explains_error {text : Text} {r : RunStage} {error : PGException}
    (herror : r.error = some error) (hattempt : r.attemptFailed = false)
    (hmessage : error.message ≠ []) : (WorkerPC.running e r).Explains text := by
  refine ⟨fun error' h => ?_, fun h => absurd (hattempt.symm.trans h) (by simp)⟩
  obtain rfl := Option.some.inj (herror.symm.trans h)
  exact hmessage

/-- In its turn an execution is explained from one point to the next. -/
lemma RunStage.next_explains {r : RunStage} {pc : WorkerPC} (h : r.next s c e = some (a, pc))
    (hc : LibpqExplains (.worker c))
    (hgives : (WorkerPC.running e r).givesUp s = true → s.session.connectionError ≠ [])
    (hr : (WorkerPC.running e r).Explains s.session.connectionError) :
    pc.Explains (s.apply a).session.connectionError := by
  cases r with
  | testAutoReconnect =>
      simp only [RunStage.next] at h
      split at h
      · obtain ⟨rfl, rfl⟩ := by simpa using h
        exact WorkerPC.explains_running rfl rfl
      · rename_i hauto
        obtain ⟨rfl, rfl⟩ := by simpa using h
        exact WorkerPC.explains_error rfl rfl (hgives (by simpa [WorkerPC.givesUp] using hauto))
  | reconnectFirst r =>
      simp only [RunStage.next] at h
      cases hnext : r.next s c with
      | none => exact absurd h (by simp [hnext])
      | some z =>
          obtain ⟨b, z⟩ := z
          have hreconnect := ReconnectStage.next_explains hnext hc hr.2
          rw [hnext] at h
          cases z with
          | inl r' =>
              obtain ⟨rfl, rfl⟩ := by simpa using h
              exact ⟨fun error herror => (by cases herror), hreconnect⟩
          | inr success =>
              cases success with
              | true =>
                  obtain ⟨rfl, rfl⟩ := by simpa using h
                  exact WorkerPC.explains_running rfl rfl
              | false =>
                  obtain ⟨rfl, rfl⟩ := by simpa using h
                  refine WorkerPC.explains_error rfl rfl ?_
                  rcases hreconnect with ⟨rfl, hdown⟩ | htext
                  · exact hgives hdown
                  · exact htext
  | reconnectAgain error r =>
      have hmessage := hr.1 error rfl
      simp only [RunStage.next] at h
      split at h
      · obtain ⟨rfl, rfl⟩ := by simpa using h
        exact WorkerPC.explains_error rfl rfl hmessage
      · obtain ⟨rfl, rfl⟩ := by simpa using h
        exact WorkerPC.explains_error rfl rfl hmessage
      · exact absurd h (by simp)
  | executing todo current =>
      simp only [RunStage.next] at h
      split at h
      · obtain ⟨rfl, rfl⟩ := by simpa using h
        exact WorkerPC.explains_running rfl rfl
      · obtain ⟨rfl, rfl⟩ := by simpa using h
        exact WorkerPC.explains_running rfl rfl
      · obtain ⟨rfl, rfl⟩ := by simpa using h
        exact WorkerPC.explains_running rfl rfl
      · obtain ⟨rfl, rfl⟩ := by simpa using h
        exact WorkerPC.explains_error rfl rfl hc.message
      · exact absurd h (by simp)
  | leaveGuard thrown =>
      cases thrown with
      | none =>
          obtain ⟨rfl, rfl⟩ := by simpa [RunStage.next] using h
          exact WorkerPC.explains_running rfl rfl
      | some error =>
          have hmessage := hr.1 error rfl
          obtain ⟨rfl, rfl⟩ := by simpa [RunStage.next] using h
          split
          · exact WorkerPC.explains_error rfl rfl hmessage
          · exact WorkerPC.explains_error rfl rfl hmessage
  | testCancellation error =>
      simp only [RunStage.next] at h
      split at h
      · obtain ⟨rfl, rfl⟩ := by simpa using h
        exact WorkerPC.explains_running rfl rfl
      · obtain ⟨rfl, rfl⟩ := by simpa using h
        exact WorkerPC.explains_error rfl rfl (hr.1 error rfl)
  | clearCancellationThrown error =>
      obtain ⟨rfl, rfl⟩ := by simpa [RunStage.next] using h
      split
      · exact WorkerPC.explains_error rfl rfl (hr.1 error rfl)
      · exact WorkerPC.explains_error rfl rfl (hr.1 error rfl)
  | testRetry error | testErrorText error =>
      simp only [RunStage.next] at h
      split at h <;> obtain ⟨rfl, rfl⟩ := by simpa using h
      all_goals first
        | exact WorkerPC.explains_error rfl rfl (hr.1 error rfl)
        | exact WorkerPC.explains_running rfl rfl
  | storeError error =>
      obtain ⟨rfl, rfl⟩ := by simpa [RunStage.next] using h
      exact WorkerPC.explains_error rfl rfl (hr.1 error rfl)
  | _ =>
      -- no exception is at hand before and after
      simp only [RunStage.next] at h
      repeat' split at h
      all_goals cases h
      all_goals first
        | exact WorkerPC.explains_running rfl rfl
        | trivial

lemma connectFailureReason_ne_nil (s : Shared) : connectFailureReason s ≠ [] := by
  unfold connectFailureReason
  split
  · exact List.cons_ne_nil _ _
  · assumption

lemma ConnectStage.drainNext_explains {text reason : Text} (h : reason ≠ [])
    (l : List Execution) :
    (WorkerPC.connecting (ConnectStage.drainNext reason l)).Explains text := by
  cases l with
  | nil => trivial
  | cons e rest => exact h

/-- The worker thread can explain each failure. -/
lemma WorkerPC.next_explains {pc pc' : WorkerPC} (h : pc.next s c = some (a, pc'))
    (hc : LibpqExplains (.worker c))
    (hgives : pc.givesUp s = true → s.session.connectionError ≠ [])
    (hpc : pc.Explains s.session.connectionError) :
    pc'.Explains (s.apply a).session.connectionError := by
  cases pc with
  | running e r => exact RunStage.next_explains h hc hgives hpc
  | connecting stage =>
      cases stage with
      | failClose =>
          obtain ⟨rfl, rfl⟩ := by simpa [WorkerPC.next, ConnectStage.next] using h
          exact ConnectStage.drainNext_explains (connectFailureReason_ne_nil s) _
      | drain e stage rest reason =>
          cases stage with
          | setFinished =>
              obtain ⟨rfl, rfl⟩ := by
                simpa [WorkerPC.next, ConnectStage.next, CompleteStage.next] using h
              exact ConnectStage.drainNext_explains hpc rest
          | _ =>
              obtain ⟨rfl, rfl⟩ := by
                simpa [WorkerPC.next, ConnectStage.next, CompleteStage.next] using h
              exact hpc
      | _ =>
          simp only [WorkerPC.next, ConnectStage.next] at h
          repeat' split at h
          all_goals cases h
          all_goals trivial
  | taking =>
      simp only [WorkerPC.next] at h
      repeat' split at h
      all_goals cases h
      · trivial
      · exact explains_running rfl rfl
  | leaving stage =>
      cases stage <;> simp only [WorkerPC.next, LeaveStage.next] at h
      all_goals repeat' split at h
      all_goals cases h
      all_goals trivial
  | notStarted | ended => exact absurd h (by simp [WorkerPC.next])

/-- The texts that the worker thread stores, and the executions that it gives `QUERY_ERROR`. -/
lemma WorkerPC.next_tells {pc pc' : WorkerPC} {text : Text} (h : pc.next s c = some (a, pc'))
    (hpc : pc.Explains text) :
    (∀ reason, a = .setError e reason → reason ≠ []) ∧
      (a = .setResultStatus e .error → e ∈ pc.told ∨ e ∈ pc'.owes) ∧ a ≠ .forceFinish e ∧
      (e ∈ pc'.told → e ∈ pc.told ∨ ∃ reason, a = .setError e reason) ∧
      (e ∈ pc.owes → e ∈ pc'.owes ∨ (s.own e).errorText ≠ [] ∨ ∃ reason, a = .setError e reason) := by
  cases pc with
  | running e' r =>
      have htold : e ∉ pc'.told := by
        rcases RunStage.next_pc h with rfl | ⟨r', rfl⟩ <;> exact List.not_mem_nil
      cases r with
      | setErrorText error =>
          obtain ⟨rfl, rfl⟩ := by simpa [WorkerPC.next, RunStage.next] using h
          refine ⟨?_, by simp, by simp, fun h => absurd h htold, fun h => .inr (.inr ?_)⟩
          · intro reason hreason
            cases hreason
            exact hpc.1 error rfl
          · obtain rfl := List.mem_singleton.1 h
            exact ⟨_, rfl⟩
      | testErrorText error =>
          simp only [WorkerPC.next, RunStage.next] at h
          split at h
          · obtain ⟨rfl, rfl⟩ := by simpa using h
            exact ⟨by simp, by simp, by simp, fun h => absurd h htold, .inl⟩
          · obtain ⟨rfl, rfl⟩ := by simpa using h
            refine ⟨by simp, by simp, by simp, fun h => absurd h htold, fun h => .inr (.inl ?_)⟩
            obtain rfl := List.mem_singleton.1 h
            assumption
      | storeError error =>
          obtain ⟨rfl, rfl⟩ := by simpa [WorkerPC.next, RunStage.next] using h
          refine ⟨by simp, fun h => .inr ?_, by simp, fun h => absurd h htold, fun h => absurd h List.not_mem_nil⟩
          cases h
          exact List.mem_singleton.2 rfl
      | reconnectFirst r | reconnectAgain error r =>
          simp only [WorkerPC.next, RunStage.next] at h
          repeat' split at h
          all_goals grind [ReconnectStage.next_access, WorkerPC.owes]
      | _ =>
          simp only [WorkerPC.next, RunStage.next] at h
          repeat' split at h
          all_goals grind [WorkerPC.owes]
  | connecting stage =>
      cases stage with
      | failClose =>
          obtain ⟨rfl, rfl⟩ := by simpa [WorkerPC.next, ConnectStage.next] using h
          cases s.queue <;> simp [ConnectStage.drainNext, WorkerPC.told, WorkerPC.owes]
      | drain e' stage rest reason =>
          have hreason : reason ≠ [] := hpc
          cases stage with
          | setFinished =>
              obtain ⟨rfl, rfl⟩ := by
                simpa [WorkerPC.next, ConnectStage.next, CompleteStage.next] using h
              cases rest <;> simp [ConnectStage.drainNext, WorkerPC.told, WorkerPC.owes]
          | setError =>
              obtain ⟨rfl, rfl⟩ := by
                simpa [WorkerPC.next, ConnectStage.next, CompleteStage.next] using h
              refine ⟨?_, by simp, by simp, fun h => .inr ?_, fun h => absurd h List.not_mem_nil⟩
              · intro reason' heq
                cases heq
                exact hreason
              · obtain rfl := List.mem_singleton.1 h
                exact ⟨reason, rfl⟩
          | setResultStatus =>
              obtain ⟨rfl, rfl⟩ := by
                simpa [WorkerPC.next, ConnectStage.next, CompleteStage.next] using h
              refine ⟨by simp, fun h => .inl ?_, by simp, .inl, fun h => absurd h List.not_mem_nil⟩
              cases h
              exact List.mem_singleton.2 rfl
          | setStatus | put =>
              obtain ⟨rfl, rfl⟩ := by
                simpa [WorkerPC.next, ConnectStage.next, CompleteStage.next] using h
              exact ⟨by simp, by simp, by simp, .inl, fun h => absurd h List.not_mem_nil⟩
      | _ =>
          simp only [WorkerPC.next, ConnectStage.next] at h
          repeat' split at h
          all_goals grind [WorkerPC.told, WorkerPC.owes]
  | taking =>
      simp only [WorkerPC.next] at h
      grind [WorkerPC.told, WorkerPC.owes]
  | leaving stage =>
      cases stage <;> simp only [WorkerPC.next, LeaveStage.next] at h
      all_goals grind [WorkerPC.told, WorkerPC.owes]
  | notStarted | ended => exact absurd h (by simp [WorkerPC.next])

/-- The main thread tells an execution its reason in `waitForQuery` only. -/
lemma MainPC.next_tells {pc pc' : MainPC} (h : pc.next s c = some (a, pc')) :
    (∀ reason, a = .setError e reason → reason = cannotWaitReason) ∧
      (a = .setResultStatus e .error ∨ a = .forceFinish e → e ∈ pc.told) ∧
      (e ∈ pc'.told → e ∈ pc.told ∨ ∃ reason, a = .setError e reason) := by
  cases pc with
  | waiting e' stage =>
      cases stage with
      | complete stage =>
          cases stage <;> simp only [MainPC.next, WaitStage.next, CompleteStage.next] at h
          all_goals grind [MainPC.told]
      | _ =>
          simp only [MainPC.next, WaitStage.next] at h
          repeat' split at h
          all_goals grind [MainPC.told]
  | enqueue e' stage =>
      cases stage <;> simp only [MainPC.next, EnqueueStage.next] at h
      all_goals grind [MainPC.told]
  | abort e' stage =>
      cases stage <;> simp only [MainPC.next, AbortStage.next] at h
      all_goals repeat' split at h
      all_goals grind [MainPC.told]
  | cancel d stage caller =>
      have htold : e ∉ pc'.told := by
        have hsource := MainPC.next_source h
        cases pc' with
        | waiting e' stage' => exact absurd hsource (by simp [Source])
        | _ => exact List.not_mem_nil
      cases stage <;> simp only [MainPC.next, CancelStage.next] at h
      all_goals repeat' split at h
      all_goals grind
  | abortAll stage g =>
      cases stage <;> simp only [MainPC.next, AbortAllStage.next] at h
      all_goals repeat' split at h
      all_goals grind [MainPC.told]
  | shutdown stage join g =>
      cases stage <;> simp only [MainPC.next, ShutdownStage.next] at h
      all_goals repeat' split at h
      all_goals grind [MainPC.told]
  | ping stage =>
      cases stage <;> simp only [MainPC.next, PingStage.next] at h
      all_goals repeat' split at h
      all_goals grind [MainPC.told, ReconnectStage.next_access]
  | connect stage =>
      cases stage <;> simp only [MainPC.next, ConnectCallStage.next] at h
      all_goals repeat' split at h
      all_goals grind [MainPC.told]
  | idle | joining => exact absurd h (by simp [MainPC.next])

/-- The text of the session matters under `m_queryMutex` only. -/
lemma WorkerPC.Explains.of_unlocked {pc : WorkerPC} {text : Text} (h : pc.Explains text)
    (hlocked : pc.locked = false) (text' : Text) : pc.Explains text' := by
  cases pc with
  | running e r =>
      refine ⟨h.1, fun hfailed => ?_⟩
      cases r with
      | reconnectFirst r => exact absurd hlocked (by simp [locked, RunStage.locked])
      | _ => exact absurd hfailed Bool.false_ne_true
  | connecting stage => cases stage <;> exact h
  | _ => exact h

end steps

/-! ### Every run -/

namespace State

variable {C : State → Action → Prop} {s t : State} {e : Execution}

/-- Every failure has a reason, or is about to be given one. -/
structure Reasoned (s : State) : Prop where
  worker : s.workerPC.Explains s.session.connectionError
  told : ∀ e, e ∈ s.workerPC.told ∨ e ∈ s.mainPC.told → (s.own e).errorText ≠ []
  failed : ∀ e, (s.own e).resultStatus = .error →
    (s.own e).errorText ≠ [] ∨ e ∈ s.workerPC.owes
  forced : ∀ e ∈ s.history.forced, (s.own e).errorText ≠ []

/-- An access keeps the texts and gives one to each execution it fails. -/
lemma Reasoned.access {a : Access} (hI : s.Reasoned) (pc : WorkerPC) (pc' : MainPC)
    (hworker : pc.Explains (s.toShared.apply a).session.connectionError)
    (htext : ∀ e reason, a = .setError e reason → reason ≠ [])
    (hfails : ∀ e, a = .setResultStatus e .error → (s.own e).errorText ≠ [] ∨ e ∈ pc.owes)
    (hforces : ∀ e, a = .forceFinish e → (s.own e).errorText ≠ [])
    (htold : ∀ e, e ∈ pc.told ∨ e ∈ pc'.told →
      (s.own e).errorText ≠ [] ∨ ∃ reason, a = .setError e reason)
    (howes : ∀ e ∈ s.workerPC.owes,
      e ∈ pc.owes ∨ (s.own e).errorText ≠ [] ∨ ∃ reason, a = .setError e reason) :
    Reasoned { s with toShared := s.toShared.apply a, workerPC := pc, mainPC := pc' } := by
  have hkeep : ∀ e, (s.own e).errorText ≠ [] ∨ (∃ reason, a = .setError e reason) →
      ((s.toShared.apply a).own e).errorText ≠ [] := by
    rintro e (h | ⟨reason, rfl⟩)
    · exact Shared.errorText_apply_ne_nil (htext e) h
    · rw [Shared.errorText_setError]
      exact htext e reason rfl
  refine ⟨hworker, fun e he => hkeep e (htold e he), fun e he => ?_, fun e he => ?_⟩
  · rcases Shared.resultStatus_of_apply he with he | ha
    · rcases hI.failed e he with h | h
      · exact .inl (hkeep e (.inl h))
      · rcases howes e h with h | h
        · exact .inr h
        · exact .inl (hkeep e h)
    · exact (hfails e ha).imp_left fun h => hkeep e (.inl h)
  · rcases Shared.forced_of_apply he with he | ha
    · exact hkeep e (.inl (hI.forced e he))
    · exact hkeep e (.inl (hforces e ha))

/-- In a run in which libpq explains what fails and `runQuery` finds a text where it gives up,
every failure has a reason. -/
theorem reasoned_of_reach
    (h : system.Reach (fun s a => LibpqExplains a ∧ GivesReason s a) s) : s.Reasoned := by
  refine system_invariant (I := Reasoned) ⟨trivial, by simp [WorkerPC.told, MainPC.told],
    (fun e he => nomatch he), by simp⟩ (fun s t a hr hI hC hstep => ?_) h
  cases hstep with
  | @worker c a pc hnext =>
      have htells := fun e => WorkerPC.next_tells (e := e) hnext hI.worker
      refine hI.access pc s.mainPC (WorkerPC.next_explains hnext hC.1 hC.2 hI.worker)
        (fun e => (htells e).1) (fun e ha => ?_) (fun e ha => ?_) (fun e he => ?_)
        (fun e => (htells e).2.2.2.2)
      · exact ((htells e).2.1 ha).imp_left fun htold => hI.told e (.inl htold)
      · exact absurd ha (htells e).2.2.1
      · rcases he with he | he
        · exact ((htells e).2.2.2.1 he).imp_left fun htold => hI.told e (.inl htold)
        · exact .inl (hI.told e (.inr he))
  | @main c a pc hspawn hnext =>
      have htells := fun e => MainPC.next_tells (e := e) hnext
      refine hI.access s.workerPC pc ?_ (fun e reason ha => ?_)
        (fun e ha => .inl ?_) (fun e ha => ?_) (fun e he => ?_) (fun e he => .inl he)
      · cases hsession : a.ofSession with
        | false =>
            rw [Shared.apply_session hsession]
            exact hI.worker
        | true =>
            -- `ping` holds the mutex
            exact hI.worker.of_unlocked
              (not_both_locked hr (MainPC.next_ofSession hnext hsession)) _
      · rw [(htells e).1 reason ha]
        exact List.cons_ne_nil _ _
      · exact hI.told e (.inr ((htells e).2.1 (.inl ha)))
      · exact hI.told e (.inr ((htells e).2.1 (.inr ha)))
      · rcases he with he | he
        · exact .inl (hI.told e (.inl he))
        · exact ((htells e).2.2 he).imp_left fun htold => hI.told e (.inr htold)
  | spawn hpc =>
      have hworker : s.workerPC = .notStarted :=
        ((startedOnce hr).connecting _ hpc (by simp) (by simp)).1
      refine ⟨trivial, fun e he => he.elim (fun h => nomatch h) (fun h => nomatch h),
        fun e he => .inl ?_, hI.forced⟩
      refine (hI.failed e he).resolve_right ?_
      rw [hworker]
      exact List.not_mem_nil
  | join hpc hworker =>
      exact ⟨hI.worker, fun e he => hI.told e (he.imp_right fun h => nomatch h), hI.failed,
        hI.forced⟩
  | call hidle hcall =>
      cases hcall with
      | start =>
          exact ⟨hI.worker, fun e he => hI.told e (he.imp_right fun h => nomatch h), hI.failed,
            hI.forced⟩
      | enter hentry =>
          refine ⟨hI.worker, fun e he => hI.told e (he.imp_right fun h => ?_), hI.failed,
            hI.forced⟩
          cases hentry <;> exact nomatch h
      | _ => exact ⟨hI.worker, hI.told, hI.failed, hI.forced⟩
  | connectionLost => exact ⟨hI.worker, hI.told, hI.failed, hI.forced⟩

/-- A finished execution that has failed has a text. -/
lemma errorText_of_finished (hr : system.Reach C s) (hI : s.Reasoned)
    (he : e ∈ s.history.accepted) (hfinished : (s.own e).finished = true)
    (hresult : (s.own e).resultStatus = .error) : (s.own e).errorText ≠ [] := by
  rcases hI.failed e hresult with htext | howes
  · exact htext
  · -- the worker thread has not handed it over; only `waitForQuery` can have finished it
    have hholds : e ∈ s.workerPC.holds := by
      cases hpc : s.workerPC with
      | running e' r =>
          rw [hpc] at howes
          cases r with
          | testErrorText error | setErrorText error => exact howes
          | _ => exact nomatch howes
      | _ =>
          rw [hpc] at howes
          exact nomatch howes
    have hplace := accounting hr e
    have hnodup := List.nodup_iff_count_le_one.1 (numbered hr).nodup e
    have hpos := List.count_pos_iff.2 hholds
    rcases finishedHanded_of_reach hr e he hfinished with hhanded | hmain | hwaiting
    · rcases List.mem_append.1 hhanded with hhanded | hreturned
      · rcases List.mem_append.1 hhanded with hput | hforced
        · have := List.count_pos_iff.2 hput
          omega
        · exact hI.forced e hforced
      · have := List.count_pos_iff.2 hreturned
        omega
    · have := List.count_pos_iff.2 hmain
      omega
    · exact hI.told e (.inr (by rw [hwaiting]; exact List.mem_singleton.2 rfl))

/-- **Reasons.**  In every run in which libpq explains what fails and `runQuery` finds a text
where it gives up without an attempt, each execution that finishes with `QUERY_ERROR` has a
text.  One execution has a text, whatever way it fails, if and only if `runQuery` finds the
session open, may open it, or finds a text. -/
theorem failure_has_reason (env : Environment) (henv : env.Explained) (execution : GmsvPg.Execution)
    (session : Backend) :
    (∀ s, system.Reach (fun s a => LibpqExplains a ∧ GivesReason s a) s →
      ∀ e ∈ s.history.accepted, (s.own e).finished = true → (s.own e).resultStatus = .error →
        (s.own e).errorText ≠ []) ∧
    (((execution.outcome env session).resultStatus = .error →
        (execution.outcome env session).errorText ≠ []) ↔ session.HasReason env) :=
  ⟨fun _ hs _ he hfinished hresult =>
      errorText_of_finished hs (reasoned_of_reach hs) he hfinished hresult,
    outcome_hasReason henv execution session⟩

def refused : Text := "connection refused".toList

lemma refused_ne_nil : refused ≠ [] := List.cons_ne_nil _ _

/-- The connection is lost, and both attempts to reconnect fail. -/
def failedReconnectRun : List Action :=
  connectSteps ++ connectedSteps ++ [.connectionLost] ++ startSteps 0 0 ++ workerSteps 13 ++
    .worker (.connected (some refused)) :: workerSteps 9 ++
    .worker (.connected (some refused)) :: workerSteps 11

/-- No attempt to connect succeeds. -/
def refusing : Environment where
  connects _ := .failed refused
  replies _ := { errorMessage := refused }

set_option maxRecDepth 4000 in
theorem failure_has_reason_failedReconnectRun :
    (∃ s, system.run system.init failedReconnectRun = some s ∧
      (s.own ⟨0, 0, 0⟩).resultStatus = .error ∧ (s.own ⟨0, 0, 0⟩).errorText ≠ []) ∧
    ((GmsvPg.Execution.query [] true).outcome refusing {}).errorText ≠ [] := by
  obtain ⟨s, hs⟩ : ∃ s, system.runIf GivesReason system.init failedReconnectRun = some s :=
    ⟨_, rfl⟩
  have hrun : system.run system.init failedReconnectRun =
      system.runIf GivesReason system.init failedReconnectRun := rfl
  have hstate : (system.runIf GivesReason system.init failedReconnectRun).map (fun s =>
      (s.history.accepted, (s.own ⟨0, 0, 0⟩).finished, (s.own ⟨0, 0, 0⟩).resultStatus)) =
      some ([⟨0, 0, 0⟩], true, .error) := rfl
  rw [hs] at hstate
  obtain ⟨haccepted, hfinished, hresult⟩ : s.history.accepted = [⟨0, 0, 0⟩] ∧
      (s.own ⟨0, 0, 0⟩).finished = true ∧ (s.own ⟨0, 0, 0⟩).resultStatus = .error := by
    simpa using hstate
  have hlibpq : ∀ a ∈ failedReconnectRun, LibpqExplains a := by
    simp [failedReconnectRun, connectSteps, connectedSteps, startSteps, workerSteps,
      LibpqExplains, refused_ne_nil, or_imp, forall_and]
  have hreach := Machine.reach_of_runIf_of_forall hs hlibpq
  have hexplained : refusing.Explained :=
    ⟨fun _ => ⟨fun _ => refused_ne_nil, fun _ h => nomatch h⟩,
      fun _ _ h => ConnectResult.failed.inj h ▸ refused_ne_nil⟩
  obtain ⟨hruns, houtcome⟩ := failure_has_reason refusing hexplained (.query [] true) {}
  refine ⟨⟨s, hrun.trans hs, hresult, hruns s hreach _ ?_ hfinished hresult⟩, ?_⟩
  · rw [haccepted]
    exact List.mem_cons_self
  · exact houtcome.2 (by decide) (by decide)

/-- The connection is lost, automatic reconnecting is disabled, and a query is started. -/
def disabledReconnectRun : List Action :=
  connectSteps ++ connectedSteps ++ [.connectionLost, .call (.setAutoReconnect false)] ++
    startSteps 0 0 ++ workerSteps 21

set_option maxRecDepth 4000 in
/-- The query fails without a text. -/
theorem failure_without_reason :
    ¬ ∀ s, system.Reach (fun _ a => LibpqExplains a) s →
      ∀ e ∈ s.history.accepted, (s.own e).finished = true → (s.own e).resultStatus = .error →
        (s.own e).errorText ≠ [] := by
  intro h
  obtain ⟨s, hs⟩ : ∃ s, system.runIf (fun _ _ => True) system.init disabledReconnectRun =
    some s := ⟨_, rfl⟩
  have hstate : (system.runIf (fun _ _ => True) system.init disabledReconnectRun).map (fun s =>
      (s.history.accepted, (s.own ⟨0, 0, 0⟩).finished, (s.own ⟨0, 0, 0⟩).resultStatus,
        (s.own ⟨0, 0, 0⟩).errorText)) = some ([⟨0, 0, 0⟩], true, .error, []) := rfl
  rw [hs] at hstate
  obtain ⟨haccepted, hfinished, hresult, htext⟩ : s.history.accepted = [⟨0, 0, 0⟩] ∧
      (s.own ⟨0, 0, 0⟩).finished = true ∧ (s.own ⟨0, 0, 0⟩).resultStatus = .error ∧
        (s.own ⟨0, 0, 0⟩).errorText = [] := by simpa using hstate
  have hlibpq : ∀ a ∈ disabledReconnectRun, LibpqExplains a := by
    simp [disabledReconnectRun, connectSteps, connectedSteps, startSteps, workerSteps,
      LibpqExplains, or_imp, forall_and]
  have hreach := (Machine.reach_of_runIf_of_forall hs hlibpq).mono fun _ _ h => h.1
  exact h s hreach _ (haccepted ▸ List.mem_singleton_self _) hfinished hresult htext

end State

end GmsvPg.Database
