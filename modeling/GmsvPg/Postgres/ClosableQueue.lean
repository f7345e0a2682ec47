/-
# The closable queue under any interleaving

`BlockingQueue<T>` with any number of threads.  Each call is followed through its steps: the
mutex section, in which the deque and `closed` change, and the notification that `put`, `close`
and `closeAndClear` issue after they have released the mutex.  `take` waits, and is followed
through the protocol of the condition variable; a blocked thread may also wake up by itself.  The
calls that return are recorded in a log, which no step reads.
-/
import GmsvPg.Library.CondVar
import GmsvPg.Library.Machine
import GmsvPg.Postgres.BlockingQueue

namespace GmsvPg

open Library

/-- The notifications. -/
inductive Notification
  | one
  | all
deriving DecidableEq, Repr

/-- A call that has been through its mutex section, with what it returns. -/
inductive QueueEvent (α : Type)
  | put (x : α) (result : Bool)
  | take (out : Option α)
  /-- `removeIf`, with the elements that it erases -/
  | removeIf (erased : List α)
  | clear (returned : List α)
  | close
  | closeAndClear (returned : List α)
deriving DecidableEq, Repr

namespace QueueEvent

variable {α : Type}

/-- What enters the queue. -/
def entering : QueueEvent α → List α
  | put x true => [x]
  | _ => []

/-- What leaves the queue. -/
def leaving : QueueEvent α → List α
  | take (some x) => [x]
  | removeIf erased => erased
  | clear returned | closeAndClear returned => returned
  | _ => []

/-- The queue is closed. -/
def closes : QueueEvent α → Bool
  | close | closeAndClear _ => true
  | _ => false

end QueueEvent

/-- The members of `BlockingQueue`, where the threads stand, and the log. -/
structure QueueState (ι : Type*) (α : Type) where
  queue : BlockingQueue α := {}
  /-- `mutex` and `waitObj`, with the points of the threads in `take` -/
  waitObj : CondVar ι := {}
  /-- the notification that a thread issues next -/
  owes : ι → Option Notification := fun _ => none
  /-- the thread was woken by a notification and has not yet returned or blocked again -/
  notified : ι → Bool := fun _ => false
  log : List (QueueEvent α) := []

/-- The steps: the mutex section of a call other than `take`, a step of `take`, a notification
that is due, and a spurious wake-up. -/
inductive QueueAction (ι : Type*) (α : Type)
  | put (i : ι) (x : α)
  | take (i : ι)
  | removeIf (i : ι) (func : α → Bool)
  | swapToFrontIf (i : ι) (func : α → Bool)
  | clear (i : ι)
  | close (i : ι)
  | closeAndClear (i : ι)
  /-- `notify_one`, with the thread that it wakes -/
  | notifyOne (i : ι) (woken : Option ι)
  | notifyAll (i : ι)
  | wakeUp (i : ι)

/-- The thread is on its way from a wake-up to its next test, or to its return. -/
def Library.WaitPoint.awake : WaitPoint → Bool
  | .testing | .woken | .sawTrue => true
  | .outside | .sawFalse | .blocked => false

namespace QueueState

variable {ι : Type*} [DecidableEq ι] {α : Type}

section steps

variable (s : QueueState ι α)

omit [DecidableEq ι] in
/-- The predicate of the wait in `take`. -/
def ready : Bool := s.queue.closed || !s.queue.backingQueue.isEmpty

/-- A thread can enter a mutex section: it has returned from its last call, and the mutex is
free. -/
def free (i : ι) : Bool :=
  decide (s.owes i = none) && decide (s.waitObj.point i = .outside) && decide (s.waitObj.owner = none)

/-- A mutex section: the queue afterwards, the event, and the notification that is due. -/
def inside (i : ι) (queue : BlockingQueue α) (events : List (QueueEvent α))
    (due : Option Notification) : Option (QueueState ι α) :=
  if s.free i then
    some { s with
      queue := queue
      owes := Function.update s.owes i due
      log := s.log ++ events }
  else none

omit [DecidableEq ι] in
/-- `take`, after its wait. -/
def takeFront : QueueState ι α :=
  match s.queue.backingQueue with
  | [] => { s with log := s.log ++ [.take none] }
  | x :: xs =>
      { s with
        queue := { s.queue with backingQueue := xs }
        log := s.log ++ [.take (some x)] }

/-- A step of `take`; the return is the step out of the call. -/
def takeStep (i : ι) : Option (QueueState ι α) :=
  (s.waitObj.step s.ready i).map fun v =>
    let t := if s.waitObj.point i = .sawTrue then s.takeFront else s
    { t with
      waitObj := v
      notified := Function.update s.notified i (s.notified i && (v.point i).awake) }

/-- `notify_one` by the thread `i`. -/
def issueOne [Fintype ι] (i : ι) (woken : Option ι) : Option (QueueState ι α) :=
  if s.owes i = some .one then
    (s.waitObj.notifyOne woken).map fun v =>
      { s with
        waitObj := v
        owes := Function.update s.owes i none
        notified := woken.elim s.notified fun j => Function.update s.notified j true }
  else none

/-- `notify_all` by the thread `i`. -/
def issueAll (i : ι) : Option (QueueState ι α) :=
  if s.owes i = some .all then
    some { s with
      waitObj := s.waitObj.notifyAll
      owes := Function.update s.owes i none
      notified := fun j => s.notified j || decide (s.waitObj.point j = .blocked) }
  else none

end steps

end QueueState

/-- The threads `ι` at one `BlockingQueue<α>`. -/
def closableQueue (ι : Type*) [DecidableEq ι] [Fintype ι] (α : Type) :
    Machine (QueueState ι α) (QueueAction ι α) where
  init := {}
  next s
    | .put i x =>
        let r := s.queue.put x
        s.inside i r.1 [.put x r.2] (if r.2 then some .one else none)
    | .take i => if s.owes i = none then s.takeStep i else none
    | .removeIf i func =>
        s.inside i (s.queue.removeIf func).1 [.removeIf (s.queue.backingQueue.filter func)] none
    | .swapToFrontIf i func => s.inside i (s.queue.swapToFrontIf func).1 [] none
    | .clear i => s.inside i s.queue.clear.1 [.clear s.queue.clear.2] none
    | .close i => s.inside i { s.queue with closed := true } [.close] (some .all)
    | .closeAndClear i =>
        s.inside i s.queue.closeAndClear.1 [.closeAndClear s.queue.closeAndClear.2] (some .all)
    | .notifyOne i woken => s.issueOne i woken
    | .notifyAll i => s.issueAll i
    | .wakeUp i => (s.waitObj.wakeUp i).map fun v => { s with waitObj := v }

namespace QueueState

open scoped List

variable {ι : Type*} [DecidableEq ι] [Fintype ι] {α : Type} {s t : QueueState ι α}

/-! ### What a step can do -/

/-- A mutex section of a call other than `take`: the queue before and afterwards, the events and
the notification that is due. -/
inductive Section (q : BlockingQueue α) :
    BlockingQueue α → List (QueueEvent α) → Option Notification → Prop
  | put {x : α} (hopen : q.closed = false) :
      Section q { q with backingQueue := q.backingQueue ++ [x] } [.put x true] (some .one)
  | refuse {x : α} (hclosed : q.closed = true) : Section q q [.put x false] none
  | removeIf {func : α → Bool} :
      Section q (q.removeIf func).1 [.removeIf (q.backingQueue.filter func)] none
  | swapToFrontIf {func : α → Bool} : Section q (q.swapToFrontIf func).1 [] none
  | clear : Section q q.clear.1 [.clear q.backingQueue] none
  | close : Section q { q with closed := true } [.close] (some .all)
  | closeAndClear :
      Section q q.closeAndClear.1 [.closeAndClear q.backingQueue] (some .all)

/-- The kinds of steps. -/
inductive Step (s : QueueState ι α) : QueueState ι α → Prop
  | inside {i : ι} {q : BlockingQueue α} {events : List (QueueEvent α)} {due : Option Notification}
      (howes : s.owes i = none) (hfree : s.waitObj.owner = none)
      (h : Section s.queue q events due) :
      Step s { s with
        queue := q, owes := Function.update s.owes i due, log := s.log ++ events }
  /-- a step of `take` before its return -/
  | wait {i : ι} {v : CondVar ι} (hpoint : s.waitObj.point i ≠ .sawTrue)
      (h : s.waitObj.step s.ready i = some v) :
      Step s { s with
        waitObj := v
        notified := Function.update s.notified i (s.notified i && (v.point i).awake) }
  /-- `take` returns -/
  | takeFront {i : ι} (hpoint : s.waitObj.point i = .sawTrue) :
      Step s { s.takeFront with
        waitObj := s.waitObj.move i .outside none
        notified := Function.update s.notified i false }
  | notifyOne {i : ι} {woken : Option ι} {v : CondVar ι} (howes : s.owes i = some .one)
      (h : s.waitObj.notifyOne woken = some v) :
      Step s { s with
        waitObj := v
        owes := Function.update s.owes i none
        notified := woken.elim s.notified fun j => Function.update s.notified j true }
  | notifyAll {i : ι} (howes : s.owes i = some .all) :
      Step s { s with
        waitObj := s.waitObj.notifyAll
        owes := Function.update s.owes i none
        notified := fun j => s.notified j || decide (s.waitObj.point j = .blocked) }
  | wakeUp {i : ι} {v : CondVar ι} (h : s.waitObj.wakeUp i = some v) :
      Step s { s with waitObj := v }

lemma step_of_inside {i : ι} {q : BlockingQueue α} {events : List (QueueEvent α)}
    {due : Option Notification} (h : s.inside i q events due = some t)
    (hsection : Section s.queue q events due) : Step s t := by
  unfold inside at h
  split at h
  · rename_i hfree
    obtain rfl := Option.some.inj h
    rw [free, Bool.and_eq_true, Bool.and_eq_true, decide_eq_true_eq, decide_eq_true_eq,
      decide_eq_true_eq] at hfree
    exact .inside hfree.1.1 hfree.2 hsection
  · exact absurd h (by simp)

lemma step_of_next {a : QueueAction ι α} (h : (closableQueue ι α).next s a = some t) :
    Step s t := by
  cases a with
  | put i x =>
      have h : s.inside i (s.queue.put x).1 [.put x (s.queue.put x).2]
        (if (s.queue.put x).2 then some .one else none) = some t := h
      refine step_of_inside h ?_
      cases hclosed : s.queue.closed with
      | true =>
          rw [BlockingQueue.put, if_pos hclosed]
          exact .refuse hclosed
      | false =>
          rw [BlockingQueue.put, if_neg (by rw [hclosed]; decide)]
          exact .put hclosed
  | take i =>
      simp only [closableQueue] at h
      split at h
      · obtain ⟨v, hv, rfl⟩ := Option.map_eq_some_iff.1 h
        by_cases hpoint : s.waitObj.point i = .sawTrue
        · have hv' : v = s.waitObj.move i .outside none := by
            rw [CondVar.step, hpoint] at hv
            exact (Option.some.inj hv).symm
          subst hv'
          rw [if_pos hpoint, CondVar.move_point_self, WaitPoint.awake, Bool.and_false]
          exact .takeFront hpoint
        · rw [if_neg hpoint]
          exact .wait hpoint hv
      · exact absurd h (by simp)
  | removeIf i func => exact step_of_inside h .removeIf
  | swapToFrontIf i func => exact step_of_inside h .swapToFrontIf
  | clear i => exact step_of_inside h .clear
  | close i => exact step_of_inside h .close
  | closeAndClear i => exact step_of_inside h .closeAndClear
  | notifyOne i woken =>
      have h : s.issueOne i woken = some t := h
      unfold issueOne at h
      split at h
      · rename_i howes
        obtain ⟨v, hv, rfl⟩ := Option.map_eq_some_iff.1 h
        exact .notifyOne howes hv
      · exact absurd h (by simp)
  | notifyAll i =>
      have h : s.issueAll i = some t := h
      unfold issueAll at h
      split at h
      · rename_i howes
        obtain rfl := Option.some.inj h
        exact .notifyAll howes
      · exact absurd h (by simp)
  | wakeUp i =>
      obtain ⟨v, hv, rfl⟩ := Option.map_eq_some_iff.1 h
      exact .wakeUp hv

/-! ### The elements -/

/-- What a mutex section does to the elements, and to `closed`. -/
lemma Section.elements {q q' : BlockingQueue α} {events : List (QueueEvent α)}
    {due : Option Notification} (h : Section q q' events due) :
    (q.backingQueue ++ events.flatMap QueueEvent.entering).Perm
        (events.flatMap QueueEvent.leaving ++ q'.backingQueue) ∧
      (q.closed = true → q'.closed = true ∧ events.flatMap QueueEvent.entering = []) ∧
      ((∃ e ∈ events, e.closes = true) → q'.closed = true) ∧ events.length ≤ 1 := by
  cases h with
  | put hopen =>
      refine ⟨List.Perm.refl _, fun hclosed => absurd (hopen.symm.trans hclosed) (by simp), ?_,
        le_refl 1⟩
      rintro ⟨e, he, hcloses⟩
      obtain rfl := List.mem_singleton.1 he
      exact nomatch hcloses
  | refuse hclosed =>
      exact ⟨List.Perm.of_eq (List.append_nil q.backingQueue), fun h => ⟨h, rfl⟩,
        fun _ => hclosed, le_refl 1⟩
  | @removeIf func =>
      refine ⟨?_, fun h => ⟨h, rfl⟩, ?_, le_refl 1⟩
      · show (q.backingQueue ++ []).Perm ((q.backingQueue.filter func ++ []) ++
          q.backingQueue.filter fun x => !func x)
        rw [List.append_nil, List.append_nil]
        exact (List.filter_append_perm func q.backingQueue).symm
      · rintro ⟨e, he, hcloses⟩
        obtain rfl := List.mem_singleton.1 he
        exact nomatch hcloses
  | swapToFrontIf =>
      refine ⟨?_, fun h => ⟨(BlockingQueue.swapToFrontIf_closed q _).trans h, rfl⟩,
        fun h => ?_, Nat.zero_le 1⟩
      · rw [List.flatMap_nil, List.append_nil]
        exact (BlockingQueue.swapToFrontIf_perm q _).symm
      · obtain ⟨e, he, -⟩ := h
        exact nomatch he
  | clear =>
      refine ⟨?_, fun h => ⟨h, rfl⟩, ?_, le_refl 1⟩
      · exact List.Perm.of_eq (by simp [QueueEvent.entering, QueueEvent.leaving, BlockingQueue.clear])
      · rintro ⟨e, he, hcloses⟩
        obtain rfl := List.mem_singleton.1 he
        exact nomatch hcloses
  | close =>
      exact ⟨List.Perm.of_eq (List.append_nil q.backingQueue), fun _ => ⟨rfl, rfl⟩,
        fun _ => rfl, le_refl 1⟩
  | closeAndClear =>
      refine ⟨?_, fun _ => ⟨rfl, rfl⟩, fun _ => rfl, le_refl 1⟩
      exact List.Perm.of_eq
        (by simp [QueueEvent.entering, QueueEvent.leaving, BlockingQueue.closeAndClear])

/-- What has entered the queue has left it or is still there; and once it is closed, nothing
enters. -/
structure Conserved (s : QueueState ι α) : Prop where
  elements : (s.log.flatMap QueueEvent.entering).Perm
    (s.log.flatMap QueueEvent.leaving ++ s.queue.backingQueue)
  closed : ∀ e ∈ s.log, e.closes = true → s.queue.closed = true
  order : s.log.Pairwise fun e e' => e.closes = true → e'.entering = []

omit [DecidableEq ι] [Fintype ι] in
/-- One more event. -/
lemma Conserved.event (hI : s.Conserved) (q : BlockingQueue α) (events : List (QueueEvent α))
    (helements : (s.queue.backingQueue ++ events.flatMap QueueEvent.entering).Perm
      (events.flatMap QueueEvent.leaving ++ q.backingQueue))
    (hclosed : s.queue.closed = true → q.closed = true ∧ events.flatMap QueueEvent.entering = [])
    (hcloses : (∃ e ∈ events, e.closes = true) → q.closed = true) (hlength : events.length ≤ 1)
    (ht : t.queue = q) (hlog : t.log = s.log ++ events) : t.Conserved := by
  subst ht
  refine ⟨?_, ?_, ?_⟩
  · rw [hlog, List.flatMap_append, List.flatMap_append]
    calc s.log.flatMap QueueEvent.entering ++ events.flatMap QueueEvent.entering
      _ ~ (s.log.flatMap QueueEvent.leaving ++ s.queue.backingQueue) ++
            events.flatMap QueueEvent.entering := hI.elements.append_right _
      _ ~ s.log.flatMap QueueEvent.leaving ++
            (events.flatMap QueueEvent.leaving ++ t.queue.backingQueue) := by
          rw [List.append_assoc]
          exact helements.append_left _
      _ ~ (s.log.flatMap QueueEvent.leaving ++ events.flatMap QueueEvent.leaving) ++
            t.queue.backingQueue := by rw [List.append_assoc]
  · intro e he hcloses'
    rw [hlog, List.mem_append] at he
    rcases he with he | he
    · exact (hclosed (hI.closed e he hcloses')).1
    · exact hcloses ⟨e, he, hcloses'⟩
  · rw [hlog, List.pairwise_append]
    refine ⟨hI.order, ?_, fun e he e' he' hcloses' => ?_⟩
    · match events, hlength with
      | [], _ => exact List.Pairwise.nil
      | [e], _ => exact List.pairwise_singleton _ e
    · -- what is logged after the queue was closed enters nothing
      have hnil := (hclosed (hI.closed e he hcloses')).2
      exact List.flatMap_eq_nil_iff.1 hnil e' he'

theorem conserved_of_reach (h : (closableQueue ι α).Reachable s) : s.Conserved := by
  have hinit : Conserved ({} : QueueState ι α) := ⟨.nil, (fun e he => nomatch he), .nil⟩
  refine h.invariant hinit fun s t a _ hI _ hnext => ?_
  cases step_of_next hnext with
  | inside howes hfree hsection =>
      obtain ⟨helements, hclosed, hcloses, hlength⟩ := hsection.elements
      exact hI.event _ _ helements hclosed hcloses hlength rfl rfl
  | @takeFront i hpoint =>
      cases hqueue : s.queue.backingQueue with
      | nil =>
          refine hI.event s.queue [.take none] ?_ (fun h => ⟨h, rfl⟩) ?_
            (le_refl 1) ?_ ?_
          · exact List.Perm.of_eq (List.append_nil _)
          · rintro ⟨e, he, hcloses⟩
            obtain rfl := List.mem_singleton.1 he
            exact nomatch hcloses
          · simp only [takeFront, hqueue]
          · simp only [takeFront, hqueue]
      | cons x xs =>
          refine hI.event { s.queue with backingQueue := xs } [.take (some x)] ?_
            (fun h => ⟨h, rfl⟩) ?_ (le_refl 1) ?_ ?_
          · rw [hqueue]
            exact List.Perm.of_eq (List.append_nil _)
          · rintro ⟨e, he, hcloses⟩
            obtain rfl := List.mem_singleton.1 he
            exact nomatch hcloses
          · simp only [takeFront, hqueue]
          · simp only [takeFront, hqueue]
  | wait | notifyOne | notifyAll | wakeUp => exact ⟨hI.elements, hI.closed, hI.order⟩

/-! ### The waiting threads -/

omit [DecidableEq ι] [Fintype ι] in
lemma ready_eq_true : s.ready = true ↔ s.queue.closed = true ∨ s.queue.backingQueue ≠ [] := by
  rw [ready, Bool.or_eq_true, Bool.not_eq_true', List.isEmpty_eq_false_iff]

omit [DecidableEq ι] [Fintype ι] in
lemma ready_eq_false : s.ready = false ↔ s.queue.closed = false ∧ s.queue.backingQueue = [] := by
  rw [ready, Bool.or_eq_false_iff, Bool.not_eq_false', List.isEmpty_iff]

/-- The thread owes a `notify_one`. -/
def owesOne (due : Option Notification) : Bool := decide (due = some .one)

/-- A thread is blocked. -/
def Blocked (s : QueueState ι α) : Prop := ∃ i, s.waitObj.point i = .blocked

/-- While a thread is blocked, each element in the queue is matched by a notification that is due
or by a thread that was notified and has not tested since; and if the queue is closed, a
`notify_all` is due. -/
structure Attended (s : QueueState ι α) : Prop where
  exclusive : s.waitObj.Exclusive
  accurate : s.waitObj.Accurate s.ready
  awake : ∀ i, s.notified i = true → (s.waitObj.point i).awake = true
  covered : s.Blocked → s.queue.backingQueue.length ≤ count owesOne s.owes + count id s.notified
  closing : s.Blocked → s.queue.closed = true → ∃ i, s.owes i = some .all

/-- A mutex section owes a `notify_one` for each element it adds, and a `notify_all` for
closing. -/
lemma Section.due {q q' : BlockingQueue α} {events : List (QueueEvent α)}
    {due : Option Notification} (h : Section q q' events due) :
    q'.backingQueue.length ≤ q.backingQueue.length + (owesOne due).toNat ∧
      (q'.closed = true → q.closed = true ∨ due = some .all) := by
  cases h with
  | put hopen =>
      exact ⟨by simp [owesOne], fun h => .inl h⟩
  | refuse hclosed => exact ⟨Nat.le_add_right _ _, .inl⟩
  | removeIf => exact ⟨(List.length_filter_le _ _).trans (Nat.le_add_right _ _), .inl⟩
  | @swapToFrontIf func =>
      refine ⟨?_, fun h => .inl ((BlockingQueue.swapToFrontIf_closed q func).symm.trans h)⟩
      rw [(BlockingQueue.swapToFrontIf_perm q func).length_eq]
      exact Nat.le_add_right _ _
  | clear => exact ⟨Nat.zero_le _, .inl⟩
  | close => exact ⟨Nat.le_add_right _ _, fun _ => .inr rfl⟩
  | closeAndClear => exact ⟨Nat.zero_le _, fun _ => .inr rfl⟩

lemma Attended.inside {i : ι} {q : BlockingQueue α} {events : List (QueueEvent α)}
    {due : Option Notification} (hI : s.Attended) (howes : s.owes i = none)
    (hfree : s.waitObj.owner = none) (h : Section s.queue q events due) :
    Attended { s with
      queue := q, owes := Function.update s.owes i due, log := s.log ++ events } := by
  obtain ⟨hlength, hclosed⟩ := h.due
  refine ⟨hI.exclusive, .of_free hI.exclusive hfree _, hI.awake, fun hblocked => ?_,
    fun hblocked hq => ?_⟩
  · have hcovered := hI.covered hblocked
    have hcount := count_update owesOne s.owes i due
    rw [howes] at hcount
    show q.backingQueue.length ≤ count owesOne (Function.update s.owes i due) + count id s.notified
    have hnone : (owesOne none).toNat = 0 := rfl
    omega
  · rcases hclosed hq with hbefore | hdue
    · obtain ⟨j, hj⟩ := hI.closing hblocked hbefore
      refine ⟨j, ?_⟩
      show Function.update s.owes i due j = some .all
      rw [Function.update_of_ne]
      · exact hj
      · rintro rfl
        exact absurd (howes.symm.trans hj) (by simp)
    · refine ⟨i, ?_⟩
      show Function.update s.owes i due i = some .all
      rw [Function.update_self, hdue]

lemma Attended.wait {i : ι} {v : CondVar ι} (hI : s.Attended)
    (hpoint : s.waitObj.point i ≠ .sawTrue) (h : s.waitObj.step s.ready i = some v) :
    Attended { s with
      waitObj := v
      notified := Function.update s.notified i (s.notified i && (v.point i).awake) } := by
  obtain ⟨hothers, hi⟩ := CondVar.step_point h hpoint
  -- a thread that has seen the predicate false is right
  have hempty : (v.point i).awake = false → s.ready = false := by
    intro hawake
    rcases hi with hi | hi | ⟨-, hready⟩ | ⟨-, hi⟩
    · exact absurd hawake (by rw [hi]; decide)
    · exact absurd hawake (by rw [hi]; decide)
    · exact hready
    · exact hI.accurate.sawFalse i hi
  have hblocked : (∃ j, v.point j = .blocked) → s.ready = true → s.Blocked := by
    rintro ⟨j, hj⟩ hready
    by_cases hji : j = i
    · subst hji
      exact absurd ((hempty (by rw [hj]; rfl)).symm.trans hready) (by simp)
    · exact ⟨j, (hothers j hji).symm.trans hj⟩
  refine ⟨hI.exclusive.step h, hI.accurate.step h, fun j hj => ?_, fun hb => ?_, fun hb hq => ?_⟩
  · by_cases hji : j = i
    · subst hji
      have hj : Function.update s.notified j (s.notified j && (v.point j).awake) j = true := hj
      rw [Function.update_self, Bool.and_eq_true] at hj
      exact hj.2
    · have hj : Function.update s.notified i (s.notified i && (v.point i).awake) j = true := hj
      rw [Function.update_of_ne hji] at hj
      show (v.point j).awake = true
      rw [hothers j hji]
      exact hI.awake j hj
  · show s.queue.backingQueue.length ≤ count owesOne s.owes +
      count id (Function.update s.notified i (s.notified i && (v.point i).awake))
    cases hready : s.ready with
    | false =>
        rw [(ready_eq_false.1 hready).2]
        exact Nat.zero_le _
    | true =>
        have hawake : (v.point i).awake = true := by
          by_contra hnot
          exact absurd ((hempty (by simpa using hnot)).symm.trans hready) (by simp)
        rw [hawake, Bool.and_true, Function.update_eq_self]
        exact hI.covered (hblocked hb hready)
  · exact hI.closing (hblocked hb (ready_eq_true.2 (.inl hq))) hq

lemma Attended.takeFront {i : ι} (hI : s.Attended) (hpoint : s.waitObj.point i = .sawTrue) :
    Attended { s.takeFront with
      waitObj := s.waitObj.move i .outside none
      notified := Function.update s.notified i false } := by
  have hstep : s.waitObj.step s.ready i = some (s.waitObj.move i .outside none) := by
    rw [CondVar.step, hpoint]
  have hexclusive := hI.exclusive.step hstep
  have hblocked : (∃ j, (s.waitObj.move i .outside none).point j = .blocked) → s.Blocked := by
    rintro ⟨j, hj⟩
    by_cases hji : j = i
    · subst hji
      exact absurd hj (by simp)
    · rw [CondVar.move_point_of_ne _ _ _ hji] at hj
      exact ⟨j, hj⟩
  have howes : s.takeFront.owes = s.owes := by
    unfold QueueState.takeFront
    split <;> rfl
  have hclosed : s.takeFront.queue.closed = s.queue.closed := by
    unfold QueueState.takeFront
    split <;> rfl
  refine ⟨hexclusive, .of_free hexclusive rfl _, fun j hj => ?_, fun hb => ?_, fun hb hq => ?_⟩
  · by_cases hji : j = i
    · subst hji
      have hj : Function.update s.notified j false j = true := hj
      rw [Function.update_self] at hj
      exact nomatch hj
    · have hj : Function.update s.notified i false j = true := hj
      rw [Function.update_of_ne hji] at hj
      show ((s.waitObj.move i .outside none).point j).awake = true
      rw [CondVar.move_point_of_ne _ _ _ hji]
      exact hI.awake j hj
  · show s.takeFront.queue.backingQueue.length ≤ count owesOne s.takeFront.owes +
      count id (Function.update s.notified i false)
    have hcovered := hI.covered (hblocked hb)
    have hcount := count_update id s.notified i false
    have hone := Bool.toNat_le (id (s.notified i))
    have hzero : (id false).toNat = 0 := rfl
    rw [howes]
    cases hqueue : s.queue.backingQueue with
    | nil =>
        simp only [QueueState.takeFront, hqueue, List.length_nil]
        exact Nat.zero_le _
    | cons x xs =>
        rw [hqueue, List.length_cons] at hcovered
        simp only [QueueState.takeFront, hqueue]
        omega
  · rw [howes]
    exact hI.closing (hblocked hb) (hclosed.symm.trans hq)

/-- A wake-up takes a thread out of the blocked ones. -/
lemma Attended.wakeUp {i : ι} {v : CondVar ι} (hI : s.Attended)
    (h : s.waitObj.wakeUp i = some v) : Attended { s with waitObj := v } := by
  obtain ⟨hi, hv⟩ := CondVar.wakeUp_cases h
  have hblocked : (∃ j, v.point j = .blocked) → s.Blocked := by
    intro _
    exact ⟨i, hi⟩
  refine ⟨hI.exclusive.wakeUp h, hI.accurate.wakeUp h, fun j hj => ?_,
    fun hb => hI.covered (hblocked hb), fun hb => hI.closing (hblocked hb)⟩
  show (v.point j).awake = true
  by_cases hji : j = i
  · subst hji
    rw [hv, CondVar.move_point_self]
    rfl
  · rw [hv, CondVar.move_point_of_ne _ _ _ hji]
    exact hI.awake j hj

lemma Attended.notifyOne {i : ι} {woken : Option ι} {v : CondVar ι} (hI : s.Attended)
    (howes : s.owes i = some .one) (h : s.waitObj.notifyOne woken = some v) :
    Attended { s with
      waitObj := v
      owes := Function.update s.owes i none
      notified := woken.elim s.notified fun j => Function.update s.notified j true } := by
  have hcount := count_update owesOne s.owes i none
  have hone : (owesOne (s.owes i)).toNat = 1 := by rw [howes]; rfl
  have hzero : (owesOne none).toNat = 0 := rfl
  have hclosing : s.Blocked → s.queue.closed = true →
      ∃ j, Function.update s.owes i none j = some .all := by
    intro hb hq
    obtain ⟨j, hj⟩ := hI.closing hb hq
    refine ⟨j, ?_⟩
    rw [Function.update_of_ne]
    · exact hj
    · rintro rfl
      exact absurd (howes.symm.trans hj) (by simp)
  rcases CondVar.notifyOne_cases h with ⟨j, rfl, hj, hv⟩ | ⟨rfl, hnone, rfl⟩
  · -- one thread is woken in exchange for the notification
    have hasleep : s.notified j = false := by
      by_contra hnot
      exact absurd (hI.awake j (by simpa using hnot)) (by rw [hj]; decide)
    have hnotified := count_update id s.notified j true
    have hfalse : (id (s.notified j)).toNat = 0 := by rw [hasleep]; rfl
    have htrue : (id true).toNat = 1 := rfl
    refine ⟨hI.exclusive.notifyOne h, hI.accurate.notifyOne h, fun k hk => ?_, fun _ => ?_,
      fun _ => hclosing ⟨j, hj⟩⟩
    · show (v.point k).awake = true
      by_cases hkj : k = j
      · subst hkj
        rw [hv, CondVar.move_point_self]
        rfl
      · have hk : Function.update s.notified j true k = true := hk
        rw [Function.update_of_ne hkj] at hk
        rw [hv, CondVar.move_point_of_ne _ _ _ hkj]
        exact hI.awake k hk
    · have hcovered := hI.covered ⟨j, hj⟩
      show s.queue.backingQueue.length ≤ count owesOne (Function.update s.owes i none) +
        count id (Function.update s.notified j true)
      omega
  · have hfree : ¬ s.Blocked := fun ⟨j, hj⟩ => hnone j hj
    exact ⟨hI.exclusive, hI.accurate, hI.awake, fun hb => absurd hb hfree,
      fun hb => absurd hb hfree⟩

lemma Attended.notifyAll {i : ι} (hI : s.Attended) :
    Attended { s with
      waitObj := s.waitObj.notifyAll
      owes := Function.update s.owes i none
      notified := fun j => s.notified j || decide (s.waitObj.point j = .blocked) } := by
  have hfree : ¬ ∃ j, s.waitObj.notifyAll.point j = .blocked := by
    rintro ⟨j, hj⟩
    by_cases hb : s.waitObj.point j = .blocked
    · exact absurd hj (by simp [CondVar.notifyAll, hb])
    · exact absurd hj (by simp [CondVar.notifyAll, hb])
  refine ⟨hI.exclusive.notifyAll, hI.accurate.notifyAll, fun j hj => ?_,
    fun hb => absurd hb hfree, fun hb => absurd hb hfree⟩
  show (s.waitObj.notifyAll.point j).awake = true
  by_cases hb : s.waitObj.point j = .blocked
  · simp [CondVar.notifyAll, hb, WaitPoint.awake]
  · have hj : (s.notified j || decide (s.waitObj.point j = .blocked)) = true := hj
    rw [decide_eq_false hb, Bool.or_false] at hj
    simpa [CondVar.notifyAll, hb] using hI.awake j hj

theorem attended_of_reach (h : (closableQueue ι α).Reachable s) : s.Attended := by
  have hinit : Attended ({} : QueueState ι α) :=
    ⟨CondVar.exclusive_init, .of_free CondVar.exclusive_init rfl _, (fun _ h => nomatch h),
      (fun ⟨_, h⟩ => nomatch h), (fun ⟨_, h⟩ => nomatch h)⟩
  refine h.invariant hinit fun s t a _ hI _ hnext => ?_
  cases step_of_next hnext with
  | inside howes hfree hsection => exact hI.inside howes hfree hsection
  | wait hpoint hv => exact hI.wait hpoint hv
  | takeFront hpoint => exact hI.takeFront hpoint
  | notifyOne howes hv => exact hI.notifyOne howes hv
  | notifyAll howes => exact hI.notifyAll
  | wakeUp hv => exact hI.wakeUp hv

/-- `take` returns nothing only when the queue is closed and empty. -/
lemma closed_of_take_none {i : ι} (hI : s.Attended)
    (h : (closableQueue ι α).next s (.take i) = some t) (hlog : t.log = s.log ++ [.take none]) :
    s.queue.backingQueue = [] ∧ s.queue.closed = true := by
  have hne : s.log ≠ s.log ++ [.take none] := by simp
  simp only [closableQueue] at h
  split at h
  · obtain ⟨v, hv, rfl⟩ := Option.map_eq_some_iff.1 h
    by_cases hpoint : s.waitObj.point i = .sawTrue
    · simp only [if_pos hpoint, QueueState.takeFront] at hlog
      cases hqueue : s.queue.backingQueue with
      | nil =>
          have hready := ready_eq_true.1 (hI.accurate.sawTrue i hpoint)
          exact ⟨rfl, hready.resolve_right fun hne => hne hqueue⟩
      | cons x xs =>
          simp only [hqueue] at hlog
          simp at hlog
    · simp only [if_neg hpoint] at hlog
      exact absurd hlog hne
  · exact absurd h (by simp)

omit [DecidableEq ι] in
/-- A blocked thread is attended to. -/
lemma Attended.pending (hI : s.Attended) (hblocked : s.Blocked)
    (hq : s.queue.backingQueue ≠ [] ∨ s.queue.closed = true) :
    ∃ j, s.owes j ≠ none ∨ s.notified j = true ∧ (s.waitObj.point j).awake = true := by
  rcases hq with hne | hclosed
  · have hlength := List.length_pos_iff.2 hne
    have hcovered := hI.covered hblocked
    by_cases howes : 0 < count owesOne s.owes
    · obtain ⟨j, hj⟩ := exists_of_count_pos howes
      have hj : s.owes j = some .one := of_decide_eq_true hj
      exact ⟨j, .inl (by simp [hj])⟩
    · obtain ⟨j, hj⟩ := exists_of_count_pos (show 0 < count id s.notified by omega)
      exact ⟨j, .inr ⟨hj, hI.awake j hj⟩⟩
  · obtain ⟨j, hj⟩ := hI.closing hblocked hclosed
    exact ⟨j, .inl (by simp [hj])⟩

end QueueState

open QueueState in
/-- **The closable queue.**  Whatever the threads call and in whatever order they proceed: what
was put into the queue has left it in one way or is still there; after `close` no `put`
succeeds; `take` returns nothing only from a queue that is closed and empty; and while a thread
is blocked at a queue that is not empty or is closed, a notification is due or has reached a
thread that has yet to test. -/
theorem closable_queue {ι : Type*} [DecidableEq ι] [Fintype ι] {α : Type} {s : QueueState ι α}
    (h : (closableQueue ι α).Reachable s) :
    (s.log.flatMap QueueEvent.entering).Perm
        (s.log.flatMap QueueEvent.leaving ++ s.queue.backingQueue) ∧
      s.log.Pairwise (fun e e' => e.closes = true → e'.entering = []) ∧
      (∀ i t, (closableQueue ι α).next s (.take i) = some t →
        t.log = s.log ++ [.take none] → s.queue.backingQueue = [] ∧ s.queue.closed = true) ∧
      (s.Blocked → s.queue.backingQueue ≠ [] ∨ s.queue.closed = true →
        ∃ j, s.owes j ≠ none ∨ s.notified j = true ∧ (s.waitObj.point j).awake = true) :=
  ⟨(conserved_of_reach h).elements, (conserved_of_reach h).order,
    fun _ _ hnext hlog => closed_of_take_none (attended_of_reach h) hnext hlog,
    (attended_of_reach h).pending⟩

/-- Two consumers block; a producer puts two elements, one consumer is notified and takes one, the
other is blocked while the second notification is due. -/
def twoConsumersRun : List (QueueAction (Fin 3) ℕ) :=
  List.replicate 3 (.take 0) ++ List.replicate 3 (.take 1) ++
    [.put 2 7, .notifyOne 2 (some 0), .put 2 8] ++ List.replicate 3 (.take 0)

theorem closable_queue_twoConsumersRun :
    ∃ s, (closableQueue (Fin 3) ℕ).run (closableQueue (Fin 3) ℕ).init twoConsumersRun = some s ∧
      s.queue.backingQueue = [8] ∧ s.Blocked ∧
      (∃ j, s.owes j ≠ none ∨ s.notified j = true ∧ (s.waitObj.point j).awake = true) := by
  obtain ⟨s, hs⟩ : ∃ s, (closableQueue (Fin 3) ℕ).run (closableQueue (Fin 3) ℕ).init
    twoConsumersRun = some s := ⟨_, rfl⟩
  have hstate : ((closableQueue (Fin 3) ℕ).run (closableQueue (Fin 3) ℕ).init
      twoConsumersRun).map (fun s => (s.queue.backingQueue, s.waitObj.point 1)) =
      some ([8], .blocked) := rfl
  rw [hs] at hstate
  obtain ⟨hqueue, hpoint⟩ : s.queue.backingQueue = [8] ∧ s.waitObj.point 1 = .blocked := by
    simpa using hstate
  refine ⟨s, hs, hqueue, ⟨1, hpoint⟩, ?_⟩
  exact (closable_queue (Machine.reachable_of_run hs)).2.2.2 ⟨1, hpoint⟩
    (.inl (by rw [hqueue]; exact List.cons_ne_nil _ _))

end GmsvPg
