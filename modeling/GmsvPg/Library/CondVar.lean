/-
# Condition variables

The protocol of a condition variable with its mutex: a thread in `wait(lock, predicate)`
acquires the mutex, evaluates the predicate, and, if it is false, releases the mutex and
blocks in one step; a notification, or a spurious wake-up, lets it acquire the mutex again
and re-evaluate the predicate.  The predicate belongs to the program and is passed to each
step as its present value.  What the program needs in order not to lose a wake-up is that
no thread is blocked or about to block once the predicate is true for good.
-/
import Mathlib.Algebra.BigOperators.Group.Finset.Basic
import Mathlib.Data.Fintype.Basic
import Mathlib.Tactic.Common

namespace GmsvPg.Library

/-- Where a thread stands with respect to `wait(lock, predicate)`. -/
inductive WaitPoint
  /-- not in the call -/
  | outside
  /-- holds the mutex, and evaluates the predicate next -/
  | testing
  /-- holds the mutex, and has found the predicate false -/
  | sawFalse
  /-- has released the mutex, and waits for a notification -/
  | blocked
  /-- was notified, or has woken up by itself, and acquires the mutex next -/
  | woken
  /-- holds the mutex, has found the predicate true, and returns next -/
  | sawTrue
deriving DecidableEq, Repr

/-- Whether the mutex is held at a point. -/
def WaitPoint.holdsMutex : WaitPoint → Bool
  | .testing | .sawFalse | .sawTrue => true
  | .outside | .blocked | .woken => false

/-- A mutex and a condition variable, used by the threads `ι`. -/
structure CondVar (ι : Type*) where
  owner : Option ι := none
  point : ι → WaitPoint := fun _ => .outside

namespace CondVar

variable {ι : Type*} [DecidableEq ι]

/-- The state with one thread at another point. -/
def move (v : CondVar ι) (i : ι) (p : WaitPoint) (owner : Option ι) : CondVar ι :=
  { owner := owner, point := Function.update v.point i p }

/-- The next step of a thread: in the call, or into it.  `ready` is the present value of the
predicate. -/
def step (v : CondVar ι) (ready : Bool) (i : ι) : Option (CondVar ι) :=
  match v.point i with
  | .outside => if v.owner = none then some (v.move i .testing (some i)) else none
  | .testing => some (v.move i (if ready then .sawTrue else .sawFalse) v.owner)
  | .sawFalse => some (v.move i .blocked none)
  | .blocked => none
  | .woken => if v.owner = none then some (v.move i .testing (some i)) else none
  | .sawTrue => some (v.move i .outside none)

/-- A spurious wake-up. -/
def wakeUp (v : CondVar ι) (i : ι) : Option (CondVar ι) :=
  if v.point i = .blocked then some (v.move i .woken v.owner) else none

omit [DecidableEq ι] in
/-- `notify_all`. -/
def notifyAll (v : CondVar ι) : CondVar ι :=
  { v with point := fun i => if v.point i = .blocked then .woken else v.point i }

@[simp] lemma move_point_self (v : CondVar ι) (i : ι) (p : WaitPoint) (o : Option ι) :
    (v.move i p o).point i = p := Function.update_self ..

@[simp] lemma move_point_of_ne (v : CondVar ι) {i j : ι} (p : WaitPoint) (o : Option ι)
    (h : j ≠ i) : (v.move i p o).point j = v.point j := Function.update_of_ne h ..

@[simp] lemma move_owner (v : CondVar ι) (i : ι) (p : WaitPoint) (o : Option ι) :
    (v.move i p o).owner = o := rfl

variable {v w : CondVar ι} {ready : Bool} {i : ι}

/-- What a step does: the thread moves to one point, and the others stay. -/
lemma step_cases (h : v.step ready i = some w) :
    ∃ p o, w = v.move i p o ∧
      (p = .blocked → v.point i = .sawFalse) ∧
      (p = .sawFalse → v.point i = .testing ∧ ready = false) ∧
      (p = .sawTrue → v.point i = .testing ∧ ready = true) ∧
      (o = v.owner ∧ p.holdsMutex = (v.point i).holdsMutex ∨
        o = some i ∧ v.owner = none ∧ p.holdsMutex = true ∨
        o = none ∧ (v.point i).holdsMutex = true ∧ p.holdsMutex = false) := by
  unfold step at h
  split at h
  · rename_i hi
    split at h
    · rename_i hfree
      refine ⟨.testing, some i, (Option.some.inj h).symm, by simp, by simp, by simp, ?_⟩
      exact .inr (.inl ⟨rfl, hfree, rfl⟩)
    · exact absurd h (by simp)
  · rename_i hi
    refine ⟨_, _, (Option.some.inj h).symm, ?_, ?_, ?_, ?_⟩
    · cases ready <;> simp
    · cases ready <;> simp [hi]
    · cases ready <;> simp [hi]
    · left
      cases ready <;> simp [hi, WaitPoint.holdsMutex]
  · rename_i hi
    refine ⟨_, _, (Option.some.inj h).symm, by simp [hi], by simp, by simp, ?_⟩
    exact .inr (.inr ⟨rfl, by rw [hi]; rfl, rfl⟩)
  · exact absurd h (by simp)
  · rename_i hi
    split at h
    · rename_i hfree
      refine ⟨.testing, some i, (Option.some.inj h).symm, by simp, by simp, by simp, ?_⟩
      exact .inr (.inl ⟨rfl, hfree, rfl⟩)
    · exact absurd h (by simp)
  · rename_i hi
    refine ⟨_, _, (Option.some.inj h).symm, by simp, by simp, by simp, ?_⟩
    exact .inr (.inr ⟨rfl, by rw [hi]; rfl, rfl⟩)

/-- Before its return, a thread in the call goes on to its next test, or sees the predicate true,
or sees it false, or blocks after that. -/
lemma step_point (h : v.step ready i = some w) (hi : v.point i ≠ .sawTrue) :
    (∀ j, j ≠ i → w.point j = v.point j) ∧
      (w.point i = .testing ∨ w.point i = .sawTrue ∨ w.point i = .sawFalse ∧ ready = false ∨
        w.point i = .blocked ∧ v.point i = .sawFalse) := by
  refine ⟨fun j hj => ?_, ?_⟩
  · obtain ⟨p, o, rfl, -⟩ := step_cases h
    exact move_point_of_ne _ _ _ hj
  unfold step at h
  cases hpoint : v.point i with
  | outside | woken =>
      simp only [hpoint] at h
      split at h
      · obtain rfl := Option.some.inj h
        exact .inl (move_point_self ..)
      · exact absurd h (by simp)
  | testing =>
      simp only [hpoint] at h
      obtain rfl := Option.some.inj h
      cases ready with
      | true => exact .inr (.inl (move_point_self ..))
      | false => exact .inr (.inr (.inl ⟨move_point_self .., rfl⟩))
  | sawFalse =>
      simp only [hpoint] at h
      obtain rfl := Option.some.inj h
      exact .inr (.inr (.inr ⟨move_point_self .., rfl⟩))
  | blocked =>
      simp only [hpoint] at h
      exact absurd h (by simp)
  | sawTrue => exact absurd hpoint hi

lemma wakeUp_cases (h : v.wakeUp i = some w) :
    v.point i = .blocked ∧ w = v.move i .woken v.owner := by
  unfold wakeUp at h
  split at h
  · rename_i hi
    exact ⟨hi, (Option.some.inj h).symm⟩
  · exact absurd h (by simp)

/-! ### The mutex -/

/-- A thread that stands at a point inside the mutex is its owner. -/
def Exclusive (v : CondVar ι) : Prop := ∀ i, (v.point i).holdsMutex = true → v.owner = some i

omit [DecidableEq ι] in
lemma exclusive_init : Exclusive ({} : CondVar ι) := by
  intro i hi
  exact absurd hi (by simp [WaitPoint.holdsMutex])

lemma Exclusive.step (hv : v.Exclusive) (h : v.step ready i = some w) : w.Exclusive := by
  obtain ⟨p, o, rfl, -, -, -, howner⟩ := step_cases h
  intro j hj
  by_cases hji : j = i
  · subst hji
    rw [move_point_self] at hj
    rw [move_owner]
    rcases howner with ⟨rfl, hp⟩ | ⟨rfl, -, -⟩ | ⟨-, -, hp⟩
    · exact hv j (hp ▸ hj)
    · rfl
    · exact absurd (hj.symm.trans hp) (by simp)
  · rw [move_point_of_ne _ _ _ hji] at hj
    rw [move_owner]
    have hown := hv j hj
    rcases howner with ⟨rfl, -⟩ | ⟨-, hfree, -⟩ | ⟨-, hi, -⟩
    · exact hown
    · exact absurd (hown.symm.trans hfree) (by simp)
    · exact absurd (Option.some.inj (hown.symm.trans (hv i hi))) hji

lemma Exclusive.wakeUp (hv : v.Exclusive) (h : v.wakeUp i = some w) : w.Exclusive := by
  obtain ⟨-, rfl⟩ := wakeUp_cases h
  intro j hj
  by_cases hji : j = i
  · subst hji
    rw [move_point_self] at hj
    exact absurd hj (by simp [WaitPoint.holdsMutex])
  · rw [move_point_of_ne _ _ _ hji] at hj
    exact hv j hj

omit [DecidableEq ι] in
lemma Exclusive.notifyAll (hv : v.Exclusive) : v.notifyAll.Exclusive := by
  intro j hj
  refine hv j ?_
  by_cases hb : v.point j = .blocked
  · simp [CondVar.notifyAll, hb, WaitPoint.holdsMutex] at hj
  · simpa [CondVar.notifyAll, hb] using hj

/-! ### Wake-ups -/

/-- No thread is blocked, or has found the predicate false and is about to block. -/
def Settled (v : CondVar ι) : Prop := ∀ i, v.point i ≠ .blocked ∧ v.point i ≠ .sawFalse

omit [DecidableEq ι] in
/-- `notify_all` settles the threads, unless one of them is about to block. -/
lemma settled_notifyAll (h : ∀ i, v.point i ≠ .sawFalse) : v.notifyAll.Settled := by
  intro i
  have hi := h i
  by_cases hb : v.point i = .blocked
  · simp [notifyAll, hb]
  · simp [notifyAll, hb, hi]

/-- Once the predicate is true, nobody blocks any more. -/
lemma Settled.step (hv : v.Settled) (h : v.step true i = some w) : w.Settled := by
  obtain ⟨p, o, rfl, hblocked, hfalse, -, -⟩ := step_cases h
  intro j
  by_cases hji : j = i
  · subst hji
    rw [move_point_self]
    constructor
    · intro hp
      exact (hv j).2 (hblocked hp)
    · intro hp
      exact absurd (hfalse hp).2 (by simp)
  · rw [move_point_of_ne _ _ _ hji]
    exact hv j

lemma Settled.wakeUp (hv : v.Settled) (h : v.wakeUp i = some w) : w.Settled := by
  obtain ⟨hi, -⟩ := wakeUp_cases h
  exact absurd hi (hv i).1

/-! ### `notify_one` -/

/-- `notify_one`: one of the blocked threads wakes up, if there is one. -/
def notifyOne [Fintype ι] (v : CondVar ι) : Option ι → Option (CondVar ι)
  | some i => v.wakeUp i
  | none => if ∀ i, v.point i ≠ .blocked then some v else none

lemma notifyOne_cases [Fintype ι] {j : Option ι} (h : v.notifyOne j = some w) :
    (∃ i, j = some i ∧ v.point i = .blocked ∧ w = v.move i .woken v.owner) ∨
      j = none ∧ (∀ i, v.point i ≠ .blocked) ∧ w = v := by
  cases j with
  | some i =>
      obtain ⟨hi, hw⟩ := wakeUp_cases h
      exact .inl ⟨i, rfl, hi, hw⟩
  | none =>
      simp only [notifyOne] at h
      split at h
      · rename_i hnone
        exact .inr ⟨rfl, hnone, (Option.some.inj h).symm⟩
      · exact absurd h (by simp)

lemma Exclusive.notifyOne [Fintype ι] {j : Option ι} (hv : v.Exclusive)
    (h : v.notifyOne j = some w) : w.Exclusive := by
  cases j with
  | some i => exact hv.wakeUp h
  | none =>
      rcases notifyOne_cases h with ⟨i, hi, -⟩ | ⟨-, -, rfl⟩
      · exact absurd hi (by simp)
      · exact hv

/-! ### The predicate -/

/-- What the thread inside the mutex has found of the predicate is still so. -/
structure Accurate (v : CondVar ι) (ready : Bool) : Prop where
  sawFalse : ∀ i, v.point i = .sawFalse → ready = false
  sawTrue : ∀ i, v.point i = .sawTrue → ready = true

omit [DecidableEq ι] in
/-- While nobody holds the mutex, the predicate may take any value. -/
lemma Accurate.of_free (hv : v.Exclusive) (hfree : v.owner = none) (ready : Bool) :
    v.Accurate ready := by
  have hnot : ∀ i, (v.point i).holdsMutex = true → False := by
    intro i hi
    exact absurd ((hv i hi).symm.trans hfree) (by simp)
  constructor
  · intro i hi
    exact (hnot i (by rw [hi]; rfl)).elim
  · intro i hi
    exact (hnot i (by rw [hi]; rfl)).elim

lemma Accurate.step (hv : v.Accurate ready) (h : v.step ready i = some w) : w.Accurate ready := by
  obtain ⟨p, o, rfl, -, hfalse, htrue, -⟩ := step_cases h
  constructor
  · intro j hj
    by_cases hji : j = i
    · subst hji
      rw [move_point_self] at hj
      exact (hfalse hj).2
    · rw [move_point_of_ne _ _ _ hji] at hj
      exact hv.sawFalse j hj
  · intro j hj
    by_cases hji : j = i
    · subst hji
      rw [move_point_self] at hj
      exact (htrue hj).2
    · rw [move_point_of_ne _ _ _ hji] at hj
      exact hv.sawTrue j hj

lemma Accurate.wakeUp (hv : v.Accurate ready) (h : v.wakeUp i = some w) : w.Accurate ready := by
  obtain ⟨-, rfl⟩ := wakeUp_cases h
  constructor
  · intro j hj
    by_cases hji : j = i
    · subst hji
      exact absurd hj (by simp)
    · rw [move_point_of_ne _ _ _ hji] at hj
      exact hv.sawFalse j hj
  · intro j hj
    by_cases hji : j = i
    · subst hji
      exact absurd hj (by simp)
    · rw [move_point_of_ne _ _ _ hji] at hj
      exact hv.sawTrue j hj

lemma Accurate.notifyOne [Fintype ι] {j : Option ι} (hv : v.Accurate ready)
    (h : v.notifyOne j = some w) : w.Accurate ready := by
  cases j with
  | some i => exact hv.wakeUp h
  | none =>
      rcases notifyOne_cases h with ⟨i, hi, -⟩ | ⟨-, -, rfl⟩
      · exact absurd hi (by simp)
      · exact hv

omit [DecidableEq ι] in
lemma Accurate.notifyAll (hv : v.Accurate ready) : v.notifyAll.Accurate ready := by
  have hpoint : ∀ i, v.notifyAll.point i = .woken ∨ v.notifyAll.point i = v.point i := by
    intro i
    by_cases hb : v.point i = .blocked
    · exact .inl (by simp [CondVar.notifyAll, hb])
    · exact .inr (by simp [CondVar.notifyAll, hb])
  constructor
  · intro i hi
    rcases hpoint i with hwoken | hsame
    · exact absurd (hwoken.symm.trans hi) (by simp)
    · exact hv.sawFalse i (hsame.symm.trans hi)
  · intro i hi
    rcases hpoint i with hwoken | hsame
    · exact absurd (hwoken.symm.trans hi) (by simp)
    · exact hv.sawTrue i (hsame.symm.trans hi)

end CondVar

/-! ### Counting threads -/

section count

variable {ι β : Type*} [Fintype ι] [DecidableEq ι] {p : β → Bool} {f : ι → β}

omit [DecidableEq ι] in
/-- The number of threads whose value satisfies `p`. -/
def count (p : β → Bool) (f : ι → β) : ℕ := ∑ i, (p (f i)).toNat

omit [DecidableEq ι] in
lemma exists_of_count_pos (h : 0 < count p f) : ∃ i, p (f i) = true := by
  obtain ⟨i, -, hi⟩ := Finset.exists_ne_zero_of_sum_ne_zero (Nat.pos_iff_ne_zero.1 h)
  refine ⟨i, ?_⟩
  cases hp : p (f i) with
  | true => rfl
  | false => exact absurd (by rw [hp]; rfl) hi

lemma count_update (p : β → Bool) (f : ι → β) (i : ι) (b : β) :
    count p (Function.update f i b) + (p (f i)).toNat = count p f + (p b).toNat := by
  have hrest : ∑ j ∈ Finset.univ.erase i, (p (Function.update f i b j)).toNat =
      ∑ j ∈ Finset.univ.erase i, (p (f j)).toNat := by
    refine Finset.sum_congr rfl fun j hj => ?_
    rw [Function.update_of_ne (Finset.ne_of_mem_erase hj)]
  unfold count
  rw [← Finset.add_sum_erase _ _ (Finset.mem_univ i),
    ← Finset.add_sum_erase _ (fun j => (p (f j)).toNat) (Finset.mem_univ i), hrest,
    Function.update_self]
  omega

end count

end GmsvPg.Library
