/-
# The closable queue

The mutex sections of `BlockingQueue<T>` (`pg/src/BlockingQueue.h`), each as a function on
the deque and the `closed` flag.  What a section returns besides the new queue is returned
with it.  Waiting and notification are not part of this file: `take` is the section that
runs once its wait has ended.
-/
import Mathlib.Data.List.Perm.Basic
import Mathlib.Data.List.Nodup

namespace GmsvPg

open List

/-- The state of a `BlockingQueue`. -/
structure BlockingQueue (α : Type) where
  backingQueue : List α := []
  closed : Bool := false

namespace BlockingQueue

variable {α : Type}

/-- `put`: refused once the queue is closed. -/
def put (q : BlockingQueue α) (x : α) : BlockingQueue α × Bool :=
  if q.closed then (q, false) else ({ q with backingQueue := q.backingQueue ++ [x] }, true)

/-- `std::iter_swap` of the head `x` with the first element of the tail that satisfies
`func`: that element, and the tail with `x` in its place. -/
def swapWith (func : α → Bool) (x : α) : List α → Option (α × List α)
  | [] => none
  | y :: ys =>
      if func y then some (y, x :: ys) else (swapWith func x ys).map fun z => (z.1, y :: z.2)

/-- `swapToFrontIf`: `find_if`, then `iter_swap` with the front unless the match is the front
or there is none. -/
def swapToFrontIf (q : BlockingQueue α) (func : α → Bool) : BlockingQueue α × Bool :=
  match q.backingQueue with
  | [] => (q, false)
  | x :: xs =>
      if func x then (q, false)
      else
        match swapWith func x xs with
        | none => (q, false)
        | some (y, ys) => ({ q with backingQueue := y :: ys }, true)

/-- `removeIf`. -/
def removeIf (q : BlockingQueue α) (func : α → Bool) : BlockingQueue α × Bool :=
  ({ q with backingQueue := q.backingQueue.filter fun x => !func x }, q.backingQueue.any func)

/-- `take`, after its wait: the front element, or nothing if the queue is closed and empty.
`none` while the wait predicate is false. -/
def take (q : BlockingQueue α) : Option (BlockingQueue α × Option α) :=
  match q.backingQueue with
  | [] => if q.closed then some (q, none) else none
  | x :: xs => some ({ q with backingQueue := xs }, some x)

/-- `clear`. -/
def clear (q : BlockingQueue α) : BlockingQueue α × List α :=
  ({ q with backingQueue := [] }, q.backingQueue)

/-- `closeAndClear`. -/
def closeAndClear (q : BlockingQueue α) : BlockingQueue α × List α :=
  (⟨[], true⟩, q.backingQueue)

lemma swapWith_perm {func : α → Bool} {x y : α} {xs ys : List α}
    (h : swapWith func x xs = some (y, ys)) : List.Perm (y :: ys) (x :: xs) := by
  induction xs generalizing y ys with
  | nil => exact absurd h (by simp [swapWith])
  | cons z xs ih =>
      by_cases hz : func z = true
      · obtain ⟨rfl, rfl⟩ : z = y ∧ x :: xs = ys := by simpa [swapWith, hz] using h
        exact .swap _ _ _
      · rw [swapWith, if_neg hz] at h
        obtain ⟨⟨w, ws⟩, hw, hy⟩ := Option.map_eq_some_iff.1 h
        obtain ⟨rfl, rfl⟩ : w = y ∧ z :: ws = ys := by simpa using hy
        calc w :: z :: ws
          _ ~ z :: w :: ws := .swap _ _ _
          _ ~ z :: x :: xs := (ih hw).cons z
          _ ~ x :: z :: xs := .swap _ _ _

/-- Moving an element to the front only permutes the queue. -/
lemma swapToFrontIf_perm (q : BlockingQueue α) (func : α → Bool) :
    List.Perm (q.swapToFrontIf func).1.backingQueue q.backingQueue := by
  unfold swapToFrontIf
  split
  · exact .refl _
  · rename_i x xs hq
    split
    · exact .refl _
    · split
      · exact .refl _
      · rename_i y ys hswap
        rw [hq]
        exact swapWith_perm hswap

lemma swapWith_eq {func : α → Bool} (x : α) {m : α} {xs : List α} (ys : List α)
    (hxs : ∀ y ∈ xs, func y = false) (hm : func m = true) :
    swapWith func x (xs ++ m :: ys) = some (m, xs ++ x :: ys) := by
  induction xs with
  | nil => exact if_pos hm
  | cons y xs ih =>
      have hy : ¬ func y = true := by rw [hxs y List.mem_cons_self]; decide
      rw [List.cons_append, swapWith, if_neg hy, ih fun z hz => hxs z (List.mem_cons_of_mem y hz)]
      rfl

/-- A list in which `m` stands between `xs` and `ys`, with `m` and its front exchanged. -/
def exchanged : (xs : List α) → (m : α) → (ys : List α) → List α
  | [], m, ys => m :: ys
  | x :: xs, m, ys => m :: (xs ++ x :: ys)

lemma exchanged_eq_cons (xs : List α) (m : α) (ys : List α) :
    ∃ rest, exchanged xs m ys = m :: rest := by
  cases xs with
  | nil => exact ⟨ys, rfl⟩
  | cons x xs => exact ⟨xs ++ x :: ys, rfl⟩

/-- Only the front and `m` are displaced. -/
lemma tail_append_sublist_exchanged (xs : List α) (m : α) (ys : List α) :
    xs.tail ++ ys <+ exchanged xs m ys := by
  cases xs with
  | nil => exact (Sublist.refl ys).cons m
  | cons x xs => exact ((Sublist.refl xs).append ((Sublist.refl ys).cons x)).cons m

/-- The first match and the front change places. -/
lemma swapToFrontIf_eq {q : BlockingQueue α} {func : α → Bool} {m : α} {xs ys : List α}
    (hq : q.backingQueue = xs ++ m :: ys) (hxs : ∀ y ∈ xs, func y = false) (hm : func m = true) :
    (q.swapToFrontIf func).1.backingQueue = exchanged xs m ys := by
  cases xs with
  | nil =>
      have hq : q.backingQueue = m :: ys := hq
      rw [swapToFrontIf, hq]
      simp only [hm, if_true]
      exact hq
  | cons x xs =>
      have hq : q.backingQueue = x :: (xs ++ m :: ys) := hq
      have hfront : ¬ func x = true := by rw [hxs x List.mem_cons_self]; decide
      rw [swapToFrontIf, hq]
      simp only [if_neg hfront,
        swapWith_eq x ys (fun y hy => hxs y (List.mem_cons_of_mem x hy)) hm]
      rfl

@[simp] lemma swapToFrontIf_closed (q : BlockingQueue α) (func : α → Bool) :
    (q.swapToFrontIf func).1.closed = q.closed := by
  unfold swapToFrontIf
  split
  · rfl
  · split
    · rfl
    · split <;> rfl

end BlockingQueue

end GmsvPg
