/-
# State and exceptions

A program of `EStateM ε σ` changes a state and may raise an exception; the state it has
reached by then is kept.  The rules of sequencing and of handlers, on the result of a run and
for triples of a precondition and the two postconditions.
-/
import Mathlib.Init

namespace GmsvPg.Library.Raise

universe u

variable {ε σ α β : Type u} {x : EStateM ε σ α} {s t : σ} {a : α} {e : ε}

@[simp] lemma pure_apply : (pure a : EStateM ε σ α) s = .ok a s := rfl

@[simp] lemma get_apply : (get : EStateM ε σ σ) s = .ok s s := rfl

@[simp] lemma set_apply : (set t : EStateM ε σ PUnit) s = .ok ⟨⟩ t := rfl

@[simp] lemma modify_apply {f : σ → σ} : (modify f : EStateM ε σ PUnit) s = .ok ⟨⟩ (f s) := rfl

@[simp] lemma throw_apply : (throw e : EStateM ε σ α) s = .error e s := rfl

/-- A program that returns is followed by the next. -/
lemma bind_ok {f : α → EStateM ε σ β} (h : x s = .ok a t) : (x >>= f) s = f a t := by
  simp only [bind, EStateM.bind, h]

/-- A program that raises is followed by nothing. -/
lemma bind_error {f : α → EStateM ε σ β} (h : x s = .error e t) :
    (x >>= f) s = .error e t := by
  simp only [bind, EStateM.bind, h]

/-- Where a sequence returns, both programs have. -/
lemma bind_eq_ok {f : α → EStateM ε σ β} {b : β} (h : (x >>= f) s = .ok b t) :
    ∃ a u, x s = .ok a u ∧ f a u = .ok b t := by
  cases hx : x s with
  | ok a u => exact ⟨a, u, rfl, (bind_ok hx).symm.trans h⟩
  | error e u =>
      rw [bind_error hx] at h
      cases h

/-- The handler of a program that returns does not run. -/
lemma tryCatch_ok {f : ε → EStateM ε σ α} (h : x s = .ok a t) :
    tryCatch x f s = .ok a t := by
  show EStateM.tryCatch x f s = _
  delta EStateM.tryCatch
  simp only [h]

/-- The handler of a program that raises runs in the state the program has reached. -/
lemma tryCatch_error {f : ε → EStateM ε σ α} (h : x s = .error e t) :
    tryCatch x f s = f e t := by
  show EStateM.tryCatch x f s = _
  delta EStateM.tryCatch
  simp only [h]
  rfl

/-- A loop whose turn returns goes on with the rest. -/
lemma forM_cons_ok {f : α → EStateM ε σ PUnit} {l : List α} (h : f a s = .ok ⟨⟩ t) :
    (a :: l).forM f s = l.forM f t := bind_ok h

/-- A loop that returns from each turn, in a state that the elements so far determine. -/
lemma forM_prefix {f : α → EStateM ε σ PUnit} {T : List α → σ} {l : List α}
    (h : ∀ xs a ys, l = xs ++ a :: ys → f a (T xs) = .ok ⟨⟩ (T (xs ++ [a]))) :
    l.forM f (T []) = .ok ⟨⟩ (T l) := by
  have hrest : ∀ ys xs, l = xs ++ ys → ys.forM f (T xs) = .ok ⟨⟩ (T l) := by
    intro ys
    induction ys with
    | nil =>
        intro xs hl
        rw [hl, List.append_nil]
        rfl
    | cons a ys ih =>
        intro xs hl
        rw [forM_cons_ok (h xs a ys hl)]
        exact ih (xs ++ [a]) (by rw [hl, List.append_assoc]; rfl)
  exact hrest l [] rfl

/-! ### Triples -/

variable {P P' : σ → Prop} {Q Q' : α → σ → Prop} {R R' : ε → σ → Prop}

/-- Started where `P` holds, the program returns with `Q`, or raises with `R`. -/
def Triple (P : σ → Prop) (x : EStateM ε σ α) (Q : α → σ → Prop) (R : ε → σ → Prop) : Prop :=
  ∀ s, P s → match x s with
    | .ok a t => Q a t
    | .error e t => R e t

namespace Triple

lemma ok (h : Triple P x Q R) (hs : P s) (hx : x s = .ok a t) : Q a t := by
  have hs := h s hs
  rwa [hx] at hs

lemma error (h : Triple P x Q R) (hs : P s) (hx : x s = .error e t) : R e t := by
  have hs := h s hs
  rwa [hx] at hs

lemma mono (h : Triple P' x Q' R') (hP : ∀ s, P s → P' s) (hQ : ∀ a s, Q' a s → Q a s)
    (hR : ∀ e s, R' e s → R e s) : Triple P x Q R := by
  intro s hs
  cases hx : x s with
  | ok a t => exact hQ a t (h.ok (hP s hs) hx)
  | error e t => exact hR e t (h.error (hP s hs) hx)

lemma pure (h : ∀ s, P s → Q a s) : Triple P (pure a) Q R := fun s hs => h s hs

lemma throw (h : ∀ s, P s → R e s) : Triple P (throw e : EStateM ε σ α) Q R := fun s hs => h s hs

lemma modify {f : σ → σ} {Q : PUnit → σ → Prop} (h : ∀ s, P s → Q ⟨⟩ (f s)) :
    Triple P (modify f : EStateM ε σ PUnit) Q R := fun s hs => h s hs

/-- The rule of sequencing. -/
lemma bind {f : α → EStateM ε σ β} {M : α → σ → Prop} {Q : β → σ → Prop}
    (hx : Triple P x M R) (hf : ∀ a, Triple (M a) (f a) Q R) : Triple P (x >>= f) Q R := by
  intro s hs
  cases h : x s with
  | ok a t =>
      rw [bind_ok h]
      exact hf a t (hx.ok hs h)
  | error e t =>
      rw [bind_error h]
      exact hx.error hs h

/-- The rule of handlers. -/
lemma tryCatch {f : ε → EStateM ε σ α} {M : ε → σ → Prop} (hx : Triple P x Q M)
    (hf : ∀ e, Triple (M e) (f e) Q R) : Triple P (tryCatch x f) Q R := by
  intro s hs
  cases h : x s with
  | ok a t =>
      rw [tryCatch_ok h]
      exact hx.ok hs h
  | error e t =>
      rw [tryCatch_error h]
      exact hf e t (hx.error hs h)

/-- The rule of case distinctions. -/
lemma ite {c : Prop} [Decidable c] {y : EStateM ε σ α} (hx : c → Triple P x Q R)
    (hy : ¬ c → Triple P y Q R) : Triple P (if c then x else y) Q R := by
  by_cases hc : c
  · rw [if_pos hc]
    exact hx hc
  · rw [if_neg hc]
    exact hy hc

end Triple

end GmsvPg.Library.Raise
