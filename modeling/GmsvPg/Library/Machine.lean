/-
# Machines and their runs

A machine is an initial state together with a partial, deterministic transition function
on labelled steps; the nondeterminism of a concurrent program (which thread moves, what
the environment answers) is in the labels.  The file fixes the two notions of run that the
rest of the development uses: the states reachable by any sequence of steps, and the
states reachable by steps that all meet a condition on the state before the step.  The
induction over a run is packaged once, as `Reach.invariant`.
-/
import Mathlib.Data.Option.Basic
import Mathlib.Tactic.Common

namespace GmsvPg.Library

/-- A machine with states `σ` and step labels `α`. -/
structure Machine (σ α : Type*) where
  /-- The initial state. -/
  init : σ
  /-- The state after a step, if the step is enabled. -/
  next : σ → α → Option σ

namespace Machine

variable {σ α : Type*} (M : Machine σ α)

/-- The states reachable by steps that all meet `C` in the state before the step. -/
inductive Reach (C : σ → α → Prop) : σ → Prop
  | init : Reach C M.init
  | step {s t : σ} {a : α} : Reach C s → C s a → M.next s a = some t → Reach C t

/-- The states reachable by any steps. -/
abbrev Reachable : σ → Prop := M.Reach fun _ _ => True

/-- The state after a list of steps, if each of them is enabled. -/
def run : σ → List α → Option σ
  | s, [] => some s
  | s, a :: as => (M.next s a).bind fun t => run t as

/-- The state after a list of steps that all meet a decidable condition. -/
def runIf (C : σ → α → Prop) [∀ s a, Decidable (C s a)] : σ → List α → Option σ
  | s, [] => some s
  | s, a :: as => if C s a then (M.next s a).bind fun t => runIf C t as else none

variable {M} {C D : σ → α → Prop}

lemma Reach.mono (hCD : ∀ s a, C s a → D s a) {s : σ} (h : M.Reach C s) : M.Reach D s := by
  induction h with
  | init => exact .init
  | step _ hC hnext ih => exact .step ih (hCD _ _ hC) hnext

lemma Reach.reachable {s : σ} (h : M.Reach C s) : M.Reachable s :=
  h.mono fun _ _ _ => trivial

/-- **Invariance.**  A property that holds initially and is kept by every step that meets
the condition holds in every state such steps reach.  The step may use that its source is
reachable, hence every invariant proved before. -/
theorem Reach.invariant {I : σ → Prop} (hinit : I M.init)
    (hstep : ∀ s t a, M.Reach C s → I s → C s a → M.next s a = some t → I t)
    {s : σ} (h : M.Reach C s) : I s := by
  induction h with
  | init => exact hinit
  | step hr hC hnext ih => exact hstep _ _ _ hr ih hC hnext

lemma Reach.of_run {s t : σ} {as : List α} (hs : M.Reachable s) (h : M.run s as = some t) :
    M.Reachable t := by
  induction as generalizing s with
  | nil =>
      obtain rfl : s = t := by simpa [run] using h
      exact hs
  | cons a as ih =>
      obtain ⟨u, hu, ht⟩ := Option.bind_eq_some_iff.1 h
      exact ih (.step hs trivial hu) ht

lemma reachable_of_run {t : σ} {as : List α} (h : M.run M.init as = some t) : M.Reachable t :=
  Reach.of_run .init h

lemma Reach.of_runIf [∀ s a, Decidable (C s a)] {s t : σ} {as : List α} (hs : M.Reach C s)
    (h : M.runIf C s as = some t) : M.Reach C t := by
  induction as generalizing s with
  | nil =>
      obtain rfl : s = t := by simpa [runIf] using h
      exact hs
  | cons a as ih =>
      by_cases hC : C s a
      · rw [runIf, if_pos hC] at h
        obtain ⟨u, hu, ht⟩ := Option.bind_eq_some_iff.1 h
        exact ih (.step hs hC hu) ht
      · rw [runIf, if_neg hC] at h
        exact absurd h (by simp)

/-- **Two states of a run.**  A reflexive and transitive relation that holds over every step from
a reachable state holds over every run from one. -/
theorem Reach.related {R : σ → σ → Prop} (hrefl : ∀ s, R s s)
    (htrans : ∀ s t u, R s t → R t u → R s u)
    (hstep : ∀ s t a, M.Reachable s → M.next s a = some t → R s t) {s t : σ} {as : List α}
    (hs : M.Reachable s) (h : M.run s as = some t) : R s t := by
  induction as generalizing s with
  | nil =>
      obtain rfl : s = t := by simpa [run] using h
      exact hrefl s
  | cons a as ih =>
      obtain ⟨u, hu, ht⟩ := Option.bind_eq_some_iff.1 h
      exact htrans s u t (hstep s u a hs hu) (ih (.step hs trivial hu) ht)

/-- A concrete run whose steps all meet the condition, for use in examples of runs. -/
lemma reach_of_runIf [∀ s a, Decidable (C s a)] {t : σ} {as : List α}
    (h : M.runIf C M.init as = some t) : M.Reach C t :=
  Reach.of_runIf .init h

/-- The same, where a part of the condition does not depend on the state. -/
lemma reach_of_runIf_of_forall [∀ s a, Decidable (C s a)] {E : α → Prop} {t : σ} {as : List α}
    (h : M.runIf C M.init as = some t) (hE : ∀ a ∈ as, E a) :
    M.Reach (fun s a => E a ∧ C s a) t := by
  suffices hgen : ∀ s, M.Reach (fun s a => E a ∧ C s a) s → M.runIf C s as = some t →
      M.Reach (fun s a => E a ∧ C s a) t from hgen _ .init h
  clear h
  induction as with
  | nil =>
      intro s hs h
      obtain rfl : s = t := by simpa [runIf] using h
      exact hs
  | cons a as ih =>
      intro s hs h
      by_cases hC : C s a
      · rw [runIf, if_pos hC] at h
        obtain ⟨u, hu, ht⟩ := Option.bind_eq_some_iff.1 h
        exact ih (fun b hb => hE b (List.mem_cons_of_mem _ hb)) u
          (.step hs ⟨hE a List.mem_cons_self, hC⟩ hu) ht
      · rw [runIf, if_neg hC] at h
        exact absurd h (by simp)

end Machine

end GmsvPg.Library
