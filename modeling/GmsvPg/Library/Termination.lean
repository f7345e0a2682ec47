/-
# Work left to do

A machine whose steps are driven by its own threads and by its surroundings comes to rest if
there is a number that each step of its own lowers and that no other step raises: its own steps
are then bounded in every run, whatever the order, and from each state its own steps lead to a
state in which it rests.
-/
import GmsvPg.Library.Machine

namespace GmsvPg.Library.Machine

variable {σ α : Type*} {M : Machine σ α} {own others : α → Bool} {work : σ → ℕ}

/-- `work` bounds the own steps: they lower it, and the steps of `others` do not raise it. -/
structure Bounded (M : Machine σ α) (own others : α → Bool) (work : σ → ℕ) : Prop where
  lowers : ∀ {s t : σ} {a : α}, own a = true → M.next s a = some t → work t < work s
  keeps : ∀ {s t : σ} {a : α}, others a = true → M.next s a = some t → work t ≤ work s

/-- The machine rests: none of its own steps is enabled. -/
def Rests (M : Machine σ α) (own : α → Bool) (s : σ) : Prop :=
  ∀ a, own a = true → M.next s a = none

/-- From each state the machine comes to rest by its own steps. -/
theorem Bounded.exists_rests (h : M.Bounded own others work) (s : σ) :
    ∃ as t, (∀ a ∈ as, own a = true) ∧ M.run s as = some t ∧ M.Rests own t := by
  induction hn : work s using Nat.strongRecOn generalizing s with
  | ind n ih =>
      subst hn
      by_cases hrests : M.Rests own s
      · exact ⟨[], s, by simp, rfl, hrests⟩
      · simp only [Rests, not_forall] at hrests
        obtain ⟨a, hown, hnext⟩ := hrests
        obtain ⟨u, hu⟩ := Option.ne_none_iff_exists'.1 hnext
        obtain ⟨as, t, has, hrun, ht⟩ := ih _ (h.lowers hown hu) u rfl
        refine ⟨a :: as, t, ?_, Option.bind_eq_some_iff.2 ⟨u, hu, hrun⟩, ht⟩
        rintro b (_ | ⟨_, hb⟩)
        · exact hown
        · exact has b hb

/-- What the steps of a kind keep, a run of such steps keeps. -/
theorem keeps_of_run {I : σ → Prop} {E : α → Prop}
    (hstep : ∀ s t a, I s → E a → M.next s a = some t → I t) {s t : σ} {as : List α}
    (has : ∀ a ∈ as, E a) (hs : I s) (hrun : M.run s as = some t) : I t := by
  induction as generalizing s with
  | nil =>
      obtain rfl := Option.some.inj hrun
      exact hs
  | cons a as ih =>
      obtain ⟨u, hu, hrun⟩ := Option.bind_eq_some_iff.1 hrun
      exact ih (fun b hb => has b (List.mem_cons_of_mem a hb))
        (hstep _ _ _ hs (has a List.mem_cons_self) hu) hrun

/-- The same for a run whose steps all meet a condition, from a state that such steps reach. -/
theorem keeps_of_runIf {C : σ → α → Prop} [∀ s a, Decidable (C s a)] {I : σ → Prop}
    (hstep : ∀ s t a, M.Reach C s → I s → C s a → M.next s a = some t → I t) {s t : σ}
    {as : List α} (hr : M.Reach C s) (hs : I s) (hrun : M.runIf C s as = some t) : I t := by
  induction as generalizing s with
  | nil =>
      obtain rfl : s = t := Option.some.inj hrun
      exact hs
  | cons a as ih =>
      by_cases hC : C s a
      · rw [runIf, if_pos hC] at hrun
        obtain ⟨u, hu, hrun⟩ := Option.bind_eq_some_iff.1 hrun
        exact ih (.step hr hC hu) (hstep _ _ _ hr hs hC hu) hrun
      · rw [runIf, if_neg hC] at hrun
        cases hrun

end GmsvPg.Library.Machine
