/-
# Handing items over from a queue

An abstract protocol: items are accepted into a queue, agents claim them from the queue,
hand them over to the environment, and settle them (mark them as done).  Handing over and
settling are two separate acts, in either order.  The order of the queue plays no role
here, so everything is a multiset.

The protocol promises two things, whatever the interleaving of the agents: every accepted
item is in exactly one place (the queue, the hands of an agent, the environment), and an
item that an agent has yet to settle is claimed by that agent alone.
-/
import Mathlib.Algebra.BigOperators.Group.Finset.Piecewise
import Mathlib.Algebra.Order.BigOperators.Group.Multiset

namespace GmsvPg.Library

/-- What an agent has claimed: the items it has yet to hand over, and those it has yet to
settle. -/
@[ext]
structure Custody (α : Type*) where
  holds : Multiset α
  pending : Multiset α

/-- A state of the protocol. -/
@[ext]
structure Handoff (ι α : Type*) where
  queue : Multiset α
  custody : ι → Custody α
  handed : Multiset α
  settled : Set α
  accepted : Multiset α

namespace Handoff

variable {ι α : Type*}

section Steps

variable [DecidableEq ι]

/-- The steps of the protocol. -/
inductive Step (s : Handoff ι α) : Handoff ι α → Prop
  /-- nothing moves; more items may count as settled -/
  | keep {S : Set α} (h : s.settled ⊆ S) : Step s { s with settled := S }
  /-- an item enters the queue -/
  | accept (x : α) : Step s { s with queue := x ::ₘ s.queue, accepted := x ::ₘ s.accepted }
  /-- an agent takes items out of the queue -/
  | claim (i : ι) {m q : Multiset α} (h : s.queue = m + q) :
      Step s { s with
        queue := q
        custody := Function.update s.custody i
          ⟨m + (s.custody i).holds, m + (s.custody i).pending⟩ }
  /-- an agent hands items over -/
  | handOver (i : ι) {m l : Multiset α} (h : (s.custody i).holds = m + l) :
      Step s { s with
        custody := Function.update s.custody i ⟨l, (s.custody i).pending⟩
        handed := m + s.handed }
  /-- an agent settles an item -/
  | settle (i : ι) {x : α} {p : Multiset α} (h : (s.custody i).pending = x ::ₘ p) :
      Step s { s with
        custody := Function.update s.custody i ⟨(s.custody i).holds, p⟩
        settled := insert x s.settled }

lemma Step.congr {s t u : Handoff ι α} (h : Step s u) (hqueue : t.queue = u.queue)
    (hcustody : t.custody = u.custody) (hhanded : t.handed = u.handed)
    (hsettled : t.settled = u.settled) (haccepted : t.accepted = u.accepted) : Step s t := by
  rwa [Handoff.ext hqueue hcustody hhanded hsettled haccepted]

end Steps

variable [Fintype ι]

/-- Everything the agents have yet to hand over. -/
def holds (s : Handoff ι α) : Multiset α := ∑ i, (s.custody i).holds

/-- Everything the agents have yet to settle. -/
def pending (s : Handoff ι α) : Multiset α := ∑ i, (s.custody i).pending

/-- What the protocol keeps. -/
structure Valid (s : Handoff ι α) : Prop where
  /-- every accepted item is in exactly one place -/
  place : s.queue + s.holds + s.handed = s.accepted
  /-- an item yet to be settled is claimed once -/
  exclusive : s.queue + s.pending ≤ s.accepted
  /-- an accepted item is waiting, in the hands of an agent, or settled -/
  unsettled : ∀ x ∈ s.accepted, x ∈ s.queue ∨ x ∈ s.pending ∨ x ∈ s.settled

/-! ### What follows when no item is accepted twice -/

namespace Valid

variable {s : Handoff ι α} (hs : s.Valid) (hnodup : s.accepted.Nodup)

include hs

lemma queue_add_holds_le : s.queue + s.holds ≤ s.accepted :=
  hs.place ▸ Multiset.le_add_right _ _

include hnodup

lemma queue_nodup : s.queue.Nodup :=
  Multiset.nodup_of_le (le_trans (Multiset.le_add_right _ _) hs.exclusive) hnodup

end Valid

/-! ### Changing the custody of one agent -/

variable [DecidableEq ι]

lemma sum_update {f : Custody α → Multiset α} (c : ι → Custody α) (i : ι) (k : Custody α)
    {m l : Multiset α} (h : m + f (c i) = l + f k) :
    m + ∑ j, f (c j) = l + ∑ j, f (Function.update c i k j) := by
  have hrest : ∑ j ∈ Finset.univ.erase i, f (Function.update c i k j) =
      ∑ j ∈ Finset.univ.erase i, f (c j) := by
    refine Finset.sum_congr rfl fun j hj => ?_
    rw [Function.update_of_ne (Finset.ne_of_mem_erase hj)]
  rw [← Finset.add_sum_erase _ _ (Finset.mem_univ i),
    ← Finset.add_sum_erase _ (fun j => f (Function.update c i k j)) (Finset.mem_univ i),
    hrest, Function.update_self, ← add_assoc, ← add_assoc, h]

/-- **The protocol keeps its promises.** -/
theorem Valid.step {s t : Handoff ι α} (hs : s.Valid) (hst : Step s t) : t.Valid := by
  cases hst with
  | keep h =>
      exact ⟨hs.place, hs.exclusive, fun x hx =>
        (hs.unsettled x hx).imp_right (Or.imp_right fun hx => h hx)⟩
  | accept x =>
      refine ⟨?_, ?_, fun y hy => ?_⟩
      · have := hs.place
        simp only [Multiset.cons_add, holds] at this ⊢
        rw [this]
      · have := hs.exclusive
        simp only [Multiset.cons_add, pending] at this ⊢
        exact Multiset.cons_le_cons x this
      · rcases Multiset.mem_cons.1 hy with rfl | hy
        · exact .inl (Multiset.mem_cons_self y _)
        · exact (hs.unsettled y hy).imp_left (Multiset.mem_cons_of_mem)
  | @claim i m q h =>
      have hholds := sum_update (f := Custody.holds) s.custody i
        ⟨m + (s.custody i).holds, m + (s.custody i).pending⟩ (m := m) (l := 0) (by simp)
      have hpending := sum_update (f := Custody.pending) s.custody i
        ⟨m + (s.custody i).holds, m + (s.custody i).pending⟩ (m := m) (l := 0) (by simp)
      rw [zero_add] at hholds hpending
      refine ⟨?_, ?_, fun y hy => ?_⟩
      · have := hs.place
        simp only [holds] at this ⊢
        rw [← hholds, ← this, h]
        ac_rfl
      · have := hs.exclusive
        simp only [pending] at this ⊢
        rw [← hpending, ← add_assoc, add_comm q m, ← h]
        exact this
      · have := hs.unsettled y hy
        simp only [pending] at this ⊢
        rw [← hpending]
        rw [h] at this
        simp only [Multiset.mem_add] at this ⊢
        tauto
  | @handOver i m l h =>
      have hholds := sum_update (f := Custody.holds) s.custody i
        ⟨l, (s.custody i).pending⟩ (m := 0) (l := m) (by simpa using h)
      have hpending := sum_update (f := Custody.pending) s.custody i
        ⟨l, (s.custody i).pending⟩ (m := 0) (l := 0) (by simp)
      rw [zero_add] at hholds
      rw [zero_add, zero_add] at hpending
      refine ⟨?_, ?_, fun y hy => ?_⟩
      · have := hs.place
        simp only [holds] at this ⊢
        rw [← this, hholds]
        ac_rfl
      · have := hs.exclusive
        simp only [pending] at this ⊢
        rwa [← hpending]
      · have := hs.unsettled y hy
        simp only [pending] at this ⊢
        rwa [← hpending]
  | @settle i x p h =>
      have hholds := sum_update (f := Custody.holds) s.custody i
        ⟨(s.custody i).holds, p⟩ (m := 0) (l := 0) (by simp)
      have hpending := sum_update (f := Custody.pending) s.custody i
        ⟨(s.custody i).holds, p⟩ (m := 0) (l := {x}) (by simpa using h)
      rw [zero_add, zero_add] at hholds
      rw [zero_add] at hpending
      refine ⟨?_, ?_, fun y hy => ?_⟩
      · have := hs.place
        simp only [holds] at this ⊢
        rwa [← hholds]
      · have := hs.exclusive
        simp only [pending] at this ⊢
        rw [hpending] at this
        exact le_trans (by gcongr; exact Multiset.le_add_left _ _) this
      · have := hs.unsettled y hy
        simp only [pending] at this ⊢
        rw [hpending] at this
        simp only [Multiset.mem_add, Multiset.mem_singleton, Set.mem_insert_iff] at this ⊢
        tauto

end Handoff

end GmsvPg.Library
