/-
# Registries of references

A registry hands out references, numbered from 1 in the order of creation, and takes them
back; 0 stands for no reference.  A program keeps its references in fields.  The registry is
balanced against them when each reference that was created has been freed once, or is in one
field.  An operation that works on some of the fields is judged on these alone: what it does
there carries over to a balance with any other fields besides.
-/
import Mathlib.Algebra.BigOperators.Group.List.Basic
import Mathlib.Algebra.Order.Group.Multiset

namespace GmsvPg.Library

/-- A registry: how many references were created, and which were freed, in order. -/
structure Registry where
  created : ℕ := 0
  freed : List ℕ := []
deriving DecidableEq, Repr

namespace Registry

/-- The reference that is created next. -/
def fresh (r : Registry) : ℕ := r.created + 1

/-- A reference is created. -/
def create (r : Registry) : Registry := { r with created := r.created + 1 }

/-- A reference is freed. -/
def free (r : Registry) (n : ℕ) : Registry := { r with freed := r.freed ++ [n] }

/-- A reference is created if there is something to refer to. -/
def createIf (r : Registry) (b : Bool) : ℕ × Registry :=
  if b then (r.fresh, r.create) else (0, r)

/-- What a field holds is freed, if it holds a reference. -/
def release (r : Registry) (n : ℕ) : Registry := if n = 0 then r else r.free n

/-- What some fields hold is freed. -/
def releaseAll (r : Registry) (fields : List ℕ) : Registry := fields.foldl release r

/-- The number of references that were created and not freed. -/
def outstanding (r : Registry) : ℤ := r.created - r.freed.length

/-! ### What fields hold -/

/-- What a field holds. -/
def held (n : ℕ) : Multiset ℕ := if n = 0 then 0 else {n}

/-- What some fields hold. -/
def heldAll (fields : List ℕ) : Multiset ℕ := (fields.map held).sum

@[simp] lemma held_zero : held 0 = 0 := rfl

lemma held_of_ne {n : ℕ} (h : n ≠ 0) : held n = {n} := if_neg h

@[simp] lemma held_fresh (r : Registry) : held r.fresh = {r.fresh} := held_of_ne (Nat.succ_ne_zero _)

@[simp] lemma heldAll_nil : heldAll [] = 0 := rfl

@[simp] lemma heldAll_cons (n : ℕ) (fields : List ℕ) :
    heldAll (n :: fields) = held n + heldAll fields := rfl

lemma heldAll_append (l l' : List ℕ) : heldAll (l ++ l') = heldAll l + heldAll l' := by
  rw [heldAll, List.map_append, List.sum_append]
  rfl

/-! ### Balance -/

/-- Each reference that was created has been freed once, or is held once; and nothing else has
been freed. -/
def Balanced (r : Registry) (H : Multiset ℕ) : Prop :=
  (r.freed : Multiset ℕ) + H = (List.range' 1 r.created : Multiset ℕ)

variable {r r' r'' : Registry} {H H' H'' : Multiset ℕ}

lemma Balanced.init : Balanced {} 0 := rfl

lemma Balanced.mem_of_mem_freed (h : r.Balanced H) {n : ℕ} (hn : n ∈ r.freed) :
    1 ≤ n ∧ n ≤ r.created := by
  have hmem : n ∈ (List.range' 1 r.created : Multiset ℕ) := by
    rw [← h]
    exact Multiset.mem_add.2 (.inl hn)
  have hrange := List.mem_range'_1.1 (Multiset.mem_coe.1 hmem)
  omega

lemma Balanced.nodup (h : r.Balanced H) : r.freed.Nodup := by
  have hnodup : ((r.freed : Multiset ℕ) + H).Nodup := by
    rw [h]
    exact Multiset.coe_nodup.2 List.nodup_range'
  exact Multiset.coe_nodup.1 (Multiset.nodup_add.1 hnodup).1

/-- Zero has not been freed, and no reference twice. -/
theorem Balanced.freed_once (h : r.Balanced H) : 0 ∉ r.freed ∧ r.freed.Nodup := by
  refine ⟨fun hzero => ?_, h.nodup⟩
  have hmem := h.mem_of_mem_freed hzero
  omega

/-- When nothing is held, each reference has been freed once. -/
theorem Balanced.count_freed (h : r.Balanced 0) {n : ℕ} (hle : 1 ≤ n) (hn : n ≤ r.created) :
    r.freed.count n = 1 := by
  have hfreed : (r.freed : Multiset ℕ) = (List.range' 1 r.created : Multiset ℕ) := by
    rw [← h, add_zero]
  refine List.count_eq_one_of_mem h.nodup ?_
  rw [← Multiset.mem_coe, hfreed, Multiset.mem_coe, List.mem_range'_1]
  omega

/-! ### What an operation on some fields does to the balance -/

/-- An operation that finds `H` in its fields and leaves `H'` keeps the balance, whatever else
is held. -/
def Transfers (r : Registry) (H : Multiset ℕ) (r' : Registry) (H' : Multiset ℕ) : Prop :=
  ∀ K, r.Balanced (H + K) → r'.Balanced (H' + K)

lemma Transfers.refl (r : Registry) (H : Multiset ℕ) : r.Transfers H r H := fun _ h => h

lemma Transfers.of_eq (hr : r = r') (hH : H = H') : r.Transfers H r' H' := by
  rw [hr, hH]
  exact .refl r' H'

lemma Transfers.trans (h : r.Transfers H r' H') (h' : r'.Transfers H' r'' H'') :
    r.Transfers H r'' H'' := fun K hK => h' K (h K hK)

/-- **Frame.**  What else is held stays held. -/
lemma Transfers.frame (h : r.Transfers H r' H') (K : Multiset ℕ) :
    r.Transfers (H + K) r' (H' + K) := by
  intro L hL
  rw [add_assoc] at hL ⊢
  exact h (K + L) hL

lemma Transfers.frame_left (h : r.Transfers H r' H') (K : Multiset ℕ) :
    r.Transfers (K + H) r' (K + H') := by
  rw [add_comm K H, add_comm K H']
  exact h.frame K

lemma Transfers.balanced (h : r.Transfers H r' H') (hr : r.Balanced H) : r'.Balanced H' := by
  have hbalanced := h 0 (by rwa [add_zero])
  rwa [add_zero] at hbalanced

lemma transfers_create (r : Registry) : r.Transfers 0 r.create {r.fresh} := by
  intro K h
  have h : (r.freed : Multiset ℕ) + K = (List.range' 1 r.created : Multiset ℕ) := by
    rw [← h, zero_add]
  calc (r.freed : Multiset ℕ) + ({r.fresh} + K)
    _ = {r.fresh} + ((r.freed : Multiset ℕ) + K) := add_left_comm _ _ _
    _ = {r.fresh} + (List.range' 1 r.created : Multiset ℕ) := by rw [h]
    _ = (List.range' 1 r.created : Multiset ℕ) + {r.fresh} := add_comm _ _
    _ = (List.range' 1 r.create.created : Multiset ℕ) := by
        rw [create, List.range'_1_concat, ← Multiset.coe_add, fresh, Nat.add_comm 1]
        rfl

lemma transfers_free (r : Registry) (n : ℕ) : r.Transfers {n} (r.free n) 0 := by
  intro K h
  calc ((r.freed ++ [n] : List ℕ) : Multiset ℕ) + (0 + K)
    _ = (r.freed : Multiset ℕ) + {n} + K := by
        rw [zero_add, ← Multiset.coe_add]
        rfl
    _ = (r.freed : Multiset ℕ) + ({n} + K) := add_assoc _ _ _
    _ = (List.range' 1 r.created : Multiset ℕ) := h

lemma transfers_createIf (r : Registry) (b : Bool) :
    r.Transfers 0 (r.createIf b).2 (held (r.createIf b).1) := by
  cases b with
  | true =>
      show r.Transfers 0 r.create (held r.fresh)
      rw [held_fresh]
      exact transfers_create r
  | false => exact .refl r 0

/-- One more reference is created, if there is something to refer to. -/
lemma Transfers.createIf (h : r.Transfers H r' H') (b : Bool) :
    r.Transfers H (r'.createIf b).2 (H' + held (r'.createIf b).1) := by
  have hcreate := (transfers_createIf r' b).frame_left H'
  rw [add_zero] at hcreate
  exact h.trans hcreate

lemma transfers_release (r : Registry) (n : ℕ) : r.Transfers (held n) (r.release n) 0 := by
  by_cases hn : n = 0
  · rw [hn]
    exact .refl r 0
  · rw [held_of_ne hn, release, if_neg hn]
    exact transfers_free r n

lemma transfers_releaseAll (r : Registry) (fields : List ℕ) :
    r.Transfers (heldAll fields) (r.releaseAll fields) 0 := by
  induction fields generalizing r with
  | nil => exact .refl r 0
  | cons n fields ih =>
      rw [heldAll_cons]
      have hfirst := (transfers_release r n).frame (heldAll fields)
      rw [zero_add] at hfirst
      exact hfirst.trans (ih (r.release n))

/-! ### The number of references outstanding -/

lemma outstanding_create (r : Registry) : r.create.outstanding = r.outstanding + 1 := by
  show ((r.created + 1 : ℕ) : ℤ) - r.freed.length = r.created - r.freed.length + 1
  omega

lemma outstanding_free (r : Registry) (n : ℕ) : (r.free n).outstanding = r.outstanding - 1 := by
  show (r.created : ℤ) - (r.freed ++ [n]).length = r.created - r.freed.length - 1
  rw [List.length_append, List.length_singleton]
  omega

/-- One more, if there is something to refer to. -/
lemma outstanding_createIf (r : Registry) (b : Bool) :
    (r.createIf b).2.outstanding = r.outstanding + (held (r.createIf b).1).card := by
  cases b with
  | true =>
      show r.create.outstanding = r.outstanding + (held r.fresh).card
      rw [held_fresh, outstanding_create, Multiset.card_singleton]
      rfl
  | false => exact (add_zero _).symm

lemma outstanding_release (r : Registry) (n : ℕ) :
    (r.release n).outstanding = r.outstanding - (held n).card := by
  by_cases hn : n = 0
  · rw [hn]
    exact (sub_zero _).symm
  · rw [release, if_neg hn, held_of_ne hn, outstanding_free, Multiset.card_singleton]
    rfl

lemma outstanding_releaseAll (r : Registry) (fields : List ℕ) :
    (r.releaseAll fields).outstanding = r.outstanding - (heldAll fields).card := by
  induction fields generalizing r with
  | nil => exact (sub_zero _).symm
  | cons n fields ih =>
      have hrest := ih (r.release n)
      rw [outstanding_release] at hrest
      rw [heldAll_cons, Multiset.card_add, Int.natCast_add, ← Int.sub_sub]
      exact hrest

end Registry

/-! ### Sums over lists of objects -/

/-- A sum over the objects of a list, with one of them set apart. -/
lemma sum_map_modify {α M : Type*} [AddCommMonoid M] (f : α → M) {l : List α} {i : ℕ} {x : α}
    (h : l[i]? = some x) :
    ∃ K, (l.map f).sum = f x + K ∧ ∀ g, ((l.modify i g).map f).sum = f (g x) + K := by
  induction l generalizing i with
  | nil => exact absurd h (by simp)
  | cons a l ih =>
      cases i with
      | zero =>
          obtain rfl : a = x := by simpa using h
          exact ⟨(l.map f).sum, by simp, fun g => by simp [List.modify_zero_cons]⟩
      | succ i =>
          obtain ⟨K, hsum, hmodify⟩ := ih (by simpa using h)
          refine ⟨f a + K, ?_, fun g => ?_⟩
          · rw [List.map_cons, List.sum_cons, hsum, add_left_comm]
          · rw [List.modify_succ_cons, List.map_cons, List.sum_cons, hmodify, add_left_comm]

end GmsvPg.Library
