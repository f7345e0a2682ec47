/-
# A stack addressed from both ends

The stack through which a program in C and an interpreter exchange values, with its bottom at
the head of the list.  A positive index counts from the bottom, a negative one from the top;
an index that is not on the stack has no result.
-/
import Mathlib.Algebra.Order.Ring.Int
import Mathlib.Tactic.Linarith

namespace GmsvPg.Library.LuaStack

variable {α : Type}

/-- The place of an index, counted from the bottom. -/
def position (S : List α) (i : ℤ) : Option ℕ :=
  if 0 < i ∧ i ≤ S.length then some (i - 1).toNat
  else if i < 0 ∧ -(S.length : ℤ) ≤ i then some (S.length + i).toNat
  else none

/-- The value at an index. -/
def value (S : List α) (i : ℤ) : Option α := (position S i).bind fun p => S[p]?

/-- The `n` topmost values are taken off. -/
def pop (S : List α) (n : ℕ) : Option (List α) :=
  if n ≤ S.length then some (S.take (S.length - n)) else none

/-- The value at an index is taken out, and those above it move down. -/
def remove (S : List α) (i : ℤ) : Option (List α) := (position S i).map S.eraseIdx

/-- The topmost value is moved to an index, and those above it move up. -/
def insert (S : List α) (i : ℤ) : Option (List α) :=
  S.getLast?.bind fun a => (position S i).map fun p => S.dropLast.insertIdx p a

variable {S ys : List α} {a b c : α} {i : ℤ} {n : ℕ}

/-- The two indices of the value that `S` is under. -/
lemma position_append (hys : ys ≠ []) (hi : i = S.length + 1 ∨ i = -ys.length) :
    position (S ++ ys) i = some S.length := by
  have hpos := List.length_pos_iff.2 hys
  have hlen : ((S ++ ys).length : ℤ) = S.length + ys.length := by
    rw [List.length_append, Nat.cast_add]
  rw [position, hlen]
  rcases hi with rfl | rfl
  · rw [if_pos ⟨by omega, by omega⟩]
    congr 1
    omega
  · rw [if_neg (by omega), if_pos ⟨by omega, by omega⟩]
    congr 1
    omega

lemma value_append (hi : i = S.length + 1 ∨ i = -(a :: ys).length) :
    value (S ++ a :: ys) i = some a := by
  rw [value, position_append (List.cons_ne_nil a ys) hi, Option.bind_some,
    List.getElem?_append_right le_rfl, Nat.sub_self, List.getElem?_cons_zero]

lemma value_top : value (S ++ [a]) (-1) = some a := value_append (.inr rfl)

lemma value_second : value (S ++ [a] ++ [b]) (-2) = some a := by
  rw [List.append_assoc]
  exact value_append (.inr rfl)

lemma value_third : value (S ++ [a] ++ [b] ++ [c]) (-3) = some a := by
  rw [List.append_assoc, List.append_assoc]
  exact value_append (.inr rfl)

/-- The index that a value has had on the top is still its own. -/
lemma value_length : value (S ++ a :: ys) (S ++ [a]).length = some a := by
  refine value_append (.inl ?_)
  rw [List.length_append, Nat.cast_add]
  rfl

lemma pop_append (hn : ys.length = n) : pop (S ++ ys) n = some S := by
  rw [pop, List.length_append, if_pos (by omega), hn, Nat.add_sub_cancel, List.take_left']
  rfl

lemma remove_append (hi : i = S.length + 1 ∨ i = -(a :: ys).length) :
    remove (S ++ a :: ys) i = some (S ++ ys) := by
  rw [remove, position_append (List.cons_ne_nil a ys) hi, Option.map_some,
    List.eraseIdx_append_of_length_le le_rfl, Nat.sub_self, List.eraseIdx_cons_zero]

lemma insertIdx_length (S ys : List α) (a : α) :
    (S ++ ys).insertIdx S.length a = S ++ a :: ys := by
  induction S with
  | nil => exact List.insertIdx_zero
  | cons b S ih => rw [List.cons_append, List.length_cons, List.insertIdx_succ_cons, ih,
      List.cons_append]

lemma insert_append (hi : i = S.length + 1 ∨ i = -(ys ++ [a]).length) :
    insert (S ++ (ys ++ [a])) i = some (S ++ a :: ys) := by
  have hlast : (S ++ (ys ++ [a])).getLast? = some a := by
    rw [← List.append_assoc, List.getLast?_concat]
  rw [insert, hlast, Option.bind_some, position_append (by simp) hi, Option.map_some,
    ← List.append_assoc, List.dropLast_concat, insertIdx_length]

end GmsvPg.Library.LuaStack
