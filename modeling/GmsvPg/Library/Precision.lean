/-
# Numbers of limited precision

A number of `p` digits in base `b` is an integer of at most `p` digits times a power of the
base.  Two such numbers are never closer to each other than either of them divided by `b ^ p`,
so a number that is closer than half of that to one of them is closer to it than to any other.
In particular, if a number of `p` digits is rounded to enough digits in another base, it can be
told from the result.
-/
import Mathlib.Algebra.Order.Field.Power
import Mathlib.Algebra.Order.Ring.Abs
import Mathlib.Tactic.Linarith
import Mathlib.Tactic.Positivity
import Mathlib.Tactic.Ring

namespace GmsvPg.Library

variable {K : Type*} [Field K] [LinearOrder K] [IsStrictOrderedRing K]

/-- `x` has `p` digits in base `b`, which may be followed or preceded by zeros. -/
def HasPrecision (b p : ℕ) (x : K) : Prop := ∃ m k : ℤ, |m| < (b : ℤ) ^ p ∧ x = m * (b : K) ^ k

/-- Of two integers, one below `B`, the other is not much larger than their distance. -/
lemma abs_le_abs_sub_mul {M n B : ℤ} (hn : |n| < B) (h : M ≠ n) : |M| ≤ |M - n| * B := by
  have hpos : 1 ≤ |M - n| := Int.one_le_abs (sub_ne_zero.2 h)
  have hle : |M| ≤ |M - n| + |n| := by
    calc |M| = |(M - n) + n| := by rw [sub_add_cancel]
      _ ≤ |M - n| + |n| := abs_add_le _ _
  nlinarith [mul_nonneg (sub_nonneg.2 hpos) (sub_nonneg.2 (by linarith [abs_nonneg n] : 1 ≤ B))]

section Gap

variable {b p : ℕ} {x y z : K}

/-- The same for two multiples of a power of the base. -/
lemma abs_le_abs_sub_mul_zpow {M n k : ℤ} (hn : |n| < (b : ℤ) ^ p ∨ |M| < (b : ℤ) ^ p)
    (hne : (M : K) * (b : K) ^ k ≠ n * (b : K) ^ k) :
    |(M : K) * (b : K) ^ k| ≤ |(M : K) * (b : K) ^ k - n * (b : K) ^ k| * (b : K) ^ p := by
  have hMn : M ≠ n := fun h => hne (by rw [h])
  have hint : |M| ≤ |M - n| * (b : ℤ) ^ p := by
    rcases hn with hn | hM
    · exact abs_le_abs_sub_mul hn hMn
    · have hpos : 1 ≤ |M - n| := Int.one_le_abs (sub_ne_zero.2 hMn)
      nlinarith [abs_nonneg M]
  have hcast : |(M : K)| ≤ |(M : K) - n| * (b : K) ^ p := by
    have hK : ((|M| : ℤ) : K) ≤ ((|M - n| * (b : ℤ) ^ p : ℤ) : K) := Int.cast_le.2 hint
    push_cast at hK
    exact hK
  have hpow : (0 : K) ≤ (b : K) ^ k := zpow_nonneg (Nat.cast_nonneg b) k
  rw [← sub_mul, abs_mul, abs_mul, abs_of_nonneg hpow]
  calc |(M : K)| * (b : K) ^ k ≤ |(M : K) - n| * (b : K) ^ p * (b : K) ^ k :=
        mul_le_mul_of_nonneg_right hcast hpow
    _ = |(M : K) - n| * (b : K) ^ k * (b : K) ^ p := by ring

/-- **Gap.**  Two numbers of `p` digits are not close to each other. -/
theorem HasPrecision.abs_le (hb : 0 < b) (hx : HasPrecision b p x) (hz : HasPrecision b p z)
    (hne : x ≠ z) : |x| ≤ |x - z| * (b : K) ^ p := by
  obtain ⟨m, k, hm, rfl⟩ := hx
  obtain ⟨n, j, hn, rfl⟩ := hz
  have hb0 : (b : K) ≠ 0 := Nat.cast_ne_zero.2 hb.ne'
  -- both are multiples of the smaller power
  rcases le_total k j with hkj | hjk
  · obtain ⟨i, rfl⟩ := Int.le.dest hkj
    have hz : (n : K) * (b : K) ^ (k + i) = ((n * (b : ℤ) ^ i : ℤ) : K) * (b : K) ^ k := by
      rw [zpow_add₀ hb0, zpow_natCast]
      push_cast
      ring
    rw [hz] at hne ⊢
    exact abs_le_abs_sub_mul_zpow (.inr hm) hne
  · obtain ⟨i, rfl⟩ := Int.le.dest hjk
    have hx : (m : K) * (b : K) ^ (j + i) = ((m * (b : ℤ) ^ i : ℤ) : K) * (b : K) ^ j := by
      rw [zpow_add₀ hb0, zpow_natCast]
      push_cast
      ring
    rw [hx] at hne ⊢
    exact abs_le_abs_sub_mul_zpow (.inl hn) hne

/-- What is close enough to a number of `p` digits is closer to it than to any other. -/
theorem HasPrecision.lt_of_close (hb : 0 < b) (hx : HasPrecision b p x) (hz : HasPrecision b p z)
    (hne : z ≠ x) (hclose : 2 * |y - x| * (b : K) ^ p < |x|) : |y - x| < |y - z| := by
  have hgap := hx.abs_le hb hz hne.symm
  have hpow : (0 : K) < (b : K) ^ p := by positivity
  have hlt : 2 * |y - x| < |x - z| := lt_of_mul_lt_mul_right (hclose.trans_le hgap) hpow.le
  have htriangle : |x - z| ≤ |y - x| + |y - z| := by
    calc |x - z| = |(y - z) - (y - x)| := by rw [sub_sub_sub_cancel_left]
      _ ≤ |y - z| + |y - x| := abs_sub _ _
      _ = |y - x| + |y - z| := add_comm _ _
  linarith

/-- **Enough digits.**  If `b ^ p` is below `c ^ q`, a number of `p` digits in base `b` that is
rounded to `q + 1` digits in base `c` is the number of `p` digits nearest to the result. -/
theorem HasPrecision.lt_of_rounded {c q : ℕ} {e : ℤ} (hb : 0 < b) (hc : 0 < c)
    (hbc : b ^ p < c ^ q) (hx : HasPrecision b p x) (he : (c : K) ^ e ≤ |x|)
    (hy : 2 * |y - x| ≤ (c : K) ^ (e - q)) (hz : HasPrecision b p z) (hne : z ≠ x) :
    |y - x| < |y - z| := by
  refine hx.lt_of_close hb hz hne ?_
  have hc0 : (0 : K) < c := Nat.cast_pos.2 hc
  have hpos : (0 : K) < (c : K) ^ (e - q) := zpow_pos hc0 _
  have hlt : (b : K) ^ p < (c : K) ^ q := by exact_mod_cast hbc
  calc 2 * |y - x| * (b : K) ^ p ≤ (c : K) ^ (e - q) * (b : K) ^ p :=
        mul_le_mul_of_nonneg_right hy (by positivity)
    _ < (c : K) ^ (e - q) * (c : K) ^ q := mul_lt_mul_of_pos_left hlt hpos
    _ = (c : K) ^ e := by rw [← zpow_natCast, ← zpow_add₀ hc0.ne', sub_add_cancel]
    _ ≤ |x| := he

end Gap

end GmsvPg.Library
