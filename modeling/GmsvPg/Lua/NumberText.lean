/-
# Numbers on their way to the server and back

`PreparedQuery::numberToString` writes a `double` with a stream whose precision is 17, which is
what `printf` does with `%.17g`: the number is rounded to 17 digits, the zeros at the end of its
fraction are left out, and an exponent is written if it is small or large.  The text is a number
as the server writes them too, so that `postgresNumberToLua` reads it as a whole; and since
`2 ^ 53` is below `10 ^ 16`, the `double` can be told from it.
-/
import GmsvPg.Library.Precision
import GmsvPg.Lua.PostgresNumber
import Mathlib.Tactic.NormNum

namespace GmsvPg.Lua

open Library

/-! ### Digits -/

lemma digitsText_append (ds es : List (Fin 10)) :
    digitsText (ds ++ es) = digitsText ds ++ digitsText es := List.map_append

lemma digitChar_eq_zero {d : Fin 10} : digitChar d = '0' ↔ d = 0 := by
  revert d
  decide

lemma digitsText_replicate (n : ℕ) : digitsText (List.replicate n 0) = List.replicate n '0' :=
  List.map_replicate

lemma digitsValue_replicate (n : ℕ) : digitsValue (List.replicate n 0) = 0 := by
  induction n with
  | zero => rfl
  | succ n ih =>
      rw [List.replicate_succ', digitsValue_append, ih]
      rfl

/-- The digits that `Nat.toDigits` writes. -/
lemma toDigits_eq_digitsText (n : ℕ) :
    ∃ ds, Nat.toDigits 10 n = digitsText ds ∧ digitsValue ds = n := by
  induction n using Nat.strongRecOn with
  | ind n ih =>
      rw [Nat.toDigits_eq_if (by decide)]
      split
      · rename_i hlt
        exact ⟨[⟨n, hlt⟩], rfl, by simp [digitsValue]⟩
      · rename_i hge
        obtain ⟨ds, hds, hvalue⟩ := ih (n / 10) (by omega)
        refine ⟨ds ++ [⟨n % 10, Nat.mod_lt n (by decide)⟩], ?_, ?_⟩
        · rw [digitsText_append, hds]
          rfl
        · rw [digitsValue_append, hvalue]
          show n / 10 * 10 ^ 1 + (10 * 0 + n % 10) = n
          omega

/-- `stripZeros` leaves out the zeros at the end. -/
lemma stripZeros_digitsText (ds : List (Fin 10)) :
    ∃ es n, stripZeros (digitsText ds) = digitsText es ∧ ds = es ++ List.replicate n 0 := by
  induction ds using List.reverseRecOn with
  | nil => exact ⟨[], 0, rfl, rfl⟩
  | append_singleton ds d ih =>
      have hreverse : (digitsText (ds ++ [d])).reverse = digitChar d :: (digitsText ds).reverse := by
        rw [digitsText_append, List.reverse_append]
        rfl
      by_cases hd : d = 0
      · subst hd
        obtain ⟨es, n, htext, hds⟩ := ih
        refine ⟨es, n + 1, ?_, ?_⟩
        · rw [stripZeros, hreverse]
          exact htext
        · rw [List.replicate_succ', ← List.append_assoc, ← hds]
      · refine ⟨ds ++ [d], 0, ?_, (List.append_nil _).symm⟩
        have hne : (digitChar d == '0') = false := by simpa [digitChar_eq_zero] using hd
        rw [stripZeros, hreverse, List.dropWhile_cons_of_neg (by simp [hne]), ← hreverse,
          List.reverse_reverse]

/-! ### Rounding -/

lemma roundHalfEven_cases (x : ℚ) :
    roundHalfEven x = ⌊x⌋ ∧ x - ⌊x⌋ ≤ 1 / 2 ∨ roundHalfEven x = ⌊x⌋ + 1 ∧ 1 / 2 ≤ x - ⌊x⌋ := by
  unfold roundHalfEven
  split
  · rename_i hlt
    exact .inl ⟨rfl, hlt.le⟩
  · rename_i hge
    split
    · rename_i hlt
      exact .inr ⟨rfl, hlt.le⟩
    · rename_i hle
      split
      · exact .inl ⟨rfl, not_lt.1 hle⟩
      · exact .inr ⟨rfl, not_lt.1 hge⟩

/-- The integer next to `x` is at most one half away, and not beyond an integer bound of `x`. -/
lemma roundHalfEven_spec (x : ℚ) :
    2 * |(roundHalfEven x : ℚ) - x| ≤ 1 ∧ (∀ n : ℤ, (n : ℚ) ≤ x → n ≤ roundHalfEven x) ∧
      ∀ n : ℤ, x < n → roundHalfEven x ≤ n := by
  have hfloor := Int.floor_le x
  have hlt := Int.lt_floor_add_one x
  rcases roundHalfEven_cases x with ⟨heq, hx⟩ | ⟨heq, hx⟩ <;> rw [heq]
  · refine ⟨?_, fun n hn => Int.le_floor.2 hn, fun n hn => (Int.floor_lt.2 hn).le⟩
    rw [abs_of_nonpos (by linarith)]
    linarith
  · refine ⟨?_, fun n hn => (Int.le_floor.2 hn).trans (by omega), fun n hn => Int.floor_lt.2 hn⟩
    push_cast
    rw [abs_of_nonneg (by linarith)]
    linarith

/-- What `significantDigits` gives: the digits, and `x` rounded to them. -/
lemma significantDigits_spec (q : ℕ) {x : ℚ} (hx : 0 < x) :
    ∃ ds E, significantDigits (q + 1) x = (digitsText ds, E) ∧ ds.length = q + 1 ∧
      2 * |digitsValue ds * (10 : ℚ) ^ (E - q) - x| ≤ 10 ^ (Int.log 10 x - q) := by
  set e := Int.log 10 x with he
  have hlow : (10 : ℚ) ^ e ≤ x := Int.zpow_log_le_self (by decide) hx
  have hhigh : x < (10 : ℚ) ^ (e + 1) := Int.lt_zpow_succ_log_self (by decide) x
  have hscale : (0 : ℚ) < 10 ^ ((q : ℤ) - e) := by positivity
  have hback : (10 : ℚ) ^ ((q : ℤ) - e) * 10 ^ (e - q) = 1 := by
    rw [← zpow_add₀ (by norm_num)]
    simp
  set s := x * (10 : ℚ) ^ ((q : ℤ) - e) with hs
  obtain ⟨herror, hge, hle⟩ := roundHalfEven_spec s
  -- the digits are a number of `q + 1` digits, or the least one with more
  have hmin : (10 : ℤ) ^ q ≤ roundHalfEven s := by
    refine hge _ ?_
    calc (((10 : ℤ) ^ q : ℤ) : ℚ) = 10 ^ e * 10 ^ ((q : ℤ) - e) := by
          rw [← zpow_add₀ (by norm_num)]
          simp
      _ ≤ s := mul_le_mul_of_nonneg_right hlow hscale.le
  have hmax : roundHalfEven s ≤ (10 : ℤ) ^ (q + 1) := by
    refine hle _ ?_
    calc s < 10 ^ (e + 1) * 10 ^ ((q : ℤ) - e) := mul_lt_mul_of_pos_right hhigh hscale
      _ = (((10 : ℤ) ^ (q + 1) : ℤ) : ℚ) := by
          rw [← zpow_add₀ (by norm_num), show e + 1 + ((q : ℤ) - e) = ((q + 1 : ℕ) : ℤ) by omega,
            zpow_natCast]
          push_cast
          rfl
  obtain ⟨r, hr⟩ : ∃ r : ℕ, roundHalfEven s = r :=
    ⟨_, (Int.toNat_of_nonneg (le_trans (by positivity) hmin)).symm⟩
  rw [hr] at herror hmin hmax
  have hrmin : 10 ^ q ≤ r := by exact_mod_cast hmin
  have hrmax : r ≤ 10 ^ (q + 1) := by exact_mod_cast hmax
  have hclose : 2 * |(r : ℚ) * 10 ^ (e - q) - x| ≤ 10 ^ (e - q) := by
    have hpos : (0 : ℚ) < 10 ^ (e - q) := by positivity
    have hx : x = s * 10 ^ (e - q) := by rw [hs, mul_assoc, hback, mul_one]
    calc 2 * |(r : ℚ) * 10 ^ (e - q) - x| = 2 * |(r : ℚ) - s| * 10 ^ (e - q) := by
          rw [hx, ← sub_mul, abs_mul, abs_of_pos hpos, mul_assoc]
      _ ≤ 1 * 10 ^ (e - q) := mul_le_mul_of_nonneg_right (by exact_mod_cast herror) hpos.le
      _ = 10 ^ (e - q) := one_mul _
  have hlength : ∀ n, 10 ^ q ≤ n → n < 10 ^ (q + 1) → (Nat.toDigits 10 n).length = q + 1 := by
    intro n hn hn'
    have hle := (Nat.length_toDigits_le_iff (n := n) (by decide) (Nat.succ_pos q)).2 hn'
    rcases q.eq_zero_or_pos with rfl | hq
    · exact le_antisymm hle Nat.length_toDigits_pos
    · have hnot := (Nat.length_toDigits_le_iff (n := n) (b := 10) (by decide) hq).not.2 (by omega)
      omega
  have hdigits : significantDigits (q + 1) x =
      if r = 10 ^ (q + 1) then (Nat.toDigits 10 (10 ^ q), e + 1) else (Nat.toDigits 10 r, e) := by
    have harg : ((q + 1 : ℕ) : ℤ) - 1 - e = (q : ℤ) - e := by omega
    simp only [significantDigits, harg, ← he, ← hs, hr, Int.toNat_natCast, Nat.add_sub_cancel]
  rw [hdigits]
  split
  · rename_i hfull
    obtain ⟨ds, htext, hvalue⟩ := toDigits_eq_digitsText (10 ^ q)
    refine ⟨ds, e + 1, by rw [htext], ?_, ?_⟩
    · have := hlength (10 ^ q) le_rfl (Nat.pow_lt_pow_right (by decide) (Nat.lt_succ_self q))
      rwa [htext, digitsText, List.length_map] at this
    · have hsame : (digitsValue ds : ℚ) * 10 ^ (e + 1 - q) = (r : ℚ) * 10 ^ (e - q) := by
        rw [hvalue, hfull, show e + 1 - (q : ℤ) = (e - q) + 1 by ring, zpow_add_one₀ (by norm_num)]
        push_cast
        ring
      rwa [hsame]
  · rename_i hne
    obtain ⟨ds, htext, hvalue⟩ := toDigits_eq_digitsText r
    refine ⟨ds, e, by rw [htext], ?_, by rwa [hvalue]⟩
    have := hlength r hrmin (lt_of_le_of_ne hrmax hne)
    rwa [htext, digitsText, List.length_map] at this

/-! ### The text of a positive number -/

/-- The number in decimal notation that has a fraction without the zeros at its end. -/
lemma withFraction_text {whole fraction : List (Fin 10)} (hwhole : whole ≠ [])
    (exponent : Option Exponent) :
    withFraction (digitsText whole) (digitsText fraction) ++ exponentText exponent =
      (FiniteNumber.mk none whole fraction exponent hwhole).text := by
  by_cases hfraction : fraction = []
  · simp [withFraction, FiniteNumber.text, signText, digitsText, hfraction]
  · simp [withFraction, FiniteNumber.text, signText, digitsText, hfraction]

/-- Where the point stands in a row of digits decides by which power of ten they are divided. -/
lemma value_of_split {ds whole fraction : List (Fin 10)} {n : ℕ}
    (h : ds = whole ++ fraction ++ List.replicate n 0) :
    (digitsValue whole + digitsValue fraction / 10 ^ fraction.length : ℚ) =
      digitsValue ds * (10 : ℚ) ^ ((whole.length : ℤ) - ds.length) := by
  have hlength : (whole.length : ℤ) - ds.length = -((fraction.length + n : ℕ) : ℤ) := by
    rw [h]
    simp only [List.length_append, List.length_replicate]
    omega
  rw [hlength, zpow_neg, zpow_natCast, h, digitsValue_append, digitsValue_append,
    digitsValue_replicate, List.length_replicate]
  push_cast
  rw [pow_add]
  field_simp
  ring

/-- The text of a positive number is a number in decimal notation, of the value that its digits
have. -/
lemma formatPositive_spec (q : ℕ) {x : ℚ} (hx : 0 < x) :
    ∃ n : FiniteNumber, n.sign = none ∧ formatPositive (q + 1) x = n.text ∧
      2 * |n.value - x| ≤ 10 ^ (Int.log 10 x - q) := by
  obtain ⟨ds, E, hdigits, hlength, hclose⟩ := significantDigits_spec q hx
  suffices h : ∃ n : FiniteNumber, n.sign = none ∧ formatPositive (q + 1) x = n.text ∧
      n.value = digitsValue ds * (10 : ℚ) ^ (E - q) by
    obtain ⟨n, hsign, htext, hvalue⟩ := h
    exact ⟨n, hsign, htext, by rwa [hvalue]⟩
  have htake : ∀ k, (digitsText ds).take k = digitsText (ds.take k) := fun k =>
    (List.map_take).symm
  have hdrop : ∀ k, (digitsText ds).drop k = digitsText (ds.drop k) := fun k =>
    (List.map_drop).symm
  simp only [formatPositive, hdigits]
  split
  · -- the point is among the digits
    rename_i hE
    obtain ⟨fraction, n, hstrip, hds⟩ := stripZeros_digitsText (ds.drop (E.toNat + 1))
    have hwhole : ds.take (E.toNat + 1) ≠ [] := by
      rw [← List.length_pos_iff, List.length_take]
      omega
    have hsplit : ds = ds.take (E.toNat + 1) ++ fraction ++ List.replicate n 0 := by
      rw [List.append_assoc, ← hds, List.take_append_drop]
    refine ⟨⟨none, _, fraction, none, hwhole⟩, rfl, ?_, ?_⟩
    · rw [htake, hdrop, hstrip, ← withFraction_text hwhole none, exponentText, List.append_nil]
    · rw [FiniteNumber.value, value_of_split hsplit, List.length_take, hlength]
      have hexponent : ((min (E.toNat + 1) (q + 1) : ℕ) : ℤ) - (q + 1 : ℕ) = E - q := by omega
      rw [hexponent]
      simp
  · split
    · -- there are zeros between the point and the digits
      rename_i hE
      obtain ⟨es, n, hstrip, hds⟩ := stripZeros_digitsText ds
      set k := (-E).toNat - 1 with hk
      have hzero : ([0] : List (Fin 10)) ≠ [] := by simp
      refine ⟨⟨none, [0], List.replicate k 0 ++ es, none, hzero⟩, rfl, ?_, ?_⟩
      · rw [hstrip, ← withFraction_text hzero none, exponentText, List.append_nil,
          digitsText_append, digitsText_replicate]
        rfl
      · have hsplit : [0] ++ List.replicate k 0 ++ ds =
            [0] ++ (List.replicate k 0 ++ es) ++ List.replicate n 0 := by
          rw [hds]
          simp only [List.append_assoc]
        have hsame : digitsValue ([0] ++ List.replicate k 0 ++ ds) = digitsValue ds := by
          rw [digitsValue_append, digitsValue_append, digitsValue_replicate]
          simp [digitsValue]
        rw [FiniteNumber.value, value_of_split hsplit, hsame]
        simp only [List.length_append, List.length_replicate, List.length_singleton, hlength]
        have hexponent : ((1 : ℕ) : ℤ) - ((1 + k + (q + 1) : ℕ) : ℤ) = E - q := by omega
        rw [hexponent]
        simp
    · -- there is one digit in front of the point, and an exponent
      obtain ⟨fraction, n, hstrip, hds⟩ := stripZeros_digitsText (ds.drop 1)
      have hwhole : ds.take 1 ≠ [] := by
        rw [← List.length_pos_iff, List.length_take]
        omega
      have hsplit : ds = ds.take 1 ++ fraction ++ List.replicate n 0 := by
        rw [List.append_assoc, ← hds, List.take_append_drop]
      obtain ⟨power, hpower, hvalue⟩ := toDigits_eq_digitsText E.natAbs
      obtain ⟨digits, hne, htext, hdigits⟩ : ∃ digits : List (Fin 10), digits ≠ [] ∧
          (if (digitsText power).length < 2 then '0' :: digitsText power else digitsText power) =
            digitsText digits ∧ digitsValue digits = E.natAbs := by
        have hne : power ≠ [] := by
          rintro rfl
          exact Nat.toDigits_ne_nil hpower
        split
        · exact ⟨0 :: power, by simp, rfl, hvalue⟩
        · exact ⟨power, hne, rfl, hvalue⟩
      refine ⟨⟨none, _, fraction, some ⟨false, some (decide (E < 0)), digits, hne⟩, hwhole⟩, rfl,
        ?_, ?_⟩
      · rw [htake, hdrop, hstrip, hpower, htext, ← withFraction_text hwhole]
        by_cases hE : E < 0 <;> simp [exponentText, Exponent.text, signText, hE]
      · have hexponent : (Exponent.mk false (some (decide (E < 0))) digits hne).value = E := by
          rw [Exponent.value, hdigits]
          by_cases hE : E < 0
          · simp [hE, abs_of_neg hE]
          · simp [hE, abs_of_nonneg (not_lt.1 hE)]
        have hlast : (((ds.take 1).length : ℕ) : ℤ) - ds.length = -q := by
          rw [List.length_take, hlength]
          omega
        rw [FiniteNumber.value, value_of_split hsplit, hlast, Option.elim_some, hexponent]
        simp only [reduceCtorEq, if_false, one_mul, mul_assoc]
        rw [← zpow_add₀ (by norm_num), neg_add_eq_sub]

/-! ### There and back -/

/-- The finite values of the format binary64. -/
def Binary64 (x : ℚ) : Prop :=
  ∃ m k : ℤ, |m| < 2 ^ 53 ∧ -1074 ≤ k ∧ k ≤ 971 ∧ x = m * 2 ^ k

/-- A finite `double`. -/
def IsDouble : Double → Prop
  | .finite _ x => 0 ≤ x ∧ Binary64 x
  | .infinite _ | .nan => False

/-- `x` is the one value of the format that is nearest to `y`. -/
def Nearest (y x : ℚ) : Prop := ∀ z, Binary64 z → z ≠ x → |y - x| < |y - z|

lemma Binary64.hasPrecision {x : ℚ} (h : Binary64 x) : HasPrecision 2 53 x := by
  obtain ⟨m, k, hm, -, -, hx⟩ := h
  exact ⟨m, k, by exact_mod_cast hm, by exact_mod_cast hx⟩

lemma Binary64.neg {x : ℚ} (h : Binary64 x) : Binary64 (-x) := by
  obtain ⟨m, k, hm, hk, hk', rfl⟩ := h
  exact ⟨-m, k, by rwa [abs_neg], hk, hk', by push_cast; ring⟩

/-- There is at most one nearest value. -/
lemma Nearest.eq_of_eq {y x x' : ℚ} (h : Nearest y x) (hx : Binary64 x) (hx' : Binary64 x')
    (h' : Nearest y x') : x = x' := by
  by_contra hne
  exact lt_asymm (h x' hx' (Ne.symm hne)) (h' x hx hne)

/-- The text of a finite `double`, and the number that it denotes. -/
lemma numberToString_spec (negative : Bool) {x : ℚ} (h0 : 0 ≤ x) (hx : Binary64 x) :
    ∃ n : FiniteNumber, numberToString (.finite negative x) = .ok n.text ∧
      n.literal.negative = negative ∧ Nearest n.literal.magnitude x := by
  rcases h0.eq_or_lt with rfl | hpos
  · refine ⟨⟨if negative then some true else none, [0], [], none, by simp⟩, ?_, ?_, ?_⟩
    · cases negative <;> rfl
    · cases negative <;> rfl
    · intro z _ hne
      have hzero : (FiniteNumber.mk (if negative then some true else none) [0] [] none
          (by simp)).literal.magnitude = 0 := by
        simp [DecimalLiteral.magnitude, FiniteNumber.literal, digitsValue]
      rw [hzero, sub_zero, abs_zero, zero_sub, abs_neg]
      exact abs_pos.2 hne
  · obtain ⟨n, hsign, htext, hclose⟩ := formatPositive_spec 16 hpos
    have hmagnitude : n.value = n.literal.magnitude := by
      rw [← n.literal_value, DecimalLiteral.value, if_neg]
      simp [DecimalLiteral.negative, FiniteNumber.literal, hsign]
    refine ⟨{ n with sign := if negative then some true else none }, ?_, ?_, fun z hz hne => ?_⟩
    · have hne : x ≠ 0 := hpos.ne'
      have hunsigned : n.text = digitsText n.whole ++
          ((if n.fraction = [] then [] else '.' :: digitsText n.fraction) ++
            exponentText n.exponent) := by
        rw [FiniteNumber.text, hsign]
        rfl
      simp only [numberToString, if_neg hne, htext, hunsigned]
      cases negative <;> rfl
    · cases negative <;> rfl
    · show |n.literal.magnitude - x| < |n.literal.magnitude - z|
      rw [← hmagnitude]
      refine hx.hasPrecision.lt_of_rounded (e := Int.log 10 x) (q := 16) (c := 10) (by decide)
        (by decide) (by norm_num) ?_ ?_ hz.hasPrecision hne
      · rw [abs_of_pos hpos]
        exact Int.zpow_log_le_self (by decide) hpos
      · exact_mod_cast hclose

/-- **Round trip of numbers.**  The text of a finite `double` is read as a whole, with the sign
that the `double` has, and of all values of the format the `double` is the one nearest to the
number that is read; so no two of them have one text. -/
theorem number_text_round_trip {negative : Bool} {x : ℚ} (h : IsDouble (.finite negative x)) :
    ∃ text y, numberToString (.finite negative x) = .ok text ∧
      readNumber text = (.finite negative y, []) ∧ Nearest y x ∧
      ∀ d, IsDouble d → numberToString d = .ok text → d = .finite negative x := by
  obtain ⟨n, htext, hnegative, hnearest⟩ := numberToString_spec negative h.1 h.2
  refine ⟨n.text, n.literal.magnitude, htext, ?_, hnearest, fun d hd hsame => ?_⟩
  · rw [n.readNumber_text, hnegative]
  · cases d with
    | finite negative' x' =>
        obtain ⟨n', htext', hnegative', hnearest'⟩ :=
          numberToString_spec negative' hd.1 hd.2
        have hread := n.readNumber_text
        rw [← Except.ok.inj (htext'.symm.trans hsame), n'.readNumber_text] at hread
        obtain ⟨hsign, hmagnitude⟩ : n'.literal.negative = n.literal.negative ∧
            n'.literal.magnitude = n.literal.magnitude := by simpa using hread
        rw [hmagnitude] at hnearest'
        rw [← hnegative, ← hsign, hnegative', hnearest.eq_of_eq h.2 hd.2 hnearest']
    | infinite | nan => exact hd.elim

/-- A third, which has no finite decimal notation in 17 digits. -/
def third : Double := .finite true (6004799503160661 * 2 ^ (-54 : ℤ))

theorem number_text_round_trip_third :
    numberToString third = .ok "-0.33333333333333331".toList ∧
      ∃ text y, numberToString third = .ok text ∧ readNumber text = (.finite true y, []) ∧
        Nearest y (6004799503160661 * 2 ^ (-54 : ℤ)) ∧
        ∀ d, IsDouble d → numberToString d = .ok text → d = third := by
  refine ⟨?_, number_text_round_trip ⟨by positivity, 6004799503160661, -54, by norm_num,
    by norm_num, by norm_num, by norm_num⟩⟩
  decide +kernel

end GmsvPg.Lua
