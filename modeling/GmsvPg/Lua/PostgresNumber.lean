/-
# Reading the numbers of the server

`postgresNumberToLua` reads the text of a number with a stream, which takes the longest decimal
floating literal at the front, and zero if there is none.  The texts of the server are finite
numbers, which are such literals, and three names, which are not.
-/
import GmsvPg.Library.DecimalLiteral
import GmsvPg.Postgres.PreparedQuery
import Mathlib.Tactic.FieldSimp
import Mathlib.Tactic.Ring

namespace GmsvPg.Lua

open Library

/-! ### `postgresNumberToLua` -/

/-- What `stream >> number` makes of a `double` and of the stream, in the classic locale. -/
def readNumber (stream : Text) : Double × Text :=
  match DecimalLiteral.extract stream with
  | some (l, rest) => (.finite l.negative l.magnitude, rest)
  | none => (.finite false 0, stream)

/-- `postgresNumberToLua` -/
def postgresNumberToLua (value : Text) : Double := (readNumber value).1

/-! ### The texts of the server -/

/-- What a number is, apart from the sign of a zero. -/
inductive Number
  | rational (x : ℚ)
  | infinite (negative : Bool)
  | nan
deriving DecidableEq

/-- The number that a `double` stands for. -/
def numberOf : Double → Number
  | .finite negative x => .rational (if negative then -x else x)
  | .infinite negative => .infinite negative
  | .nan => .nan

/-- A finite number as the server writes it: digits, with a fraction if there are digits for
one, and perhaps an exponent. -/
structure FiniteNumber where
  sign : Option Bool := none
  whole : List (Fin 10)
  fraction : List (Fin 10) := []
  exponent : Option Exponent := none
  nonempty : whole ≠ []

namespace FiniteNumber

def text (x : FiniteNumber) : Text :=
  signText x.sign ++ (digitsText x.whole ++
    ((if x.fraction = [] then [] else '.' :: digitsText x.fraction) ++ exponentText x.exponent))

/-- The value of a number in decimal notation. -/
def value (x : FiniteNumber) : ℚ :=
  (if x.sign = some true then -1 else 1) *
    (digitsValue x.whole + digitsValue x.fraction / 10 ^ x.fraction.length) *
      10 ^ x.exponent.elim 0 Exponent.value

end FiniteNumber

/-- A value of type `int2`, `int4`, `float4` or `float8`, as the server sends it. -/
inductive ServerNumber
  | finite (x : FiniteNumber)
  | infinity (negative : Bool)
  | nan

namespace ServerNumber

def text : ServerNumber → Text
  | finite x => x.text
  | infinity negative => signText (if negative then some true else none) ++ "Infinity".toList
  | nan => "NaN".toList

def value : ServerNumber → Number
  | finite x => .rational x.value
  | infinity negative => .infinite negative
  | nan => .nan

def IsFinite (x : ServerNumber) : Prop := ∃ n, x = finite n

end ServerNumber

/-! ### Finite numbers -/

lemma digitsValue_append (ds es : List (Fin 10)) :
    digitsValue (ds ++ es) = digitsValue ds * 10 ^ es.length + digitsValue es := by
  induction es using List.reverseRecOn with
  | nil => simp [digitsValue]
  | append_singleton es e ih =>
      rw [← List.append_assoc]
      simp only [digitsValue, List.foldl_append, List.foldl_cons, List.foldl_nil,
        List.length_append, List.length_singleton] at ih ⊢
      rw [ih]
      ring

namespace FiniteNumber

/-- The literal that a finite number is. -/
def literal (x : FiniteNumber) : DecimalLiteral where
  sign := x.sign
  whole := x.whole
  fraction := if x.fraction = [] then none else some x.fraction
  exponent := x.exponent
  nonempty := List.append_ne_nil_of_left_ne_nil x.nonempty _

lemma literal_text (x : FiniteNumber) : x.literal.text = x.text := by
  unfold DecimalLiteral.text DecimalLiteral.unsigned text literal
  by_cases hfraction : x.fraction = []
  · simp only [hfraction, if_true]
    rfl
  · simp only [hfraction, if_false]
    rfl

lemma literal_value (x : FiniteNumber) : x.literal.value = x.value := by
  have hfraction : x.literal.fraction.getD [] = x.fraction := by
    show (if x.fraction = [] then none else some x.fraction).getD [] = _
    split
    · rename_i h
      rw [h]
      rfl
    · rfl
  have hmagnitude : x.literal.magnitude =
      (digitsValue x.whole + digitsValue x.fraction / 10 ^ x.fraction.length) *
        10 ^ x.exponent.elim 0 Exponent.value := by
    rw [DecimalLiteral.magnitude, hfraction, zpow_sub₀ (by norm_num), zpow_natCast]
    show (digitsValue (x.whole ++ x.fraction) : ℚ) * (10 ^ x.exponent.elim 0 Exponent.value / _) = _
    rw [digitsValue_append]
    push_cast
    field_simp
  rw [DecimalLiteral.value, hmagnitude, value]
  show (if decide (x.sign = some true) = true then _ else _) = _
  by_cases hsign : x.sign = some true
  · simp only [hsign, decide_true, if_true]
    ring
  · simp only [hsign, decide_false, Bool.false_eq_true, if_false]
    ring

lemma readNumber_text (x : FiniteNumber) :
    readNumber x.text = (.finite x.literal.negative x.literal.magnitude, []) := by
  rw [readNumber, ← literal_text, DecimalLiteral.extract_text]

end FiniteNumber

/-! ### All numbers -/

namespace ServerNumber

/-- The names have no literal at the front. -/
lemma readNumber_text_of_not_finite {x : ServerNumber} (h : ¬ x.IsFinite) :
    readNumber x.text = (.finite false 0, x.text) := by
  have hnone : DecimalLiteral.extract x.text = none := by
    cases x with
    | finite n => exact absurd ⟨n, rfl⟩ h
    | infinity negative =>
        exact DecimalLiteral.extract_other _ (by decide) (by decide) (notHead_cons (by decide))
    | nan =>
        exact DecimalLiteral.extract_other none (by decide) (by decide) (notHead_cons (by decide))
  rw [readNumber, hnone]

lemma decoded_of_finite {x : ServerNumber} (h : x.IsFinite) :
    (readNumber x.text).2 = [] ∧ numberOf (postgresNumberToLua x.text) = x.value := by
  obtain ⟨n, rfl⟩ := h
  have hread := n.readNumber_text
  rw [postgresNumberToLua, text, hread]
  exact ⟨rfl, congrArg Number.rational n.literal_value⟩

lemma decoded_of_not_finite {x : ServerNumber} (h : ¬ x.IsFinite) :
    numberOf (postgresNumberToLua x.text) = .rational 0 := by
  rw [postgresNumberToLua, readNumber_text_of_not_finite h]
  rfl

lemma value_ne_rational {x : ServerNumber} (h : ¬ x.IsFinite) (q : ℚ) : x.value ≠ .rational q := by
  cases x with
  | finite n => exact absurd ⟨n, rfl⟩ h
  | infinity negative => exact nofun
  | nan => exact nofun

/-- **Decoding numbers.**  A text of the server is read as a whole, as the number that it
denotes, if and only if it is finite.  Two texts of different numbers are told apart if and
only if they are both finite, or one is and does not denote zero.  A number other than zero
does not become zero if and only if it is finite. -/
theorem decoded_iff_finite (x y : ServerNumber) :
    ((readNumber x.text).2 = [] ∧ numberOf (postgresNumberToLua x.text) = x.value ↔ x.IsFinite) ∧
    ((x.value ≠ y.value →
        numberOf (postgresNumberToLua x.text) ≠ numberOf (postgresNumberToLua y.text)) ↔
      x.value = y.value ∨ (x.IsFinite ∧ y.IsFinite) ∨ (x.IsFinite ∧ x.value ≠ .rational 0) ∨
        (y.IsFinite ∧ y.value ≠ .rational 0)) ∧
    ((x.value ≠ .rational 0 → numberOf (postgresNumberToLua x.text) ≠ .rational 0) ↔
      x.IsFinite) := by
  refine ⟨⟨fun h => ?_, decoded_of_finite⟩, ?_, ?_⟩
  · by_contra hx
    exact value_ne_rational hx 0 (h.2.symm.trans (decoded_of_not_finite hx))
  · by_cases heq : x.value = y.value
    · exact iff_of_true (fun h => absurd heq h) (.inl heq)
    · by_cases hx : x.IsFinite
      · rw [(decoded_of_finite hx).2]
        by_cases hy : y.IsFinite
        · rw [(decoded_of_finite hy).2]
          exact iff_of_true id (.inr (.inl ⟨hx, hy⟩))
        · rw [decoded_of_not_finite hy]
          simp [heq, hx, hy]
      · rw [decoded_of_not_finite hx]
        by_cases hy : y.IsFinite
        · rw [(decoded_of_finite hy).2]
          simp [heq, hx, hy, eq_comm]
        · -- both are read as zero
          rw [decoded_of_not_finite hy]
          simp [heq, hx, hy]
  · by_cases hx : x.IsFinite
    · rw [(decoded_of_finite hx).2]
      exact iff_of_true id hx
    · rw [decoded_of_not_finite hx]
      exact iff_of_false (fun h => h (value_ne_rational hx 0) rfl) hx

/-- The three names become zero, and nothing of them is read. -/
theorem names_become_zero :
    readNumber "NaN".toList = (.finite false 0, "NaN".toList) ∧
      readNumber "Infinity".toList = (.finite false 0, "Infinity".toList) ∧
      readNumber "-Infinity".toList = (.finite false 0, "-Infinity".toList) ∧
      nan.text = "NaN".toList ∧ (infinity false).text = "Infinity".toList ∧
      (infinity true).text = "-Infinity".toList ∧
      nan.value ≠ .rational 0 ∧ nan.value ≠ (infinity false).value := by
  decide +kernel

end ServerNumber

example : postgresNumberToLua "-1.25e+20".toList = .finite true (125 * 10 ^ 18) := by
  decide +kernel

end GmsvPg.Lua
