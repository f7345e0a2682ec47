/-
# Decimal floating literals

A decimal floating literal is an optional sign, digits with at most one point among them, and
an optional exponent.  A text has at most one longest prefix that is one, which is what the
functions that read a number from the front of a text look for.
-/
import Mathlib.Data.Rat.Defs
import Mathlib.Data.List.FinRange
import Mathlib.Algebra.Order.Field.Rat

namespace GmsvPg.Library

/-! ### Signs and digits -/

/-- The text of an optional sign, which is minus if it is `true`. -/
def signText : Option Bool → List Char
  | none => []
  | some false => ['+']
  | some true => ['-']

def readSign : List Char → Option Bool × List Char
  | '+' :: t => (some false, t)
  | '-' :: t => (some true, t)
  | t => (none, t)

def digitChar (d : Fin 10) : Char := Nat.digitChar d

def digitOf (c : Char) : Option (Fin 10) := (List.finRange 10).find? fun d => digitChar d == c

def digitsText (ds : List (Fin 10)) : List Char := ds.map digitChar

/-- The digits at the front of a text, and what follows them. -/
def readDigits : List Char → List (Fin 10) × List Char
  | [] => ([], [])
  | c :: t =>
      match digitOf c with
      | none => ([], c :: t)
      | some d => (d :: (readDigits t).1, (readDigits t).2)

/-- The number that digits denote. -/
def digitsValue (ds : List (Fin 10)) : ℕ := ds.foldl (fun n d => 10 * n + d.val) 0

/-- A text that does not begin with one of some characters. -/
def NotHead (p : Char → Bool) (t : List Char) : Prop := ∀ c ∈ t.head?, p c = false

/-- A text that does not begin with a digit. -/
abbrev NoDigit (t : List Char) : Prop := NotHead (fun c => (digitOf c).isSome) t

/-- A text that does not begin with a sign. -/
abbrev NoSign (t : List Char) : Prop := NotHead (fun c => c == '+' || c == '-') t

section Read

variable {c : Char} {d : Fin 10} {t : List Char}

@[simp] lemma digitOf_digitChar (d : Fin 10) : digitOf (digitChar d) = some d := by
  revert d
  decide

lemma digitChar_of_digitOf (h : digitOf c = some d) : digitChar d = c := by
  have hfound := List.find?_some h
  exact beq_iff_eq.1 hfound

lemma readSign_append (sign : Option Bool) (ht : NoSign t) :
    readSign (signText sign ++ t) = (sign, t) := by
  rcases sign with _ | _ | _
  · cases t with
    | nil => rfl
    | cons c t =>
        have hc := ht c rfl
        simp only [Bool.or_eq_false_iff, beq_eq_false_iff_ne] at hc
        show readSign (c :: t) = _
        unfold readSign
        split
        · exact absurd (List.cons.inj ‹_›).1 hc.1
        · exact absurd (List.cons.inj ‹_›).1 hc.2
        · rfl
  · rfl
  · rfl

lemma readSign_spec (t : List Char) : signText (readSign t).1 ++ (readSign t).2 = t := by
  unfold readSign
  split <;> rfl

lemma readDigits_append (ds : List (Fin 10)) (ht : NoDigit t) :
    readDigits (digitsText ds ++ t) = (ds, t) := by
  induction ds with
  | nil =>
      cases t with
      | nil => rfl
      | cons c t =>
          have hc : digitOf c = none := Option.not_isSome_iff_eq_none.1 (by simp [ht c rfl])
          show readDigits (c :: t) = _
          rw [readDigits, hc]
  | cons d ds ih =>
      show readDigits (digitChar d :: (digitsText ds ++ t)) = _
      rw [readDigits, digitOf_digitChar]
      simp only [ih]

lemma readDigits_spec (t : List Char) : digitsText (readDigits t).1 ++ (readDigits t).2 = t := by
  induction t with
  | nil => rfl
  | cons c t ih =>
      rw [readDigits]
      cases hc : digitOf c with
      | none => rfl
      | some d =>
          show digitChar d :: (digitsText (readDigits t).1 ++ (readDigits t).2) = _
          rw [ih, digitChar_of_digitOf hc]

end Read

/-! ### Literals -/

/-- An exponent, with its sign and digits; the letter in front of them is `E` or `e`. -/
structure Exponent where
  upper : Bool
  sign : Option Bool
  digits : List (Fin 10)
  nonempty : digits ≠ []
deriving DecidableEq

/-- A decimal floating literal: there is a digit in front of the point or behind it. -/
structure DecimalLiteral where
  sign : Option Bool := none
  whole : List (Fin 10)
  fraction : Option (List (Fin 10)) := none
  exponent : Option Exponent := none
  nonempty : whole ++ fraction.getD [] ≠ []
deriving DecidableEq

namespace Exponent

def text (e : Exponent) : List Char :=
  (if e.upper then 'E' else 'e') :: (signText e.sign ++ digitsText e.digits)

def value (e : Exponent) : ℤ :=
  if e.sign = some true then -(digitsValue e.digits : ℤ) else digitsValue e.digits

end Exponent

def fractionText : Option (List (Fin 10)) → List Char
  | none => []
  | some ds => '.' :: digitsText ds

def exponentText : Option Exponent → List Char
  | none => []
  | some e => e.text

def readFraction : List Char → Option (List (Fin 10)) × List Char
  | '.' :: t => (some (readDigits t).1, (readDigits t).2)
  | t => (none, t)

/-- The exponent that is the whole text behind its letter. -/
def readExponentDigits (upper : Bool) (t : List Char) : Option Exponent :=
  if h : (readDigits (readSign t).2).1 ≠ [] ∧ (readDigits (readSign t).2).2 = [] then
    some ⟨upper, (readSign t).1, _, h.1⟩
  else none

/-- The exponent that is the whole text, if it is not empty. -/
def readExponent : List Char → Option (Option Exponent)
  | [] => some none
  | 'e' :: t => (readExponentDigits false t).map some
  | 'E' :: t => (readExponentDigits true t).map some
  | _ => none

namespace DecimalLiteral

/-- The text of a literal behind its sign. -/
def unsigned (l : DecimalLiteral) : List Char :=
  digitsText l.whole ++ (fractionText l.fraction ++ exponentText l.exponent)

/-- The text of a literal. -/
def text (l : DecimalLiteral) : List Char := signText l.sign ++ l.unsigned

def negative (l : DecimalLiteral) : Bool := l.sign = some true

/-- The absolute value of the number that a literal denotes. -/
def magnitude (l : DecimalLiteral) : ℚ :=
  digitsValue (l.whole ++ l.fraction.getD []) *
    10 ^ (l.exponent.elim 0 Exponent.value - (l.fraction.getD []).length)

/-- The number that a literal denotes. -/
def value (l : DecimalLiteral) : ℚ := if l.negative then -l.magnitude else l.magnitude

/-- The literal that a whole text is. -/
def parse (t : List Char) : Option DecimalLiteral :=
  let (sign, t) := readSign t
  let (whole, t) := readDigits t
  let (fraction, t) := readFraction t
  match readExponent t with
  | none => none
  | some exponent =>
      if h : whole ++ fraction.getD [] ≠ [] then some ⟨sign, whole, fraction, exponent, h⟩ else none

/-- The longest prefix of at most `n` characters that is a literal, and what follows it. -/
def longest (t : List Char) : ℕ → Option (DecimalLiteral × List Char)
  | 0 => none
  | n + 1 =>
      match parse (t.take (n + 1)) with
      | some l => some (l, t.drop (n + 1))
      | none => longest t n

/-- The longest prefix that is a literal, and what follows it. -/
def extract (t : List Char) : Option (DecimalLiteral × List Char) := longest t t.length

end DecimalLiteral

/-! ### Reading a literal -/

lemma notHead_cons {p : Char → Bool} {c : Char} {t : List Char} (hc : p c = false) :
    NotHead p (c :: t) := by
  intro c' h
  obtain rfl := Option.some.inj h
  exact hc

lemma digitChar_not_sign (d : Fin 10) : (digitChar d == '+' || digitChar d == '-') = false := by
  revert d
  decide

lemma noSign_digitsText (ds : List (Fin 10)) : NoSign (digitsText ds) := by
  cases ds with
  | nil => exact fun _ h => nomatch h
  | cons d ds => exact notHead_cons (digitChar_not_sign d)

lemma noDigit_exponentText (e : Option Exponent) : NoDigit (exponentText e) := by
  rcases e with _ | ⟨_ | _, _, _, _⟩
  · exact fun _ h => nomatch h
  · exact notHead_cons (show (digitOf 'e').isSome = false by decide)
  · exact notHead_cons (show (digitOf 'E').isSome = false by decide)

lemma noDigit_fractionText (f : Option (List (Fin 10))) (e : Option Exponent) :
    NoDigit (fractionText f ++ exponentText e) := by
  cases f with
  | none => exact noDigit_exponentText e
  | some ds => exact notHead_cons (by decide)

lemma readFraction_text (f : Option (List (Fin 10))) (e : Option Exponent) :
    readFraction (fractionText f ++ exponentText e) = (f, exponentText e) := by
  cases f with
  | none => rcases e with _ | ⟨_ | _, _, _, _⟩ <;> rfl
  | some ds =>
      show (some (readDigits (digitsText ds ++ exponentText e)).1,
        (readDigits (digitsText ds ++ exponentText e)).2) = _
      rw [readDigits_append ds (noDigit_exponentText e)]

lemma readExponentDigits_text (e : Exponent) :
    readExponentDigits e.upper (signText e.sign ++ digitsText e.digits) = some e := by
  have hsign : readSign (signText e.sign ++ digitsText e.digits) = (e.sign, digitsText e.digits) :=
    readSign_append e.sign (noSign_digitsText e.digits)
  have hdigits : readDigits (digitsText e.digits) = (e.digits, []) := by
    have happend := readDigits_append (t := []) e.digits fun _ h => nomatch h
    rwa [List.append_nil] at happend
  simp only [readExponentDigits, hsign, hdigits]
  rw [dif_pos ⟨e.nonempty, trivial⟩]

lemma readExponent_text (e : Option Exponent) : readExponent (exponentText e) = some e := by
  cases e with
  | none => rfl
  | some e =>
      have hdigits := readExponentDigits_text e
      rcases e with ⟨_ | _, sign, digits, hne⟩
      · exact congrArg (Option.map some) hdigits
      · exact congrArg (Option.map some) hdigits

lemma readExponentDigits_spec {upper : Bool} {t : List Char} {e : Exponent}
    (h : readExponentDigits upper t = some e) :
    e.upper = upper ∧ signText e.sign ++ digitsText e.digits = t := by
  unfold readExponentDigits at h
  split at h
  · rename_i hread
    obtain rfl := Option.some.inj h
    refine ⟨rfl, ?_⟩
    have hdigits := readDigits_spec (readSign t).2
    rw [hread.2, List.append_nil] at hdigits
    show signText (readSign t).1 ++ digitsText (readDigits (readSign t).2).1 = t
    rw [hdigits, readSign_spec]
  · cases h

lemma readExponent_spec {t : List Char} {e : Option Exponent} (h : readExponent t = some e) :
    exponentText e = t := by
  unfold readExponent at h
  split at h
  · obtain rfl := Option.some.inj h
    rfl
  · obtain ⟨e, he, rfl⟩ := Option.map_eq_some_iff.1 h
    obtain ⟨hupper, ht⟩ := readExponentDigits_spec he
    rw [exponentText, Exponent.text, hupper, ht]
    rfl
  · obtain ⟨e, he, rfl⟩ := Option.map_eq_some_iff.1 h
    obtain ⟨hupper, ht⟩ := readExponentDigits_spec he
    rw [exponentText, Exponent.text, hupper, ht]
    rfl
  · cases h

lemma readFraction_spec (t : List Char) :
    fractionText (readFraction t).1 ++ (readFraction t).2 = t := by
  unfold readFraction
  split
  · rename_i t
    exact congrArg ('.' :: ·) (readDigits_spec t)
  · rfl

namespace DecimalLiteral

/-- Behind its sign, a literal begins with a digit or with the point. -/
lemma unsigned_head (l : DecimalLiteral) :
    ∃ c t, l.unsigned = c :: t ∧ (c = '.' ∨ ∃ d, c = digitChar d) := by
  have hne := l.nonempty
  rcases l with ⟨_, _ | ⟨d, ds⟩, fraction, _, _⟩
  · -- there is a point, because there is no digit in front of it
    cases fraction with
    | none => exact absurd rfl hne
    | some ds => exact ⟨_, _, rfl, .inl rfl⟩
  · exact ⟨_, _, rfl, .inr ⟨d, rfl⟩⟩

lemma noSign_unsigned_append (l : DecimalLiteral) (rest : List Char) :
    NoSign (l.unsigned ++ rest) := by
  obtain ⟨c, t, hhead, hc⟩ := l.unsigned_head
  rw [hhead]
  rcases hc with rfl | ⟨d, rfl⟩
  · exact notHead_cons (by decide)
  · exact notHead_cons (digitChar_not_sign d)

lemma parse_text (l : DecimalLiteral) : parse l.text = some l := by
  have hsign := l.noSign_unsigned_append []
  rw [List.append_nil] at hsign
  have hread : readSign l.text = (l.sign, l.unsigned) := readSign_append l.sign hsign
  have hwhole : readDigits l.unsigned =
      (l.whole, fractionText l.fraction ++ exponentText l.exponent) :=
    readDigits_append l.whole (noDigit_fractionText l.fraction l.exponent)
  simp only [parse, hread, hwhole, readFraction_text, readExponent_text]
  rw [dif_pos l.nonempty]

lemma text_of_parse {t : List Char} {l : DecimalLiteral} (h : parse t = some l) : l.text = t := by
  simp only [parse] at h
  split at h
  · cases h
  · rename_i exponent hexponent
    split at h
    · obtain rfl := Option.some.inj h
      show signText _ ++ (digitsText _ ++ (fractionText _ ++ exponentText exponent)) = t
      rw [readExponent_spec hexponent, readFraction_spec, readDigits_spec, readSign_spec]
    · cases h

/-- A text is parsed as a literal if it is the text of that literal. -/
lemma parse_eq_some_iff {t : List Char} {l : DecimalLiteral} : parse t = some l ↔ l.text = t :=
  ⟨text_of_parse, fun h => h ▸ parse_text l⟩

lemma text_ne_nil (l : DecimalLiteral) : l.text ≠ [] := by
  intro h
  have hparse := l.parse_text
  rw [h] at hparse
  cases hparse

/-! ### The longest prefix -/

lemma longest_some {t rest : List Char} {n : ℕ} {l : DecimalLiteral} (hn : n ≤ t.length)
    (h : longest t n = some (l, rest)) :
    t = l.text ++ rest ∧ ∀ l' : DecimalLiteral, l'.text <+: t → l'.text.length ≤ n →
      l'.text.length ≤ l.text.length := by
  induction n with
  | zero => cases h
  | succ n ih =>
      rw [longest] at h
      cases hparse : parse (t.take (n + 1)) with
      | some l₁ =>
          rw [hparse] at h
          obtain ⟨rfl, rfl⟩ := Prod.mk.inj (Option.some.inj h)
          have htext := text_of_parse hparse
          refine ⟨by rw [htext, List.take_append_drop], fun l' _ hlength => ?_⟩
          rwa [htext, List.length_take, Nat.min_eq_left hn]
      | none =>
          rw [hparse] at h
          obtain ⟨ht, hmax⟩ := ih (Nat.le_of_succ_le hn) h
          refine ⟨ht, fun l' hl' hlength => hmax l' hl' ?_⟩
          by_contra hlong
          -- a literal of this length would have been found
          have heq : l'.text = t.take (n + 1) := by
            rw [List.prefix_iff_eq_take.1 hl', show l'.text.length = n + 1 by omega]
          rw [parse_eq_some_iff.2 heq] at hparse
          cases hparse

lemma longest_none {t : List Char} {n : ℕ} (h : longest t n = none) (l : DecimalLiteral)
    (hl : l.text <+: t) : n < l.text.length := by
  induction n with
  | zero => exact List.length_pos_of_ne_nil l.text_ne_nil
  | succ n ih =>
      rw [longest] at h
      cases hparse : parse (t.take (n + 1)) with
      | some l₁ =>
          rw [hparse] at h
          cases h
      | none =>
          rw [hparse] at h
          have hlength := ih h
          by_contra hle
          have heq : l.text = t.take (n + 1) := by
            rw [List.prefix_iff_eq_take.1 hl, show l.text.length = n + 1 by omega]
          rw [parse_eq_some_iff.2 heq] at hparse
          cases hparse

/-- What is extracted is the longest prefix that is a literal, or none if there is none. -/
theorem extract_spec (t : List Char) :
    match extract t with
    | some (l, rest) => t = l.text ++ rest ∧
        ∀ l' : DecimalLiteral, l'.text <+: t → l'.text.length ≤ l.text.length
    | none => ∀ l : DecimalLiteral, ¬ l.text <+: t := by
  cases h : extract t with
  | some found =>
      obtain ⟨ht, hmax⟩ := longest_some le_rfl h
      exact ⟨ht, fun l' hl' => hmax l' hl' hl'.length_le⟩
  | none => exact fun l hl => Nat.not_lt.2 hl.length_le (longest_none h l hl)

/-- A text that is a literal is extracted as a whole. -/
lemma extract_text (l : DecimalLiteral) : extract l.text = some (l, []) := by
  have hspec := extract_spec l.text
  cases h : extract l.text with
  | none =>
      rw [h] at hspec
      exact absurd List.prefix_rfl (hspec l)
  | some found =>
      obtain ⟨l', rest⟩ := found
      rw [h] at hspec
      obtain ⟨ht, hmax⟩ := hspec
      have hlength := congrArg List.length ht
      rw [List.length_append] at hlength
      obtain rfl : rest = [] := List.length_eq_zero_iff.1 (by
        have := hmax l List.prefix_rfl
        omega)
      rw [List.append_nil] at ht
      have hparse := l.parse_text
      rw [ht, parse_text] at hparse
      rw [Option.some.inj hparse]

/-- A text in which something else follows the sign has no literal as a prefix. -/
lemma extract_other (sign : Option Bool) {c : Char} {t : List Char} (hdigit : digitOf c = none)
    (hpoint : c ≠ '.') (hsign : NoSign (c :: t)) : extract (signText sign ++ c :: t) = none := by
  have hspec := extract_spec (signText sign ++ c :: t)
  cases h : extract (signText sign ++ c :: t) with
  | none => rfl
  | some found =>
      obtain ⟨l, rest⟩ := found
      rw [h] at hspec
      -- both are read up to the sign
      have hread := readSign_append sign hsign
      rw [hspec.1, text, List.append_assoc,
        readSign_append l.sign (l.noSign_unsigned_append rest)] at hread
      obtain ⟨c', t', hhead, hc'⟩ := l.unsigned_head
      rw [hhead] at hread
      obtain rfl := (List.cons.inj (Prod.mk.inj hread).2).1
      rcases hc' with rfl | ⟨d, rfl⟩
      · exact absurd rfl hpoint
      · rw [digitOf_digitChar] at hdigit
        cases hdigit

end DecimalLiteral

end GmsvPg.Library
