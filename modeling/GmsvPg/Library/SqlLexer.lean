/-
# The lexical rules of PostgreSQL, up to the first token

A string is a list of characters, one for each byte.  Before the first token the lexer of
PostgreSQL 16 drops whitespace, line comments and block comments, which nest; the grammar
drops empty statements, which are bare semicolons.  `skipBlank` drops all of these and
`firstToken` reads the token that follows.
-/
import Mathlib.Data.List.TakeWhile
import Mathlib.Data.List.Infix

namespace GmsvPg.Library.SqlLexer

/-- `space` -/
def isSpace (c : Char) : Bool :=
  c == ' ' || c == '\t' || c == '\n' || c == '\x0b' || c == '\x0c' || c == '\r'

/-- `newline` -/
def isNewline (c : Char) : Bool := c == '\n' || c == '\r'

/-- `ident_start`: a letter, an underscore or a byte of a multibyte character. -/
def isIdentStart (c : Char) : Bool := c.isAlpha || c == '_' || decide (128 ≤ c.toNat)

/-- `ident_cont` -/
def isIdentCont (c : Char) : Bool := isIdentStart c || c.isDigit || c == '$'

/-- What is left after a line comment; the newline is not part of it. -/
def afterLine (cs : List Char) : List Char := cs.dropWhile fun c => !isNewline c

/-- What is left after a block comment with `depth` comments open inside it, or `none` if
the comment does not end. -/
def afterBlock : ℕ → List Char → Option (List Char)
  | depth, c :: d :: cs =>
      if c = '*' ∧ d = '/' then
        match depth with
        | 0 => some cs
        | depth + 1 => afterBlock depth cs
      else if c = '/' ∧ d = '*' then afterBlock (depth + 1) cs
      else afterBlock depth (d :: cs)
  | _, _ => none

lemma length_dropWhile_le (p : Char → Bool) (cs : List Char) :
    (cs.dropWhile p).length ≤ cs.length :=
  (List.dropWhile_suffix p).length_le

lemma length_afterLine_le (cs : List Char) : (afterLine cs).length ≤ cs.length :=
  length_dropWhile_le _ cs

lemma length_afterBlock_lt {depth : ℕ} {cs rest : List Char}
    (h : afterBlock depth cs = some rest) : rest.length < cs.length := by
  fun_induction afterBlock depth cs with
  | case1 c d cs hend =>
      cases h
      simp only [List.length_cons]
      omega
  | case2 c d cs hend depth ih =>
      have := ih h
      simp only [List.length_cons]
      omega
  | case3 depth c d cs hend hopen ih =>
      have := ih h
      simp only [List.length_cons]
      omega
  | case4 depth c d cs hend hopen ih =>
      have := ih h
      simp only [List.length_cons] at this ⊢
      omega
  | case5 => cases h

/-- What stands first in a string that does not begin with whitespace. -/
inductive Lead
  | lineComment (rest : List Char)
  | blockComment (rest : List Char)
  | semicolon (rest : List Char)
  | token
deriving DecidableEq, Repr

/-- What stands first. -/
def lead : List Char → Lead
  | c :: cs =>
      if c = ';' then .semicolon cs
      else
        match cs with
        | d :: cs =>
            if c = '-' ∧ d = '-' then .lineComment cs
            else if c = '/' ∧ d = '*' then .blockComment cs
            else .token
        | [] => .token
  | [] => .token

/-- What `lead` finds stands there. -/
lemma lead_text (cs : List Char) :
    match lead cs with
    | .lineComment rest => cs = '-' :: '-' :: rest
    | .blockComment rest => cs = '/' :: '*' :: rest
    | .semicolon rest => cs = ';' :: rest
    | .token => True := by
  fun_cases lead cs with
  | case1 cs => rfl
  | case2 c hc d cs hline =>
      obtain ⟨rfl, rfl⟩ := hline
      rfl
  | case3 c hc d cs hline hblock =>
      obtain ⟨rfl, rfl⟩ := hblock
      rfl
  | case4 => trivial
  | case5 => trivial
  | case6 => trivial

lemma lead_lineComment {cs rest : List Char} (h : lead cs = .lineComment rest) :
    cs = '-' :: '-' :: rest := by
  have htext := lead_text cs
  rw [h] at htext
  exact htext

lemma lead_blockComment {cs rest : List Char} (h : lead cs = .blockComment rest) :
    cs = '/' :: '*' :: rest := by
  have htext := lead_text cs
  rw [h] at htext
  exact htext

lemma lead_semicolon {cs rest : List Char} (h : lead cs = .semicolon rest) :
    cs = ';' :: rest := by
  have htext := lead_text cs
  rw [h] at htext
  exact htext

/-- What is left from the first token on, or `none` if a block comment before it does not
end. -/
def skipBlank (cs : List Char) : Option (List Char) :=
  match _hlead : lead (cs.dropWhile isSpace) with
  | .lineComment rest => skipBlank (afterLine rest)
  | .blockComment rest =>
      match _hblock : afterBlock 0 rest with
      | some rest' => skipBlank rest'
      | none => none
  | .semicolon rest => skipBlank rest
  | .token => some (cs.dropWhile isSpace)
termination_by cs.length
decreasing_by
  · have hdrop := length_dropWhile_le isSpace cs
    have hline := length_afterLine_le rest
    rw [lead_lineComment _hlead] at hdrop
    simp only [List.length_cons] at hdrop
    omega
  · have hdrop := length_dropWhile_le isSpace cs
    have hend := length_afterBlock_lt _hblock
    rw [lead_blockComment _hlead] at hdrop
    simp only [List.length_cons] at hdrop
    omega
  · have hdrop := length_dropWhile_le isSpace cs
    rw [lead_semicolon _hlead] at hdrop
    simp only [List.length_cons] at hdrop
    omega

section skipBlank

variable {cs rest : List Char}

end skipBlank

/-- A token, as far as it matters whether it is a word. -/
inductive Token
  | word (text : List Char)
  | other (first : Char)
deriving DecidableEq, Repr

/-- A quoted constant or identifier with a letter in front: `B'`, `E'`, `N'`, `X'`, `U&'` or
`U&"`. -/
def startsConstant : List Char → Bool
  | c :: '\'' :: _ => "bBeEnNxX".toList.contains c
  | c :: '&' :: d :: _ => "uU".toList.contains c && (d == '\'' || d == '"')
  | _ => false

/-- The token at the head of a string that begins with one. -/
def tokenAt : List Char → Option Token
  | [] => none
  | c :: cs =>
      if isIdentStart c && !startsConstant (c :: cs) then
        some (.word (c :: cs.takeWhile isIdentCont))
      else some (.other c)

/-- The first token of a string. -/
def firstToken (cs : List Char) : Option Token := (skipBlank cs).bind tokenAt

/-- A word is a keyword in any case of its letters. -/
def IsKeyword (keywords : List (List Char)) (word : List Char) : Prop :=
  word.map Char.toLower ∈ keywords

instance (keywords : List (List Char)) (word : List Char) :
    Decidable (IsKeyword keywords word) :=
  inferInstanceAs (Decidable (_ ∈ _))

end GmsvPg.Library.SqlLexer
