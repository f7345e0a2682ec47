/-
# The filter for transaction control

`isTransactionControlSql` reads an SQL string with a scanner of its own: for it a block
comment ends at the first `*/`, and a semicolon ends the leading part.  It agrees with the
lexer of PostgreSQL on every string whose leading part, as PostgreSQL reads it, has neither
a nested comment nor a semicolon.  Where a semicolon comes first the filter lets everything
through.  Where a nested comment comes first the filter goes on behind the first `*/`, inside
what PostgreSQL takes for a comment, and its verdict is the one on that part of the string.
-/
import GmsvPg.Library.SqlLexer
import GmsvPg.Postgres.Query

namespace GmsvPg

open Library LibpqExecutor SqlLexer

/-- The words of transaction control. -/
def controlWords : List Text :=
  ["begin".toList, "start".toList, "commit".toList, "end".toList, "rollback".toList,
    "abort".toList]

/-- The first token of the string is a word of transaction control. -/
def ControlFirst (sql : Text) : Prop :=
  ∃ word, firstToken sql = some (.word word) ∧ IsKeyword controlWords word

/-- The first token of the string is another word, of letters only and followed by whitespace
or the end of the string. -/
def OtherWordFirst (sql : Text) : Prop :=
  ∃ word rest, firstToken sql = some (.word word) ∧ skipBlank sql = some (word ++ rest) ∧
    (∀ ch ∈ word, ch.isAlpha = true) ∧ ¬ IsKeyword controlWords word ∧
    ∀ ch ∈ rest.head?, isSpace ch = true

namespace Query

end Query

/-! ### What the scanner reads -/

lemma skipLineComment_eq (sql : Text) : skipLineComment sql = afterLine sql := by
  unfold skipLineComment afterLine
  congr 1
  funext ch
  simp only [isNewline, Bool.not_or, bne]

/-- The outer loop, in terms of what stands first. -/
lemma skipLeading_eq (sql : Text) :
    skipLeading sql =
      match lead (sql.dropWhile isSpace) with
      | .lineComment rest => skipLeading (afterLine rest)
      | .blockComment rest => skipLeading (skipBlockComment rest)
      | _ => sql.dropWhile isSpace := by
  have hspace : isspace = isSpace := rfl
  rw [skipLeading, hspace]
  split
  · rename_i rest hdrop
    rw [hdrop, skipLineComment_eq]
    rfl
  · rename_i rest hdrop
    rw [hdrop]
    rfl
  · rename_i hline hblock
    have htext := lead_text (sql.dropWhile isSpace)
    split
    · rename_i rest hlead
      rw [hlead] at htext
      exact absurd htext (hline rest)
    · rename_i rest hlead
      rw [hlead] at htext
      exact absurd htext (hblock rest)
    · rfl

lemma IsControl.length {word : Text} (h : IsKeyword controlWords word) : 1 < word.length := by
  have hlength : ∀ keyword ∈ controlWords, 1 < keyword.length := by decide
  simpa using hlength _ h

/-- A letter ends the leading part. -/
lemma skipLeading_letter {c : Char} (hc : c.isAlpha = true) (sql : Text) :
    skipLeading (c :: sql) = c :: sql := by
  have hspace : isSpace c = false := by
    by_contra hspace
    simp only [isSpace, Bool.not_eq_false, Bool.or_eq_true, beq_iff_eq] at hspace
    rcases hspace with ((((rfl | rfl) | rfl) | rfl) | rfl) | rfl <;> exact absurd hc (by decide)
  have hdrop : (c :: sql).dropWhile isSpace = c :: sql :=
    List.dropWhile_cons_of_neg (Bool.eq_false_iff.1 hspace)
  have htext := lead_text (c :: sql)
  rw [skipLeading_eq, hdrop]
  split
  · rename_i rest hlead
    rw [hlead] at htext
    cases htext
    exact absurd hc (by decide)
  · rename_i rest hlead
    rw [hlead] at htext
    cases htext
    exact absurd hc (by decide)
  · rfl

/-- A string cannot begin with a word of both kinds. -/
lemma OtherWordFirst.not_controlFirst {sql : Text} (h : OtherWordFirst sql) :
    ¬ ControlFirst sql := by
  obtain ⟨word, rest, hfirst, -, -, hword, -⟩ := h
  rintro ⟨word', hfirst', hword'⟩
  rw [hfirst, Option.some.injEq, Token.word.injEq] at hfirst'
  rw [hfirst'] at hword
  exact hword hword'

end GmsvPg
