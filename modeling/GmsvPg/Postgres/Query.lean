/-
# Queries as children of a transaction

`Query::executeInTransaction` and `PreparedQuery::executeInTransaction`, with the filter for
transaction control in front of them.  `leadingSqlKeyword` and `isTransactionControlSql`
stand in `Query.cpp` and, with the same text, in `PreparedQuery.cpp`.  An index into the SQL
string is modelled by the rest of the string from there on.
-/
import GmsvPg.Postgres.LibpqExecutor

namespace GmsvPg

open LibpqExecutor

/-- `std::isspace`, in the C locale. -/
def isspace (ch : Char) : Bool :=
  ch == ' ' || ch == '\t' || ch == '\n' || ch == '\x0b' || ch == '\x0c' || ch == '\r'

/-- `std::isalpha`, in the C locale. -/
def isalpha (ch : Char) : Bool := ch.isAlpha

/-- `std::tolower`, in the C locale. -/
def tolower (ch : Char) : Char := ch.toLower

/-- The loop of `leadingSqlKeyword` over a line comment. -/
def skipLineComment (sql : Text) : Text := sql.dropWhile fun ch => ch != '\n' && ch != '\r'

/-- The loop of `leadingSqlKeyword` over a block comment.  A comment that does not end leaves
its last character. -/
def skipBlockComment : Text → Text
  | c :: d :: rest => if c = '*' ∧ d = '/' then rest else skipBlockComment (d :: rest)
  | rest => rest

lemma length_skipBlockComment_le (sql : Text) :
    (skipBlockComment sql).length ≤ sql.length := by
  fun_induction skipBlockComment sql with
  | case1 c d rest hend =>
      simp only [List.length_cons]
      omega
  | case2 c d rest hend ih =>
      simp only [List.length_cons] at ih ⊢
      omega
  | case3 => rfl

/-- The outer loop of `leadingSqlKeyword`: what is left after whitespace and comments. -/
def skipLeading (sql : Text) : Text :=
  match _h : sql.dropWhile isspace with
  | '-' :: '-' :: rest => skipLeading (skipLineComment rest)
  | '/' :: '*' :: rest => skipLeading (skipBlockComment rest)
  | rest => rest
termination_by sql.length
decreasing_by
  · have hdrop := (List.dropWhile_suffix isspace (l := sql)).length_le
    have hline := (List.dropWhile_suffix (fun ch => ch != '\n' && ch != '\r')
      (l := rest)).length_le
    rw [_h] at hdrop
    simp only [List.length_cons] at hdrop
    unfold skipLineComment
    omega
  · have hdrop := (List.dropWhile_suffix isspace (l := sql)).length_le
    have hblock := length_skipBlockComment_le rest
    rw [_h] at hdrop
    simp only [List.length_cons] at hdrop
    omega

/-- `leadingSqlKeyword` -/
def leadingSqlKeyword (sql : Text) : Text := ((skipLeading sql).takeWhile isalpha).map tolower

/-- `isTransactionControlSql` -/
def isTransactionControlSql (sql : Text) : Bool :=
  let keyword := leadingSqlKeyword sql
  keyword == "begin".toList || keyword == "start".toList || keyword == "commit".toList ||
    keyword == "end".toList || keyword == "rollback".toList || keyword == "abort".toList

def controlMessage : Text :=
  "pg: transaction control SQL is not allowed inside transaction child queries".toList

/-- `PreparedFieldType` -/
inductive PreparedFieldType
  | number
  | string
  | boolean
  | null
deriving DecidableEq, Repr

/-- `PreparedQueryField` -/
structure PreparedQueryField where
  type : PreparedFieldType
  value : Text := []
deriving DecidableEq, Repr

/-- `PreparedParameterMap` -/
abbrev PreparedParameterMap : Type := List (ℕ × PreparedQueryField)

/-- `PreparedQuery::maxParameterIndex` -/
def maxParameterIndex (params : PreparedParameterMap) : ℕ :=
  params.foldl (fun max pair => if max < pair.1 then pair.1 else max) 0

/-- The parameters that `PreparedQuery` gives to `executeParams`: one for each index up to the
largest, and none set is null. -/
def executionParameters (params : PreparedParameterMap) : List LibpqParameter :=
  (List.range (maxParameterIndex params)).map fun i =>
    match params.lookup (i + 1) with
    | some field => if field.type ≠ .null then .text field.value else .null
    | none => .null

/-- A query that is the child of a transaction, with the parameters of its data. -/
inductive Query
  | query (sql : Text)
  | preparedQuery (sql : Text) (parameters : PreparedParameterMap)
deriving DecidableEq, Repr

namespace Query

/-- `m_query` -/
def sql : Query → Text
  | .query sql => sql
  | .preparedQuery sql _ => sql

/-- What the query is given to `executeParams` with. -/
def parameters : Query → List LibpqParameter
  | .query _ => []
  | .preparedQuery _ parameters => executionParameters parameters

/-- What the query sends. -/
def request (query : Query) : Request :=
  .queryParams query.sql (query.parameters.map LibpqParameter.value)

/-- `Query::executeInTransaction` and `PreparedQuery::executeInTransaction`. -/
def executeInTransaction (replies : ℕ → Reply) : Query → PGM Unit
  | .query sql => do
      if isTransactionControlSql sql then throw (pgException controlMessage)
      executeSingleStatement replies sql
  | .preparedQuery sql parameters => do
      if isTransactionControlSql sql then throw (pgException controlMessage)
      executeParams replies sql (executionParameters parameters)

/-- The exception that is thrown before anything is sent. -/
def refusal (query : Query) : Option PGException :=
  if isTransactionControlSql query.sql then some (pgException controlMessage)
  else if containsNul query.sql then some (pgException nulMessage)
  else none

variable {replies : ℕ → Reply} {query : Query} {w : Backend} {c : PGconn}

lemma executeInTransaction_of_control (h : isTransactionControlSql query.sql = true) :
    query.executeInTransaction replies w = .error (pgException controlMessage) w := by
  cases query with
  | query sql =>
      rw [executeInTransaction, show isTransactionControlSql sql = true from h]
      rfl
  | preparedQuery sql parameters =>
      rw [executeInTransaction, show isTransactionControlSql sql = true from h]
      rfl

/-- The filter lets the query through. -/
lemma executeInTransaction_of_not_control (h : isTransactionControlSql query.sql = false) :
    query.executeInTransaction replies w = executeParams replies query.sql query.parameters w := by
  cases query with
  | query sql =>
      rw [executeInTransaction, show isTransactionControlSql sql = false from h]
      rfl
  | preparedQuery sql parameters =>
      rw [executeInTransaction, show isTransactionControlSql sql = false from h]
      rfl

lemma executeInTransaction_of_refusal {error : PGException} (h : query.refusal = some error) :
    query.executeInTransaction replies w = .error error w := by
  unfold refusal at h
  split at h
  · cases h
    exact executeInTransaction_of_control ‹_›
  · split at h
    · cases h
      rw [executeInTransaction_of_not_control (Bool.eq_false_iff.2 ‹_›), executeParams_nul ‹_›]
    · cases h

lemma executeInTransaction_of_not_refused (replies : ℕ → Reply) (h : query.refusal = none)
    (hc : w.connectionHandle = some c) :
    query.executeInTransaction replies w =
      ((replies w.requests).exchange query.request c).1.result
        (w.exchanged query.request (replies w.requests) c) := by
  unfold refusal at h
  split at h
  · cases h
  · split at h
    · cases h
    · rw [executeInTransaction_of_not_control (Bool.eq_false_iff.2 ‹_›)]
      exact executeParams_eq (Bool.eq_false_iff.2 ‹_›) hc

end Query

end GmsvPg
