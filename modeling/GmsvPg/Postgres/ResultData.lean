/-
# The results of an execution

`ResultData`, the conversion of a `PGresult`, and `QueryData`: the results that were appended
to the data of an execution, and the cursor with which they are read.
-/
import GmsvPg.Postgres.Query
import Mathlib.Algebra.Group.Nat.Defs

namespace GmsvPg

/-- A result with its contents: besides the status and the error fields, what the functions
`PQfname`, `PQftype`, `PQgetisnull`, `PQgetvalue`, `PQcmdTuples`, `PQoidValue` and `PQcmdStatus`
return.  A column has a name and a type; a row has for each column a value, or null. -/
structure StatementPGresult extends PGresult where
  columns : List (Text × ℕ) := []
  tuples : List (List (Option Text)) := []
  cmdTuples : Text := []
  oidValue : ℕ := 0
  cmdStatus : Option Text := none
deriving DecidableEq, Repr

/-- `PgFieldType` -/
inductive PgFieldType
  | string
  | number
  | bool
  | null
  | binary
deriving DecidableEq, Repr

/-- `ResultDataRow` -/
structure ResultDataRow where
  nullFields : List Bool
  values : List Text
deriving DecidableEq, Repr

/-- `ResultData` -/
structure ResultData where
  columns : List Text := []
  columnTypes : List PgFieldType := []
  rows : List ResultDataRow := []
deriving DecidableEq, Repr

/-- `ResultData::typeForOid` -/
def typeForOid (oid : ℕ) : PgFieldType :=
  if oid = 16 then .bool
  else if oid = 21 ∨ oid = 23 ∨ oid = 700 ∨ oid = 701 then .number
  else if oid = 17 then .binary
  else .string

/-- The value of a field in `ResultDataRow`. -/
def fieldValue (PQunescapeBytea : Text → Option Text) (columnType : PgFieldType) :
    Option Text → Text
  | none => []
  | some value =>
      if columnType = .binary then (PQunescapeBytea value).getD [] else value

/-- The constructor of `ResultDataRow`. -/
def ResultDataRow.ofTuple (PQunescapeBytea : Text → Option Text) (columnTypes : List PgFieldType)
    (tuple : List (Option Text)) : ResultDataRow where
  nullFields := tuple.map Option.isNone
  values := List.zipWith (fieldValue PQunescapeBytea) columnTypes tuple

/-- The constructor of `ResultData`. -/
def ResultData.ofResult (PQunescapeBytea : Text → Option Text) (result : StatementPGresult) :
    ResultData :=
  let columnTypes := result.columns.map fun column => typeForOid column.2
  { columns := result.columns.map Prod.fst
    columnTypes := columnTypes
    rows := result.tuples.map (ResultDataRow.ofTuple PQunescapeBytea columnTypes) }

/-- `strtoull` with base 10. -/
def strtoull (value : Text) : ℕ :=
  let rest := value.dropWhile isspace
  let (negative, digits) :=
    match rest with
    | '-' :: digits => (true, digits)
    | '+' :: digits => (false, digits)
    | digits => (false, digits)
  let magnitude := (digits.takeWhile Char.isDigit).foldl
    (fun n ch => 10 * n + (ch.toNat - '0'.toNat)) 0
  if 2 ^ 64 ≤ magnitude then 2 ^ 64 - 1
  else if negative then (2 ^ 64 - magnitude) % 2 ^ 64
  else magnitude

/-- `LibpqExecutor::parseUnsigned` -/
def parseUnsigned (value : Text) : ℕ := if value = [] then 0 else strtoull value

/-- `StatementResult` -/
structure StatementResult where
  rows : ResultData := {}
  affectedRows : ℕ := 0
  oid : ℕ := 0
  commandStatus : Text := []
deriving DecidableEq, Repr

/-- What `LibpqExecutor::appendResult` makes of a result. -/
def StatementResult.ofResult (PQunescapeBytea : Text → Option Text) (result : StatementPGresult) :
    StatementResult where
  rows := .ofResult PQunescapeBytea result
  affectedRows := parseUnsigned result.cmdTuples
  oid := result.oidValue
  commandStatus := result.cmdStatus.getD []

/-! ### The options of a query -/

/-- `m_options`, an `int`. -/
abbrev Options : Type := BitVec 32

def OPTION_NUMERIC_FIELDS : Options := 1
def OPTION_NAMED_FIELDS : Options := 2
def OPTION_INTERPRET_DATA : Options := 4
def OPTION_CACHE : Options := 8

/-- The options of a new query, and of new data. -/
def defaultOptions : Options := OPTION_NAMED_FIELDS ||| OPTION_INTERPRET_DATA

/-! ### The data of a query -/

/-- `QueryData` -/
structure QueryData extends IQueryData where
  optionsSnapshot : Options := defaultOptions
  results : List StatementResult := []
  currentResult : ℕ := 0
  multiStatementsEnabled : Bool := true
deriving DecidableEq, Repr

namespace QueryData

variable (data : QueryData)

/-- `IQueryData::hasOption` -/
def hasOption (option : Options) : Bool := decide (data.optionsSnapshot &&& option ≠ 0)

/-- `m_results[m_currentResult]` -/
def current : Option StatementResult := data.results[data.currentResult]?

def getAffectedRows : ℕ := data.current.elim 0 StatementResult.affectedRows

def getOid : ℕ := data.current.elim 0 StatementResult.oid

def getCommandStatus : Text := data.current.elim [] StatementResult.commandStatus

def hasAnyResults : Bool := !data.results.isEmpty

def hasMoreResults : Bool := decide (data.currentResult + 1 < data.results.length)

/-- `advanceResult` -/
def advanceResult : Bool × QueryData :=
  if data.hasMoreResults then (true, { data with currentResult := data.currentResult + 1 })
  else (false, data)

/-- `addStatementResult` -/
def addStatementResult (result : StatementResult) : QueryData :=
  { data with results := data.results ++ [result] }

/-- The data after a list of results has been appended. -/
def addResults (results : List StatementResult) : QueryData :=
  { data with results := data.results ++ results }

@[simp] lemma addResults_nil : data.addResults [] = data := by
  rw [addResults, List.append_nil]

end QueryData

end GmsvPg
