/-
# The data of an execution

The enumerations and the per-execution record of `pg/src/postgres/IQuery.h`, the exceptions
of `PGException.h`, and the two predicates of `Database.cpp` that classify an exception.
A C++ string is a list of characters, one for each byte.
-/
import Mathlib.Data.List.Infix

namespace GmsvPg

/-- A C++ string, by its bytes. -/
abbrev Text : Type := List Char

/-- `QueryStatus`. -/
inductive QueryStatus
  | notRunning
  | running
  | complete
  | aborted
  | waiting
deriving DecidableEq, Repr

/-- `QueryResultStatus`. -/
inductive QueryResultStatus
  | none
  | error
  | success
deriving DecidableEq, Repr

/-- `DatabaseStatus`. -/
inductive DatabaseStatus
  | connected
  | connecting
  | notConnected
  | connectionFailed
deriving DecidableEq, Repr

/-- The fields of `IQueryData` that the backend reads and writes. -/
structure IQueryData where
  errorText : Text := []
  finished : Bool := false
  cancellationRequested : Bool := false
  status : QueryStatus := .notRunning
  resultStatus : QueryResultStatus := .none
deriving DecidableEq, Repr

/-- The C++ class an exception is caught as: `PGConnectionException`, another `PGException`,
or any other `std::exception`. -/
inductive ExceptionClass
  | connection
  | pg
  | other
deriving DecidableEq, Repr

/-- An exception, with the message `what()` returns and the SQLSTATE it carries. -/
structure PGException where
  cls : ExceptionClass
  message : Text
  sqlstate : Text
deriving DecidableEq, Repr

/-- `PGConnectionException(message, sqlstate)`. -/
def PGConnectionException (message : Text) (sqlstate : Text := []) : PGException :=
  ⟨.connection, message, sqlstate⟩

/-- `std::string::find(part) != npos`. -/
def Text.contains (text part : Text) : Bool := decide (part <:+: text)

/-- `isUserCancellationError`. -/
def isUserCancellationError (error : PGException) : Bool :=
  error.sqlstate == "57014".toList ||
    Text.contains error.message "canceling statement due to user request".toList

/-- `Database::isRetriableError`. -/
def isRetriableError (error : PGException) : Bool :=
  (decide (2 ≤ error.sqlstate.length) && error.sqlstate.take 2 == "08".toList &&
      error.sqlstate != "08007".toList) ||
    error.sqlstate.isEmpty

/-- A failure that libpq reports without a result has no SQLSTATE and counts as a lost
connection. -/
lemma isRetriableError_of_sqlstate_nil {error : PGException} (h : error.sqlstate = []) :
    isRetriableError error = true := by
  simp [isRetriableError, h]

end GmsvPg
