/-!
# Storage errors

What can go wrong between a session and its table. Every error has a code; the codes of lost or
busy connections are *transient*, and a session may survive those only. This file fixes

* the codes, their names and their grades (`StorageCode`);
* the error with its message and its context (`StorageError`), and its text.
-/

namespace RowHistory

/-- The kinds of storage errors. -/
inductive StorageCode where
  /-- The connection is closed. -/
  | connectionClosed
  /-- No connection could be made. -/
  | connectFailed
  /-- Another connection holds a lock. -/
  | busy
  /-- A device failed. -/
  | deviceError
  /-- A statement could not be prepared or run. -/
  | statementFailed
  /-- A statement broke a constraint of the table. -/
  | constraintViolation
  /-- The layout has no such statement. -/
  | misconfigured
  /-- A stored row makes no sense. -/
  | invalidData
deriving DecidableEq, Repr

namespace StorageCode

/-- The name of a code. -/
def name : StorageCode → String
  | .connectionClosed => "VERSIONING_STORAGE_CONNECTION_CLOSED"
  | .connectFailed => "VERSIONING_STORAGE_CONNECT_FAILED"
  | .busy => "VERSIONING_STORAGE_BUSY"
  | .deviceError => "VERSIONING_STORAGE_IO_ERROR"
  | .statementFailed => "VERSIONING_STORAGE_STATEMENT_FAILED"
  | .constraintViolation => "VERSIONING_STORAGE_CONSTRAINT_VIOLATION"
  | .misconfigured => "VERSIONING_STORAGE_MISCONFIGURED"
  | .invalidData => "VERSIONING_STORAGE_INVALID_DATA"

/-- The settings or the stored data are unusable. -/
def isFatal : StorageCode → Bool
  | .misconfigured => true
  | .invalidData => true
  | _ => false

/-- The error concerns the connection only. -/
def isTransient : StorageCode → Bool
  | .connectionClosed => true
  | .connectFailed => true
  | .busy => true
  | .deviceError => true
  | _ => false

/-- The grade of a code. -/
def severity (c : StorageCode) : String :=
  if c.isFatal then "FATAL" else "ERROR"

end StorageCode

/-- A storage error, with the statement that it concerns. -/
structure StorageError where
  code : StorageCode
  message : String
  details : Option String := none
deriving DecidableEq, Repr

namespace StorageError

/-- The connection is closed. -/
def connectionClosed : StorageError :=
  { code := .connectionClosed, message := "connection is closed" }

/-- A stored row makes no sense. -/
def invalidData (message : String) : StorageError :=
  { code := .invalidData, message }

/-- The layout has no such statement. -/
def misconfigured (message : String) : StorageError :=
  { code := .misconfigured, message }

/-- The error with a context. -/
def withDetails (e : StorageError) (details : String) : StorageError :=
  { e with details := some details }

/-- The text of an error. -/
def text (e : StorageError) : String :=
  let head := s!"[{e.code.severity}] {e.code.name}: {e.message}"
  match e.details with
  | some details => s!"{head} ({details})"
  | none => head

end StorageError

end RowHistory
