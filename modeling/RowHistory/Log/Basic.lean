import RowHistory.Json.Basic

/-!
# Log entries

A log entry is an event, its severity and named texts. An entry becomes one line: an object with
the event first, the severity second, and then the names in order. This file fixes

* the severities and their order (`Severity`);
* the events of a session (`Event`);
* the entries, which of them are written, and the line of one (`LogEntry`).
-/

namespace RowHistory

/-- How grave an entry is. -/
inductive Severity where
  /-- Detail, such as statements and decisions on rows. -/
  | trace
  /-- Normal work. -/
  | info
  /-- Something that was recovered from. -/
  | warn
  /-- An operation failed. -/
  | error
  /-- The session cannot go on. -/
  | fatal
deriving DecidableEq, Repr

namespace Severity

/-- The place of a severity, least grave first. -/
def rank : Severity → Nat
  | .trace => 0
  | .info => 1
  | .warn => 2
  | .error => 3
  | .fatal => 4

/-- The name of a severity in a line. -/
def name : Severity → String
  | .trace => "TRACE"
  | .info => "INFO"
  | .warn => "WARN"
  | .error => "ERROR"
  | .fatal => "FATAL"

/-- The severity that settings name, in upper or lower case. -/
def parse (s : String) : Except String Severity :=
  match s.toLower with
  | "trace" => .ok .trace
  | "info" => .ok .info
  | "warn" => .ok .warn
  | "warning" => .ok .warn
  | "error" => .ok .error
  | "fatal" => .ok .fatal
  | other => .error s!"unknown log level '{other}'"

end Severity

/-- What happens in the life of a session. -/
inductive Event where
  /-- A session opened. -/
  | sessionOpen
  /-- A session finished. -/
  | sessionFinish
  /-- A session let go of its connection. -/
  | sessionClosed
  /-- A failure closed the session. -/
  | sessionAborted
  /-- A statement was prepared. -/
  | statementPrepared
  /-- Pending writes were committed. -/
  | batchCommit
  /-- Pending writes were rolled back. -/
  | batchRollback
  /-- A closed connection was replaced. -/
  | connectionReconnect
  /-- A closed connection could not be replaced. -/
  | connectionLost
  /-- A forced status did not apply. -/
  | rowSkipped
  /-- A row failed and the failure was accepted. -/
  | rowRecovered
deriving DecidableEq, Repr

namespace Event

/-- The name of an event. -/
def name : Event → String
  | .sessionOpen => "SESSION_OPEN"
  | .sessionFinish => "SESSION_FINISH"
  | .sessionClosed => "SESSION_CLOSED"
  | .sessionAborted => "SESSION_ABORTED"
  | .statementPrepared => "STATEMENT_PREPARED"
  | .batchCommit => "BATCH_COMMIT"
  | .batchRollback => "BATCH_ROLLBACK"
  | .connectionReconnect => "CONNECTION_RECONNECT"
  | .connectionLost => "CONNECTION_LOST"
  | .rowSkipped => "ROW_SKIPPED"
  | .rowRecovered => "ROW_RECOVERED"

/-- All events. -/
def all : List Event :=
  [.sessionOpen, .sessionFinish, .sessionClosed, .sessionAborted, .statementPrepared,
    .batchCommit, .batchRollback, .connectionReconnect, .connectionLost, .rowSkipped,
    .rowRecovered]

/-- The severity that an event has unless it is given another. -/
def severity : Event → Severity
  | .sessionAborted => .fatal
  | _ => .info

end Event

/-- One entry of the log. -/
structure LogEntry where
  severity : Severity
  event : String
  fields : List (String × String)
deriving DecidableEq, Repr

namespace LogEntry

/-- The entry of an event. -/
def ofEvent (e : Event) (fields : List (String × String)) : LogEntry :=
  ⟨e.severity, e.name, fields⟩

/-- The entry of an event at a given severity. -/
def ofEventAt (severity : Severity) (e : Event) (fields : List (String × String)) : LogEntry :=
  ⟨severity, e.name, fields⟩

/-- The fields by name; of one name, the first stays first. -/
def sortedFields (e : LogEntry) : List (String × String) :=
  e.fields.mergeSort fun a b => decide (a.1 ≤ b.1)

/-- The entry as an object. -/
def toJson (e : LogEntry) : Json :=
  .obj (("event", .str e.event) :: ("severity", .str e.severity.name) ::
    e.sortedFields.map fun f => (f.1, .str f.2))

/-- The line of an entry, without its end. -/
def line (e : LogEntry) : String :=
  e.toJson.render

/-- The line of an entry with its end. -/
def rendered (e : LogEntry) : String :=
  e.line ++ "\n"

/-- The entry is grave enough to be written. -/
def isEnabled (least : Severity) (e : LogEntry) : Bool :=
  least.rank ≤ e.severity.rank

/-- The lines that a log with a least severity writes. -/
def lines (least : Severity) (entries : List LogEntry) : List String :=
  (entries.filter (isEnabled least)).map line

end LogEntry

end RowHistory
