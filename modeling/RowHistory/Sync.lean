import RowHistory.Config
import RowHistory.Field.Input
import RowHistory.Json.Reader
import RowHistory.Session
import RowHistory.Text.Utf8

/-!
# Synchronisation

Versions the rows of an input into a table. The input has one JSON object on a line; blank lines
are passed over, but counted. A row may carry the status that is forced on it. Every row gives one
line of output, and the counters come last. The first line that is unusable ends the run, and what
was not committed is lost. This file fixes

* the lines of an input (`Sync.splitLines`);
* a run (`Sync`), its start, a line of it and its end;
* a whole run over an input (`Sync.run`), and one whose clock is set before each line (`Sync.drive`).
-/

namespace RowHistory

/-- A run over an input. -/
structure Sync (σ : Type) where
  fields : Classification
  session : Session σ
  /-- How many lines were read. -/
  line : Nat := 0

namespace Sync

variable {σ : Type}

/-! ## 1. Lines -/

/-- A line without the carriage return at its end. -/
def dropReturn (line : List UInt8) : List UInt8 :=
  if line.getLast? = some 13 then line.dropLast else line

/-- The lines of bytes, behind those of the line that is being read, the last one first. -/
def linesFrom (current : List UInt8) : List UInt8 → List (List UInt8)
  | [] => if current.isEmpty then [] else [current.reverse]
  | b :: bytes =>
    if b = 10 then dropReturn current.reverse :: linesFrom [] bytes
    else linesFrom (b :: current) bytes

/-- The lines of an input. A line ends with a newline, before which a carriage return is
dropped. -/
def splitLines (bytes : List UInt8) : List (List UInt8) :=
  linesFrom [] bytes

/-! ## 2. Rows -/

/-- The member that forces a status on a row. -/
def statusKey : String := "_status"

/-- The status that is forced on a row, and the row without it. -/
def takeStatus (line : Nat) : Json → Except RunError (Option RowStatus × Json)
  | .obj members =>
    let rest := Json.obj (Assoc.erase statusKey members)
    match Assoc.find? statusKey members with
    | none => .ok (none, rest)
    | some .null => .ok (none, rest)
    | some (.str name) => match RowStatus.ofName? name with
      | some status => .ok (some status, rest)
      | none => .error (.input line (RowStatus.unknownMessage name))
    | some other => .error (.input line s!"{statusKey} must be a string, got {other.render}")
  | _ => .error (.input line "expected a JSON object")

/-- The row of a line and the status that is forced on it. -/
def readRow (fields : Classification) (line : Nat) (text : String) :
    Except RunError (Row × Option RowStatus) :=
  match Json.readPlain? text with
  | none => .error (.input line "invalid JSON")
  | some json => match takeStatus line json with
    | .error e => .error e
    | .ok (status, json) => match fields.rowOfJson json with
      | .error e => .error (.input line e.message)
      | .ok row => .ok (row, status)

/-- What is printed for a row. -/
def answerOf (line : Nat) : Option RowResult → Json
  | some result => result.toJson
  | none => .obj [("line", .int line), ("recovered", .bool true)]

/-- Rows that a transient failure took are logged, and the run goes on. -/
def dropRows : Recovery Failure := fun e rows =>
  (true, [⟨.warn, "SYNC_ROWS_DROPPED",
    [("error", e.message), ("rows", String.ofList (Text.digits rows.length))]⟩])

/-! ## 3. A run -/

variable [Connection σ]

/-- Starts a run; on failure the database is given back. -/
def start (o : Options) (clock : Clock) (id : String) (connection : σ) :
    Except (RunError × σ) (Sync σ) :=
  match Session.begin o clock id connection with
  | .error (e, connection) => .error (.ofFailure e, connection)
  | .ok session =>
    let session := { session with counters := some {} }
    .ok { fields := o.fields, session := (session.setRecovery dropRows).2 }

/-- Reads one line. A blank one prints nothing. -/
def step (s : Sync σ) (bytes : List UInt8) : Except RunError (Option Json) × Sync σ :=
  let s := { s with line := s.line + 1 }
  match Utf8.decode? bytes with
  | none => (.error ⟨.file, "stream did not contain valid UTF-8"⟩, s)
  | some text =>
    if Text.allBlank text then (.ok none, s)
    else match readRow s.fields s.line text with
      | .error e => (.error e, s)
      | .ok (row, status) => match s.session.processAs row status with
        | (.error e, session) => (.error (.ofFailure e), { s with session })
        | (.ok result, session) => (.ok (some (answerOf s.line result)), { s with session })

/-- The counters with their names in order. -/
def metrics (s : Sync σ) : Json :=
  .obj [("metrics", (s.session.counters.getD {}).toJson.plain)]

/-- Ends a run with its counters. -/
def finish (s : Sync σ) : Except RunError Json × Sync σ :=
  match s.session.finish with
  | (.error e, session) => (.error (.ofFailure e), { s with session })
  | (.ok (), session) => let s := { s with session }; (.ok s.metrics, s)

/-- What a run printed, and how it ended. -/
structure Report (σ : Type) where
  /-- The lines. -/
  output : List Json := []
  error : Option RunError := none
  log : List LogEntry := []
  connection : σ

/-- The report of a run that is over; its session is closed. -/
def report (s : Sync σ) (output : List Json) (error : Option RunError) : Report σ :=
  let session := s.session.close.2
  { output, error, log := session.storage.log, connection := session.storage.connection }

/-- The run with its clock set. -/
def withClock (s : Sync σ) (clock : Clock) : Sync σ :=
  { s with session := { s.session with clock } }

/-- Reads the lines that are left, after some output. The clock is set before each line and before the
end, each of which takes one tick at most. -/
def driveLines {m : Type → Type} [Monad m] (set : Clock → m Clock) (s : Sync σ)
    (output : List Json) : List (List UInt8) → m (Report σ)
  | [] => do
    let s := s.withClock (← set s.session.clock)
    match s.finish with
    | (.ok last, s) => return s.report (output ++ [last]) none
    | (.error e, s) => return s.report output (some e)
  | line :: lines => do
    let s := s.withClock (← set s.session.clock)
    match s.step line with
    | (.error e, s) => return s.report output (some e)
    | (.ok answer, s) => s.driveLines set (output ++ answer.toList) lines

/-- Versions the rows of an input, which may have failed to be read. -/
def drive {m : Type → Type} [Monad m] (set : Clock → m Clock) (o : Options) (clock : Clock)
    (id : String) (input : Except String (List UInt8)) (connection : σ) : m (Report σ) := do
  match start o (← set clock) id connection with
  | .error (e, connection) => return { error := some e, connection }
  | .ok s => match input with
    | .error reason => return s.report [] (some ⟨.file, reason⟩)
    | .ok bytes => s.driveLines set [] (splitLines bytes)

/-- Versions the rows of an input, with the readings of one clock. -/
def run (o : Options) (clock : Clock) (id : String) (input : Except String (List UInt8))
    (connection : σ) : Report σ :=
  Id.run (drive pure o clock id input connection)

end Sync

end RowHistory
