import RowHistory.Clock
import RowHistory.Counters
import RowHistory.Decision
import RowHistory.Log.Scope
import RowHistory.Options
import RowHistory.RowResult
import RowHistory.Storage.Basic

/-!
# Sessions

One run over a table. Every row is judged against the stored versions of its identifier, stamped
with the next tick of the clock, and written. If a row fails, its transaction is undone, and the
session goes on only if the recovery accepts a transient storage error; otherwise it is closed.
This file fixes

* the session (`Session`) and how it is opened (`Session.begin`);
* how a row is processed (`process`), by itself or with a status that is forced on it;
* the purge of what was not seen (`purge`), and the end (`finish`, `close`).
-/

namespace RowHistory

/-- A run over a table. -/
structure Session (σ : Type) where
  options : Options
  storage : Storage σ Failure
  isOpen : Bool := true
  /-- The counters, if lines are counted. -/
  counters : Option Counters := none
  clock : Clock
  /-- The start, which is the cutoff of a purge too. -/
  start : Instant
  /-- The end of the validity of new versions. -/
  validTo : Option Instant

namespace Session

variable {σ α : Type}

/-- A part of the work on a row, which may fail and then keeps what it did. -/
abbrev Action (σ : Type) := ExceptT Failure (StateM (Session σ))

/-! ## 1. Opening -/

/-- The start of a session and its clock: a given start comes before all ticks, and otherwise the
first tick is the start. -/
def startOf (o : Options) (clock : Clock) : Instant × Clock :=
  match o.startDate with
  | some start => (start.truncate, clock.observe start)
  | none => clock.tick

/-- What is settled before a session connects: the options are consistent, and its start, its
clock and its horizon are known. -/
def prepare (o : Options) (clock : Clock) :
    Except Failure (Instant × Clock × Option Instant) := do
  o.validate
  let (start, clock) := startOf o clock
  return (start, clock, ← o.validTo.resolve start)

variable [Connection σ]

/-- Opens a session; on failure the database is given back. -/
def begin (o : Options) (clock : Clock) (id : String) (connection : σ) :
    Except (Failure × σ) (Session σ) :=
  match prepare o clock with
  | .error e => .error (e, connection)
  | .ok (start, clock, validTo) =>
    match Storage.connect o.layout o.commitSize id connection with
    | .error (e, connection) => .error (.storage e, connection)
    | .ok storage =>
      let opened : LogEntry := .ofEvent .sessionOpen (storage.fields
        [("table", o.layout.path), ("target", Connection.describe storage.connection),
          ("commit_size", String.ofList (Text.digits o.commitSize))])
      .ok { options := o, storage := { storage with log := [opened] }, clock, start, validTo }

/-! ## 2. Parts -/

/-- Does something with the storage. -/
def withStorage (f : Storage.Action σ Failure α) : Action σ α := do
  let s ← get
  let (answer, storage) := f.run.run s.storage
  set { s with storage }
  match answer with
  | .ok a => return a
  | .error e => throw (.storage e)

/-- The session with one more log entry. -/
def logged (s : Session σ) (e : LogEntry) : Session σ :=
  { s with storage := s.storage.logged e }

/-- The session with one more log entry, which carries its name. -/
def noted (s : Session σ) (severity : Severity) (event : Event) (more : List (String × String)) :
    Session σ :=
  s.logged (.ofEventAt severity event (s.storage.fields more))

/-- The next tick, and the session after it. -/
def tick (s : Session σ) : Instant × Session σ :=
  let (now, clock) := s.clock.tick
  (now, { s with clock })

/-- Counts something, if lines are counted. -/
def counted (s : Session σ) (f : Counters → Counters) : Session σ :=
  { s with counters := s.counters.map f }

/-- Lets the connection go. What is not committed is lost. Closing twice does nothing. -/
def close (s : Session σ) : Except Failure Unit × Session σ :=
  if s.isOpen then
    let (answer, storage) := s.storage.close
    (answer.mapError .storage,
      { s with storage, isOpen := false }.noted .info .sessionClosed [])
  else (.ok (), s)

/-- Closes the session because of a failure. -/
def abort (s : Session σ) (e : Failure) : Session σ :=
  (s.noted .fatal .sessionAborted [("error", e.message)]).close.2

/-! ## 3. Rows -/

/-- The identifier field that a row lacks, if there is one. -/
def missingIdentifier? (o : Options) (row : Row) : Option String :=
  (o.fields.names .id).find? fun name => (row.value name).isNull

/-- What a row is by itself. -/
def judge (row : Row) (now : Instant) : Action σ Outcome := do
  match ← withStorage (Storage.active row now) with
  | some active =>
    match (← get).options.fields.againstActive row active with
    | .ok outcome => return outcome
    | .error e => throw (.typeMismatch e)
  | none => return .withoutActive (← withStorage (Storage.latest row))

/-- The status that is forced on a row applies to the active version as it is stored; without
one the row is skipped. -/
def force (forced : Option RowStatus) (natural : Outcome) : Outcome × Option SkipReason :=
  match forced with
  | none => (natural, none)
  | some status => match SkipReason.ofNatural? natural.status with
    | some reason => (⟨.skipped, natural.version⟩, some reason)
    | none => (⟨status, natural.activeVersion⟩, none)

/-- The row with its bookkeeping columns. -/
def stamp (b : Bookkeeping) (version : Int) (now : Instant) (validTo : Option Instant)
    (row : Row) : Row :=
  let row := row.set b.version (.int64 version)
  let row := row.set b.validFrom (.timestamp now)
  let row := row.set b.validTo (Value.ofInstant? validTo)
  match b.lastSeen with
  | some name => row.set name (.timestamp now)
  | none => row

/-- The row as an outcome writes it; a purged one ends now. -/
def stamped (o : Options) (validTo : Option Instant) (outcome : Outcome) (now : Instant)
    (row : Row) : Row :=
  let row := stamp o.names outcome.version now validTo row
  if outcome.status = .purged then row.set o.names.validTo (.timestamp now) else row

/-- What is told of a row after it was written. -/
def resultOf (b : Bookkeeping) (outcome : Outcome) (reason : Option SkipReason) (row : Row) :
    RowResult :=
  { row
    version := outcome.version
    validFrom := (row.value b.validFrom).asInstant?
    validTo := (row.value b.validTo).asInstant?
    status := outcome.status
    skipReason := reason }

/-- Judges a row, stamps it and writes it. -/
def apply (row : Row) (forced : Option RowStatus) (now : Instant) : Action σ RowResult := do
  let o := (← get).options
  if let some name := missingIdentifier? o row then
    throw (.missingIdentifier name)
  let (outcome, reason) := force forced (← judge row now)
  if let some reason := reason then
    modify fun s => s.noted .trace .rowSkipped [("reason", reason.name)]
  let row := stamped o (← get).validTo outcome now row
  let mutation := Mutation.ofStatus o.names.tracksLastSeen outcome.status
  if mutation.writes then
    modify fun s => { s with storage := s.storage.backUp row }
  withStorage (Storage.apply mutation row)
  return resultOf o.names outcome reason row

/-- Undoes a failed row, and decides whether the session goes on. -/
def recover (s : Session σ) (e : Failure) : Except Failure (Option RowResult) × Session σ :=
  let (accepted, storage) := s.storage.rollback e
  let s := { s with storage }
  if accepted && e.isRecoverable then
    (.ok none, s.noted .warn .rowRecovered [("error", e.message)])
  else (.error e, s.abort e)

/-- Processes a row, with a status that may be forced on it. There is no result if the row failed
and the failure was accepted. -/
def processRow (s : Session σ) (row : Row) (forced : Option RowStatus) :
    Except Failure (Option RowResult) × Session σ :=
  if s.isOpen then
    let (now, s) := s.tick
    match (apply row forced now).run.run s with
    | (.ok result, s) => (.ok (some result), s.counted (·.record result.status))
    | (.error e, s) => s.recover e
  else (.error .sessionClosed, s)

/-- Processes a row. -/
def process (s : Session σ) (row : Row) : Except Failure (Option RowResult) × Session σ :=
  s.processRow row none

/-- Processes a row with a forced status. Only identical and purged can be forced; any other
status closes the session. -/
def processAs (s : Session σ) (row : Row) (forced : Option RowStatus) :
    Except Failure (Option RowResult) × Session σ :=
  match forced with
  | none => s.processRow row none
  | some .identical => s.processRow row (some .identical)
  | some .purged => s.processRow row (some .purged)
  | some status =>
    if s.isOpen then (.error (.statusNotAllowed status), s.abort (.statusNotAllowed status))
    else (.error .sessionClosed, s)

/-! ## 4. Purge and end -/

/-- Undoes what is pending, and closes the session because of a storage error. -/
def failWith (s : Session σ) (e : StorageError) : Except Failure α × Session σ :=
  let (_, storage) := s.storage.rollback (.storage e)
  (.error (.storage e), { s with storage }.abort (.storage e))

/-- The scope of a purge. -/
def purgeScope (s : Session σ) : Scope :=
  { name := "PURGE", fields := s.storage.fields [] }

/-- Ends the versions that were not seen since the start. The answer is how many there were. -/
def purge (s : Session σ) : Except Failure Nat × Session σ :=
  if !s.options.names.tracksLastSeen then
    (.error (.config "purge requires field_names.last_seen"), s)
  else if !s.isOpen then (.error .sessionClosed, s)
  else
    let (now, s) := s.tick
    let s := s.logged s.purgeScope.begun
    match (Storage.purge s.start now s.options.purgeWhere).run.run s.storage with
    | (.ok closed, storage) =>
      let number := String.ofList (Text.digits closed)
      let s := { s with storage }.logged (s.purgeScope.completed [("closed", number)] 0)
      (.ok closed, s.counted (·.addRejected closed))
    | (.error e, storage) =>
      ({ s with storage }.logged (s.purgeScope.failed e.text)).failWith e

/-- Commits and closes. -/
def commitAndClose (s : Session σ) : Except Failure Unit × Session σ :=
  match Storage.commit.run.run s.storage with
  | (.error e, storage) => { s with storage }.failWith e
  | (.ok (), storage) => ({ s with storage }.noted .info .sessionFinish []).close

/-- Ends the session: purges if that is wanted, commits and closes. -/
def finish (s : Session σ) : Except Failure Unit × Session σ :=
  if !s.isOpen then (.error .sessionClosed, s)
  else if s.options.purge then
    match s.purge with
    | (.error e, s) => (.error e, s)
    | (.ok _, s) => s.commitAndClose
  else s.commitAndClose

/-- Sets what is done after a rollback. -/
def setRecovery (s : Session σ) (recovery : Recovery Failure) :
    Except Failure Unit × Session σ :=
  if s.isOpen then
    (.ok (), { s with storage := { s.storage with recovery := some recovery } })
  else (.error .sessionClosed, s)

end Session

end RowHistory
