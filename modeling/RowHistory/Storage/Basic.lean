import RowHistory.Batch
import RowHistory.Connection.Basic
import RowHistory.Log.Basic
import RowHistory.Record
import RowHistory.Status

/-!
# Version storage

The table of a session. It looks up stored versions and writes new ones; writes gather in a
batch, and a full batch is committed. A statement is prepared once for a connection. When
something fails, the transaction is rolled back, or a lost connection is replaced, and the rows
of the batch are handed to whoever wants to recover them. This file fixes

* the storage (`Storage`) and what is done with it (`Storage.Action`): an action that fails keeps
  what it did to the storage;
* lookups (`latest`, `active`) and writes (`apply`, `purge`);
* the end of a transaction (`commit`, `rollback`) and of the storage (`close`).
-/

namespace RowHistory

/-- What is done after a rollback, given the error and the rows that are lost: whether it is
accepted, and what is logged. -/
abbrev Recovery (ε : Type) := ε → List Row → Bool × List LogEntry

/-- The table of a session, whose errors have some type. -/
structure Storage (σ ε : Type) where
  layout : Layout
  /-- The database and the connection to it. -/
  connection : σ
  /-- The connection is this storage's. -/
  held : Bool := true
  /-- The statements that are prepared on the connection. -/
  statements : List (StatementKind × Statement) := []
  batch : Batch Row
  recovery : Option (Recovery ε) := none
  /-- The calls of the recovery. -/
  recovered : List (ε × List Row) := []
  /-- What log entries call the session. -/
  session : String := ""
  log : List LogEntry := []

namespace Storage

variable {σ ε α : Type}

/-- Something that is done with a storage and may fail. -/
abbrev Action (σ ε : Type) := ExceptT StorageError (StateM (Storage σ ε))

/-- The storage with one more log entry. -/
def logged (s : Storage σ ε) (e : LogEntry) : Storage σ ε :=
  { s with log := s.log ++ [e] }

/-- The fields of a log entry, after the session. -/
def fields (s : Storage σ ε) (more : List (String × String)) : List (String × String) :=
  ("session", s.session) :: more

/-- The connection can run statements. -/
def isConnected [Connection σ] (s : Storage σ ε) : Bool :=
  s.held && Connection.isOpen s.connection

variable [Connection σ]

/-- Connects and sets up a storage; on failure the database is given back. -/
def connect (layout : Layout) (commitSize : Nat) (session : String) (connection : σ) :
    Except (StorageError × σ) (Storage σ ε) :=
  match Connection.perform .connect connection with
  | (.ok (), connection) => .ok { layout, connection, batch := Batch.ofSize commitSize, session }
  | (.error e, connection) => .error (e, connection)

/-! ## 1. Statements -/

/-- Asks the connection, if it is held. -/
def request (r : Request α) : Action σ ε α := do
  let s ← get
  if s.held then
    let (answer, connection) := Connection.perform r s.connection
    set { s with connection }
    answer
  else
    throw .connectionClosed

/-- Fails unless a connection is held. -/
def requireHeld : Action σ ε Unit := do
  unless (← get).held do
    throw .connectionClosed

/-- The statement of a kind, which is prepared when it is first used. -/
def statement (kind : StatementKind) : Action σ ε Statement := do
  let s ← get
  match s.statements.lookup kind with
  | some st => return st
  | none =>
    let st ← s.layout.statement kind
    request (.prepare st)
    let prepared : LogEntry := .ofEventAt .trace .statementPrepared
      (s.fields [("kind", kind.name), ("sql", st.sql)])
    modify fun s => { s.logged prepared with statements := (kind, st) :: s.statements }
    return st

/-- The version that a selection gives. -/
def select (kind : StatementKind) (b : Binding) : Action σ ε (Option Record) := do
  requireHeld
  let st ← statement kind
  match ← request (.query st (st.bind b)) with
  | none => return none
  | some row => return some (← Record.ofRow (← get).layout.names row)

/-- The latest version of a row's identifier. -/
def latest (row : Row) : Action σ ε (Option Record) :=
  select .latest { row }

/-- The version of a row's identifier that is active at an instant; of several, the latest. -/
def active (row : Row) (now : Instant) : Action σ ε (Option Record) :=
  select .active { row, instant := some now }

/-- Runs a statement with the values of a row. -/
def execute (kind : StatementKind) (row : Row) : Action σ ε Unit := do
  requireHeld
  let st ← statement kind
  let _ ← request (.execute st (st.bind { row }))

/-! ## 2. Transactions -/

/-- Keeps the writes of the batch. -/
def commit : Action σ ε Unit := do
  let pending := (← get).batch.pending
  request .commit
  modify fun s => { s with batch := s.batch.clear }
  if 0 < pending then
    modify fun s => s.logged (.ofEventAt .trace .batchCommit
      (s.fields [("rows", String.ofList (Text.digits pending))]))

/-- Counts a write, and commits a full batch. -/
def settle : Action σ ε Unit := do
  modify fun s => { s with batch := s.batch.count }
  if (← get).batch.isFull then
    commit

/-- Remembers a row until the transaction ends. -/
def backUp (s : Storage σ ε) (row : Row) : Storage σ ε :=
  { s with batch := s.batch.keep row }

/-- The statements of a mutation, in order. -/
def statementsOf : Mutation → List StatementKind
  | .none => []
  | .touch => [.touch]
  | .insert => [.insert]
  | .replace => [.endActive, .insert]
  | .update => [.update]
  | .close => [.purgeOne]

/-- Writes a row as a mutation asks, all of it in one transaction. -/
def apply (m : Mutation) (row : Row) : Action σ ε Unit := do
  (statementsOf m).forM fun kind => execute kind row
  if m.writes then
    settle

/-- Ends the versions that are open at an instant and were not seen since a cutoff, and commits.
The answer is how many there were. -/
def purge (cutoff now : Instant) (condition : Option String) : Action σ ε Nat := do
  let st ← (← get).layout.purge condition
  request (.prepare st)
  let count ← request (.execute st (st.bind { instant := some now, cutoff := some cutoff }))
  commit
  return count

/-! ## 3. Failures and the end -/

/-- Lets the connection go, and closes it if it is open. -/
def disconnect (s : Storage σ ε) : Except StorageError Unit × Storage σ ε :=
  let (answer, connection) :=
    if s.isConnected then Connection.perform .close s.connection else (.ok (), s.connection)
  (answer, { s with connection := Connection.release connection, held := false })

/-- Replaces a lost connection. -/
def reconnect (s : Storage σ ε) : Storage σ ε :=
  let (_, s) := { s with statements := [] }.disconnect
  match Connection.perform .connect s.connection with
  | (.ok (), connection) =>
    { s with connection, held := true }.logged (.ofEvent .connectionReconnect
      (s.fields [("target", Connection.describe connection)]))
  | (.error e, connection) =>
    { s with connection, held := false }.logged (.ofEventAt .error .connectionLost
      (s.fields [("error", e.text)]))

/-- Undoes the transaction, by a rollback or by a new connection. -/
def undo (s : Storage σ ε) : Storage σ ε :=
  if s.isConnected then
    match Connection.perform .rollback s.connection with
    | (.ok (), connection) => { s with connection }
    | (.error e, connection) =>
      { s with connection }.logged ⟨.warn, "ROLLBACK_FAILED", s.fields [("error", e.text)]⟩
  else s.reconnect

/-- Gives up the batch. -/
def dropBatch [ToString ε] (s : Storage σ ε) (error : ε) : Storage σ ε :=
  let number (n : Nat) : String := String.ofList (Text.digits n)
  { s with batch := s.batch.clear }.logged (.ofEventAt .warn .batchRollback (s.fields
    [("discarded_writes", number s.batch.pending),
      ("backup_rows", number s.batch.backup.length), ("error", toString error)]))

/-- Hands lost rows to the recovery, which says whether it accepts the error; without a recovery
nobody does. -/
def consult (s : Storage σ ε) (error : ε) (rows : List Row) : Bool × Storage σ ε :=
  match s.recovery with
  | none => (false, s)
  | some recovery =>
    let (accepted, entries) := recovery error rows
    (accepted,
      { s with recovered := s.recovered ++ [(error, rows)], log := s.log ++ entries })

/-- Undoes the transaction after an error and hands the rows of the batch to the recovery. -/
def rollback [ToString ε] (s : Storage σ ε) (error : ε) : Bool × Storage σ ε :=
  let s := s.undo
  (s.dropBatch error).consult error s.batch.backup

/-- Lets the connection and the statements go. What is not committed is lost. -/
def close (s : Storage σ ε) : Except StorageError Unit × Storage σ ε :=
  { s with statements := [], batch := s.batch.clear }.disconnect

end Storage

end RowHistory
