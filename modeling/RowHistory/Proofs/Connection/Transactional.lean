import RowHistory.Connection.Basic
import RowHistory.Connection.Store

/-!
# Connections that keep transactions

What a session may rely on when it talks to a database. Any request may fail at any time; what is
promised is only what a success means and what a failure leaves alone. This file fixes

* what a statement does to a database, all locks and transactions aside (`Database.perform`), and
  the row that its answer gives (`Answer.row?`);
* what a purge does to it (`Layout.purged`), whose condition is written by others and may be anything
  that the database understands, so that only the database knows which rows it picks (`Sql.Judge`);
* the two databases behind a connection (`Transactional`): the one that was committed and the one
  that the connection sees. A failed request keeps the first; a rollback, a release or a new
  connection makes the second equal to it.

The tables are plain ones: no trigger, no collation and no conflict clause changes what a statement
does to them.
-/

namespace RowHistory

open Sql (Answer Cell Command Database Plan SqlError Table)

/-- What a statement does to a database with the supplied values. -/
def Sql.Database.perform (db : Database) (sql : String) (supplied : List Cell) :
    Except SqlError (Answer × Database) :=
  match Command.read sql with
  | .error e => .error (.malformed e)
  | .ok r => match db.plan r.command with
    | .error e => .error e
    | .ok p =>
      if supplied.length = r.parameters then p.run supplied db
      else .error (.parameterCount (min supplied.length (r.parameters + 1)) r.parameters)

/-- The row that an answer gives. -/
def Sql.Answer.row? : Answer → Option Row
  | .row entries => some (Store.rowOfCells entries)
  | _ => none

/-- The values of a statement as the database takes them. -/
def cellsOf (values : List Value) : List Cell :=
  values.map Cell.ofValue

/-- What a database makes of the text of a change and the values that are supplied: it picks rows of
the table by their cells, or it refuses the text. Rows with the same cells are picked alike; versions
never have the same. -/
abbrev Sql.Judge := String → List Cell → Database → Option (List Cell → Bool)

/-- What the statement of a purge does to a database. Without a condition it is one of the layout's
own. With a condition, which the layout does not read, it ends the rows that the database picks. -/
def Layout.purged (l : Layout) (judge : Sql.Judge) (condition : Option String) (sql : String)
    (supplied : List Cell) (db : Database) : Option (Answer × Database) :=
  match Layout.trimmedCondition condition with
  | none => (db.perform sql supplied).toOption
  | some _ => do
    let picked ← judge sql supplied db
    let t ← db.find? l.table
    let column ← t.index? l.names.validTo
    let (t, count) ← (t.update supplied [(column, .parameter 0)] picked).toOption
    return (.changed count, db.replace t)

/-- A connection whose requests belong to a transaction. What its successes mean is promised for the
statements of a layout and for its purges only. -/
class Transactional (σ : Type) [Connection σ] where
  /-- The states in which the promises hold. -/
  Sound : σ → Prop
  /-- What was committed; a new connection sees it. -/
  durable : σ → Database
  /-- What the connection sees. -/
  working : σ → Database
  /-- Which rows the database picks for a change under a condition. Nothing is known of it. -/
  judge : Sql.Judge
  sound_perform {α : Type} (r : Request α) {c : σ} : Sound c → Sound (Connection.perform r c).2
  sound_release {c : σ} : Sound c → Sound (Connection.release c)
  /-- A failure keeps what was committed. -/
  durable_of_error {α : Type} {r : Request α} {c c' : σ} {e : StorageError} : Sound c →
    Connection.perform r c = (.error e, c') → durable c' = durable c
  durable_release {c : σ} : Sound c → durable (Connection.release c) = durable c
  working_release {c : σ} : Sound c → working (Connection.release c) = durable c
  durable_close {c c' : σ} : Sound c →
    Connection.perform .close c = (.ok (), c') → durable c' = durable c
  connect_ok {c c' : σ} : Sound c →
    Connection.perform .connect c = (.ok (), c') → durable c' = durable c ∧ working c' = durable c
  prepare_ok {st : Statement} {c c' : σ} : Sound c →
    Connection.perform (.prepare st) c = (.ok (), c') →
      durable c' = durable c ∧ working c' = working c
  query_ok {l : Layout} {kind : StatementKind} {st : Statement} {values : List Value}
      {row : Option Row} {c c' : σ} : Sound c → l.statement kind = .ok st →
    Connection.perform (.query st values) c = (.ok row, c') →
      durable c' = durable c ∧ ∃ answer, row = answer.row? ∧
        (working c).perform st.sql (cellsOf values) = .ok (answer, working c')
  execute_ok {l : Layout} {kind : StatementKind} {st : Statement} {values : List Value}
      {count : Nat} {c c' : σ} : Sound c → l.statement kind = .ok st →
    Connection.perform (.execute st values) c = (.ok count, c') →
      durable c' = durable c ∧ ∃ answer, (∀ n, answer = .changed n → count = n) ∧
        (working c).perform st.sql (cellsOf values) = .ok (answer, working c')
  purge_ok {l : Layout} {condition : Option String} {st : Statement} {values : List Value}
      {count : Nat} {c c' : σ} : Sound c → l.purge condition = .ok st →
    Connection.perform (.execute st values) c = (.ok count, c') →
      durable c' = durable c ∧ ∃ answer, (∀ n, answer = .changed n → count = n) ∧
        l.purged judge condition st.sql (cellsOf values) (working c) = some (answer, working c')
  commit_ok {c c' : σ} : Sound c →
    Connection.perform .commit c = (.ok (), c') → durable c' = working c ∧ working c' = working c
  /-- Whatever a rollback answers, it leaves what was committed. -/
  rollback_open {c : σ} : Sound c → Connection.isOpen c = true →
    durable (Connection.perform .rollback c).2 = durable c ∧
      working (Connection.perform .rollback c).2 = durable c

end RowHistory
