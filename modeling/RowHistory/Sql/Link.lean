import RowHistory.Row
import RowHistory.Sql.Database

/-!
# Links to a database

A link is a connection to a database that others use too. What it does goes through a
transaction: the first statement begins one, reading takes a shared lock and writing a reserved
lock, and both last until the transaction ends. Only a commit changes what others see. This file
fixes

* locks and the file that is shared (`Lock`, `File`);
* how far a transaction is (`Hold`), and the link (`Link`);
* preparing, querying, executing, committing and rolling back (`Link.prepare` and so on), with
  the file and the link that they leave behind;
* what another link can do in the meantime (`File.lockOutside`, `File.unlockOutside`).
-/

namespace RowHistory.Sql

/-! ## 1. Locks and files -/

/-- How much of a file a connection holds. -/
inductive Lock where
  | none
  /-- It reads. -/
  | shared
  /-- It writes aside. -/
  | reserved
  /-- Nobody else does anything. -/
  | exclusive
deriving DecidableEq, Repr

/-- How much a lock keeps others from. -/
def Lock.rank : Lock → Nat
  | .none => 0
  | .shared => 1
  | .reserved => 2
  | .exclusive => 3

/-- The stronger of two locks. -/
def Lock.max (a b : Lock) : Lock :=
  if a.rank < b.rank then b else a

/-- What the connections of a database share. -/
structure File where
  /-- What was committed. -/
  content : Database := {}
  /-- The file holds something else than a database. -/
  foreign : Bool := false
  /-- The lock that another connection holds. -/
  outside : Lock := .none
  /-- What the other connection sees in the transaction of its lock. -/
  beside : Option Database := none
deriving DecidableEq, Repr

/-- How far the transaction of a link is. -/
inductive Hold where
  /-- There is none. -/
  | idle
  /-- It has begun and holds no lock. -/
  | begun
  /-- It reads. -/
  | reading
  /-- It writes; this is what the link sees. -/
  | writing (work : Database)
deriving DecidableEq, Repr

/-- The lock of a transaction. -/
def Hold.lock : Hold → Lock
  | .idle => .none
  | .begun => .none
  | .reading => .shared
  | .writing _ => .reserved

/-- A connection to a file. -/
structure Link where
  hold : Hold := .idle
  /-- The names of the tables are known, so that a statement is prepared without a lock. -/
  informed : Bool := false
  /-- Nothing can be written. -/
  readOnly : Bool := false
  /-- How many rows the last statement changed that changes rows; none if it failed. -/
  changes : Nat := 0
deriving DecidableEq, Repr

/-- A file and a link to it. -/
structure Access where
  file : File
  link : Link
deriving DecidableEq, Repr

namespace Access

/-- What the link sees. -/
def view (a : Access) : Database :=
  match a.link.hold with
  | .writing work => work
  | _ => a.file.content

/-- The access with another hold. -/
def withHold (a : Access) (hold : Hold) : Access :=
  { a with link := { a.link with hold } }

/-! ## 2. Locks -/

/-- Begins a transaction unless there is one. -/
def begin (a : Access) : Access :=
  match a.link.hold with
  | .idle => a.withHold .begun
  | _ => a

/-- Learns the names of the tables, unless there are none to learn or another connection forbids
it. -/
def inform (a : Access) : Except SqlError Access :=
  if a.link.informed then .ok a
  else if a.file.foreign then .error .notADatabase
  else if a.file.outside = .exclusive then .error .locked
  else .ok { a with link := { a.link with informed := true } }

/-- Takes the lock for reading. -/
def lockShared (a : Access) : Except SqlError Access :=
  match a.link.hold with
  | .reading => .ok a
  | .writing _ => .ok a
  | _ => if a.file.outside = .exclusive then .error .locked else .ok (a.withHold .reading)

/-- Takes the lock for writing. -/
def lockReserved (a : Access) : Except SqlError Access :=
  match a.link.hold with
  | .writing _ => .ok a
  | _ =>
    if a.link.readOnly then .error .readOnly
    else if a.file.outside = .reserved ∨ a.file.outside = .exclusive then .error .locked
    else .ok (a.withHold (.writing a.file.content))

/-- Takes the lock that a plan needs. -/
def lockFor (a : Access) (p : Plan) : Except SqlError Access :=
  if p.writes then a.lockReserved
  else if p.reads then a.lockShared
  else .ok a

/-! ## 3. Statements -/

/-- A command that looks at tables. -/
def looksAtTables : Command → Bool
  | .select .. => true
  | .insert .. => true
  | .update .. => true
  | .create .. => true
  | _ => false

/-- The plan of a command that was read; the link may learn the names of the tables. -/
def plan (a : Access) (c : Command) : Except SqlError Plan × Access :=
  if looksAtTables c then
    match a.inform with
    | .error e => (.error e, a)
    | .ok a => (a.view.plan c, a)
  else (a.view.plan c, a)

/-- The access after a plan that changed rows, or would have. -/
def counted (a : Access) (p : Plan) (count : Nat) : Access :=
  if p.counts then { a with link := { a.link with changes := count } } else a

/-- Runs a plan under the lock that it needs. A plan that fails changes nothing, but the lock
stays. -/
def run (a : Access) (supplied : List Cell) (p : Plan) : Except SqlError Answer × Access :=
  match a.lockFor p with
  | .error e => (.error e, a.counted p 0)
  | .ok a => match p.run supplied a.view with
    | .error e => (.error e, a.counted p 0)
    | .ok (answer, db) =>
      let a := if p.writes then a.withHold (.writing db) else a
      match answer with
      | .changed count => (.ok answer, a.counted p count)
      | _ => (.ok answer, a)

/-- Prepares a statement, which is to say that nothing is wrong with it. -/
def prepare (a : Access) (sql : String) : Except SqlError Unit × Access :=
  match Command.read sql with
  | .error e => (.error (.malformed e), a)
  | .ok r => match a.plan r.command with
    | (.error e, a) => (.error e, a)
    | (.ok _, a) => (.ok (), a)

/-- Runs a statement inside the transaction with the supplied values. Of too many values only
the first that is too many is counted. -/
def perform (a : Access) (sql : String) (supplied : List Cell) :
    Except SqlError Answer × Access :=
  let a := a.begin
  match Command.read sql with
  | .error e => (.error (.malformed e), a)
  | .ok r => match a.plan r.command with
    | (.error e, a) => (.error e, a)
    | (.ok p, a) =>
      if supplied.length = r.parameters then a.run supplied p
      else (.error (.parameterCount (min supplied.length (r.parameters + 1)) r.parameters), a)

/-- The transaction ends, and what it wrote is there for all. -/
def commit (a : Access) : Except SqlError Unit × Access :=
  match a.link.hold with
  | .writing work =>
    if a.file.outside = .none then
      (.ok (), { a.withHold .idle with file := { a.file with content := work } })
    else (.error .locked, a)
  | _ => (.ok (), a.withHold .idle)

/-- The transaction ends, and what it wrote is gone. -/
def rollback (a : Access) : Access :=
  a.withHold .idle

/-- Runs one statement as a transaction of its own. -/
def alone (a : Access) (p : Plan) : Except SqlError Unit × Access :=
  match a.begin.run [] p with
  | (.error e, a) => (.error e, a.rollback)
  | (.ok _, a) => match a.commit with
    | (.error e, a) => (.error e, a.rollback)
    | (.ok (), a) => (.ok (), a)

/-- Runs the statements of a text, each as a transaction of its own, with fuel for each of them.
An error comes with the text from its statement on. -/
def batchWith : Nat → Access → String → Except (SqlError × String) Unit × Access
  | 0, a, _ => (.ok (), a)
  | fuel + 1, a, sql => match Command.read sql with
    | .error e => (.error (.malformed e, sql), a)
    | .ok r => match a.plan r.command with
      | (.error e, a) => (.error (e, sql), a)
      | (.ok p, a) => match a.alone p with
        | (.error e, a) => (.error (e, sql), a)
        | (.ok (), a) =>
          if r.after.isEmpty then (.ok (), a) else batchWith fuel a r.after

/-- Runs the statements of a text, each as a transaction of its own. -/
def batch (a : Access) (sql : String) : Except (SqlError × String) Unit × Access :=
  batchWith (sql.length + 1) a sql

end Access

/-! ## 4. Another connection -/

/-- Why another connection does not get what it wants. -/
inductive SideError where
  /-- A link holds a lock. -/
  | locked
  /-- There is no transaction to end. -/
  | noTransaction
  /-- There is a transaction already. -/
  | alreadyBegun
  /-- A row is refused. -/
  | refused (e : SqlError)
deriving Repr

/-- The wording of a cause. -/
def SideError.message : SideError → String
  | .locked => "database is locked"
  | .refused e => e.wording
  | .noTransaction => "cannot rollback - no transaction is active"
  | .alreadyBegun => "cannot start a transaction within a transaction"

namespace File

/-- Another connection takes a lock, for which a link must not write, or, if the lock is to be
exclusive, must not even read. -/
def lockOutside (f : File) (held : Lock) (exclusive : Bool) : Except SideError File :=
  let locked (outside : Lock) : File := { f with outside, beside := some f.content }
  if f.beside.isSome then .error .alreadyBegun
  else if exclusive then
    if held = .none then .ok (locked .exclusive) else .error .locked
  else if held = .none ∨ held = .shared then .ok (locked .reserved)
  else .error .locked

/-- Another connection gives its lock back. -/
def unlockOutside (f : File) : Except SideError File :=
  if f.beside.isNone then .error .noTransaction
  else .ok { f with outside := .none, beside := none }

/-- Another connection adds a row to a table. In a transaction of its own the row stays there; else
it may do so beside a link that only reads, but cannot commit then. -/
def seedRow (f : File) (held : Lock) (table : String) (row : List (String × Cell)) :
    Except SideError File :=
  if held = .reserved ∨ held = .exclusive then .error .locked
  else
    let seen := f.beside.getD f.content
    match seen.find? table with
    | none => .error (.refused (.noSuchTable table))
    | some t =>
      let entries := row.filterMap fun (name, cell) => (t.index? name).map fun i => (i, cell)
      match t.insert (entries.map (·.1)) (entries.map (·.2)) with
      | .error e => .error (.refused e)
      | .ok t =>
        if f.beside.isSome then .ok { f with beside := some (seen.replace t) }
        else if held = .shared then .error .locked
        else .ok { f with content := seen.replace t }

/-- Another connection adds rows to a table, each committed at once unless it holds a lock, with
which they are lost. The first row that fails ends it. -/
def seed (f : File) (held : Lock) (table : String) :
    List (List (String × Cell)) → Except SideError Unit × File
  | [] => (.ok (), f)
  | row :: rows => match f.seedRow held table row with
    | .error e => (.error e, f)
    | .ok f => f.seed held table rows

end File

end RowHistory.Sql
