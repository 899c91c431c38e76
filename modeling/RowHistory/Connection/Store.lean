import RowHistory.Config
import RowHistory.Connection.Basic
import RowHistory.Sql.Link

/-!
# Stores

A connection to tables that are kept in a file or in memory. A file outlives its connections; a
database in memory is new for each of them. This file fixes

* the store (`Store`), where it is among files (`among`), and how it is opened, with statements
  that are run at once (`connect`);
* statements on it, whose values are bound as cells and whose rows are read as values;
* statements outside of any session (`batch`).
-/

namespace RowHistory

open Sql (Access Cell SqlError)

/-- Tables, and a connection to them if there is one. -/
structure Store where
  target : Target
  /-- The target can be opened. -/
  reachable : Bool := true
  /-- Every connection has a database of its own. -/
  transient : Bool := decide (target = .memory)
  /-- What is run on a new connection. -/
  initSql : Option String := none
  readOnly : Bool := false
  file : Sql.File := {}
  link : Option Sql.Link := none
deriving DecidableEq

namespace Store

/-- The lock that the connection holds. -/
def lock (s : Store) : Sql.Lock :=
  match s.link with
  | some link => link.hold.lock
  | none => .none

/-- A store among files: how its target is opened there, and what the file at a place holds. -/
def among {α : Type} (t : Folder α) (content : List String → Sql.File) (target : Target)
    (initSql : Option String) : Store :=
  match target with
  | .memory => { target, initSql }
  | .file name => match Sql.openNamed? t name with
    | none => { target, initSql, reachable := false }
    | some ⟨.nowhere, readOnly⟩ => { target, initSql, readOnly, transient := true }
    | some ⟨.file place, readOnly⟩ => { target, initSql, readOnly, file := content place }

/-- The store without its connection; a database that is kept nowhere is gone. -/
def disconnected (s : Store) : Store :=
  { s with
    link := none
    file := if s.transient then {} else s.file }

/-- The store after its connection did something. -/
def withAccess (s : Store) (a : Access) : Store :=
  { s with file := a.file, link := some a.link }

/-- Runs statements outside of any session, after what is open was committed. -/
def batch (s : Store) (sql : String) : Except StorageError Unit × Store :=
  match s.link with
  | none => (.error .connectionClosed, s)
  | some link => match (Access.mk s.file link).commit with
    | (.error e, a) => (.error (e.toStorage "COMMIT" "commit"), s.withAccess a)
    | (.ok (), a) => match a.batch sql with
      | (.error (e, rest), a) => (.error (e.toStorage rest "execute_batch"), s.withAccess a)
      | (.ok (), a) => (.ok (), s.withAccess a)

/-- Opens a connection without running anything on it. -/
def link? (s : Store) : Except StorageError Store :=
  let s := s.disconnected
  if s.reachable then .ok { s with link := some { readOnly := s.readOnly } }
  else match s.target with
    | .file path => .error { code := .connectFailed, message := s!"cannot open {path}" }
    | .memory => .error { code := .connectFailed, message := "cannot open in-memory database" }

/-- Opens a connection and runs on it what is to be run. -/
def connect (s : Store) : Except StorageError Unit × Store :=
  match s.link? with
  | .error e => (.error e, s.disconnected)
  | .ok s => match s.initSql with
    | none => (.ok (), s)
    | some sql => match s.batch sql with
      | (.error e, s) => (.error e, s.disconnected)
      | (.ok (), s) => (.ok (), s)

/-- Does something with the connection. -/
def withLink {α : Type} (s : Store) (f : Access → Except StorageError α × Access) :
    Except StorageError α × Store :=
  match s.link with
  | none => (.error .connectionClosed, s)
  | some link =>
    let (answer, a) := f ⟨s.file, link⟩
    (answer, s.withAccess a)

/-- Prepares a statement. -/
def prepare (st : Statement) (a : Access) : Except StorageError Unit × Access :=
  let (answer, a) := a.prepare st.sql
  (answer.mapError fun e => e.toStorage st.sql st.label, a)

/-- The row that cells make. -/
def rowOfCells (entries : List (String × Cell)) : Row :=
  Row.ofList (entries.map fun (name, cell) => (name, cell.toValue))

/-- The first row that a statement gives. -/
def query (st : Statement) (values : List Value) (a : Access) :
    Except StorageError (Option Row) × Access :=
  match a.perform st.sql (values.map Cell.ofValue) with
  | (.error e, a) => (.error (e.toStorage st.sql st.label), a)
  | (.ok (.row entries), a) => (.ok (some (rowOfCells entries)), a)
  | (.ok _, a) => (.ok none, a)

/-- How many rows a statement changed; if it changes none by its nature, how many the last one did
that does. -/
def execute (st : Statement) (values : List Value) (a : Access) :
    Except StorageError Nat × Access :=
  match a.perform st.sql (values.map Cell.ofValue) with
  | (.error e, a) => (.error (e.toStorage st.sql st.label), a)
  | (.ok (.row _), a) => (.error (SqlError.returnedRows.toStorage st.sql st.label), a)
  | (.ok _, a) => (.ok a.link.changes, a)

/-- Keeps what the transaction wrote. -/
def commit (a : Access) : Except StorageError Unit × Access :=
  let (answer, a) := a.commit
  (answer.mapError fun e => e.toStorage "COMMIT" "commit", a)

instance : Connection Store where
  perform
    | .connect, s => s.connect
    | .prepare st, s => s.withLink (prepare st)
    | .query st values, s => s.withLink (query st values)
    | .execute st values, s => s.withLink (execute st values)
    | .commit, s => s.withLink commit
    | .rollback, s => s.withLink fun a => (.ok (), a.rollback)
    | .close, s => (.ok (), s.disconnected)
  isOpen s := s.link.isSome
  release := disconnected
  describe s := s.target.describe

end Store

end RowHistory
