import RowHistory.Statement

/-!
# Connections

What a session asks of a database. Every request gives an answer or a storage error, and leaves
the database and the connection in a new state. This file fixes

* the requests, each with the type of its answer (`Request`);
* what can answer them (`Connection`).

Statements run inside a transaction, which the first of them begins, and which a commit or a
rollback ends.
-/

namespace RowHistory

/-- A request, and the type of its answer. -/
inductive Request : Type → Type where
  /-- Opens a new connection in the place of the present one. -/
  | connect : Request Unit
  /-- Prepares a statement. -/
  | prepare (s : Statement) : Request Unit
  /-- The first row that a statement gives. -/
  | query (s : Statement) (values : List Value) : Request (Option Row)
  /-- How many rows a statement changed. -/
  | execute (s : Statement) (values : List Value) : Request Nat
  /-- Keeps what the transaction wrote. -/
  | commit : Request Unit
  /-- Forgets what the transaction wrote. -/
  | rollback : Request Unit
  /-- Closes the connection and forgets what its transaction wrote. -/
  | close : Request Unit

/-- The kinds of requests. -/
inductive RequestKind where
  | connect
  | prepare
  | query
  | execute
  | commit
  | rollback
  | close
deriving DecidableEq, Repr

namespace RequestKind

/-- The name of a kind. -/
def name : RequestKind → String
  | .connect => "connect"
  | .prepare => "prepare"
  | .query => "query"
  | .execute => "execute"
  | .commit => "commit"
  | .rollback => "rollback"
  | .close => "close"

/-- All kinds. -/
def all : List RequestKind :=
  [.connect, .prepare, .query, .execute, .commit, .rollback, .close]

/-- The kind of a name. -/
def ofName? (s : String) : Option RequestKind :=
  all.find? fun k => k.name = s

end RequestKind

/-- The kind of a request. -/
def Request.kind {α : Type} : Request α → RequestKind
  | .connect => .connect
  | .prepare _ => .prepare
  | .query .. => .query
  | .execute .. => .execute
  | .commit => .commit
  | .rollback => .rollback
  | .close => .close

/-- A database with at most one open connection to it. -/
class Connection (σ : Type) where
  /-- Answers a request. -/
  perform {α : Type} : Request α → σ → Except StorageError α × σ
  /-- The connection can still run statements. -/
  isOpen : σ → Bool
  /-- Lets the connection go, whatever state it is in. -/
  release : σ → σ
  /-- What logs call the database. -/
  describe : σ → String

/-- Either of two databases. -/
instance {σ τ : Type} [Connection σ] [Connection τ] : Connection (σ ⊕ τ) where
  perform r
    | .inl s => let (a, s) := Connection.perform r s; (a, .inl s)
    | .inr t => let (a, t) := Connection.perform r t; (a, .inr t)
  isOpen
    | .inl s => Connection.isOpen s
    | .inr t => Connection.isOpen t
  release
    | .inl s => .inl (Connection.release s)
    | .inr t => .inr (Connection.release t)
  describe
    | .inl s => Connection.describe s
    | .inr t => Connection.describe t

end RowHistory
