import RowHistory.Connection.Basic

/-!
# Scripted connections

A connection that has no database: every request succeeds, a query gives the next row of a
script, and a statement changes one row.
-/

namespace RowHistory

/-- A script of answers to queries. -/
structure Scripted where
  name : String
  /-- The answers that are left; after them there are no rows. -/
  answers : List (Option Row) := []
  isOpen : Bool := false
deriving DecidableEq

namespace Scripted

/-- Does something with the connection. -/
def withOpen {α : Type} (s : Scripted) (answer : α) : Except StorageError α × Scripted :=
  if s.isOpen then (.ok answer, s) else (.error .connectionClosed, s)

/-- The next answer. -/
def query (s : Scripted) : Except StorageError (Option Row) × Scripted :=
  if s.isOpen then (.ok s.answers.head?.join, { s with answers := s.answers.tail })
  else (.error .connectionClosed, s)

instance : Connection Scripted where
  perform
    | .connect, s => (.ok (), { s with isOpen := true })
    | .prepare _, s => s.withOpen ()
    | .query .., s => s.query
    | .execute .., s => s.withOpen 1
    | .commit, s => s.withOpen ()
    | .rollback, s => s.withOpen ()
    | .close, s => (.ok (), { s with isOpen := false })
  isOpen := isOpen
  release s := { s with isOpen := false }
  describe := name

end Scripted

end RowHistory
