/-!
# Batches of writes

Writes gather in one transaction, which is committed when enough of them are pending. The rows
since the last commit are kept, to be handed back if the transaction is rolled back. A batch
never splits a row: a write is counted once all statements of its row have run.
-/

namespace RowHistory

/-- The pending writes of a transaction, and the rows that they came from. -/
structure Batch (α : Type) where
  /-- How many writes make a full batch. -/
  size : Nat
  pending : Nat := 0
  backup : List α := []
deriving DecidableEq, Repr

namespace Batch

variable {α : Type}

/-- The usual size. -/
def defaultSize : Nat := 100

/-- An empty batch; a size of zero counts as one. -/
def ofSize (size : Nat) : Batch α :=
  { size := max size 1 }

/-- Keeps a row until the transaction ends. -/
def keep (b : Batch α) (row : α) : Batch α :=
  { b with backup := b.backup ++ [row] }

/-- Counts one write. -/
def count (b : Batch α) : Batch α :=
  { b with pending := b.pending + 1 }

/-- The batch is to be committed. -/
def isFull (b : Batch α) : Bool :=
  b.size ≤ b.pending

/-- Nothing is pending and nothing is kept. -/
def isEmpty (b : Batch α) : Bool :=
  b.pending = 0 && b.backup.isEmpty

/-- The batch after its transaction ended. -/
def clear (b : Batch α) : Batch α :=
  { b with pending := 0, backup := [] }

end Batch

end RowHistory
