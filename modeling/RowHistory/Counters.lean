import RowHistory.Json.Basic
import RowHistory.Status

/-!
# Line counters

How many rows came in, made a new version, changed a stored one, or were closed. The counters are
64-bit words.

| status              | input | output | updated | rejected |
|---------------------|-------|--------|---------|----------|
| new, outdated       | 1     | 1      |         |          |
| changed             | 1     | 1      | 1       |          |
| update              | 1     |        | 1       |          |
| identical, skipped  | 1     |        |         |          |
| purged              |       |        |         | 1        |

A purge adds the versions that it closed to the last column.
-/

namespace RowHistory

/-- The four counters. -/
structure Counters where
  input : UInt64 := 0
  output : UInt64 := 0
  updated : UInt64 := 0
  rejected : UInt64 := 0
deriving DecidableEq, Repr, Inhabited

namespace Counters

/-- Counts one processed row. -/
def record (c : Counters) : RowStatus → Counters
  | .new => { c with input := c.input + 1, output := c.output + 1 }
  | .outdated => { c with input := c.input + 1, output := c.output + 1 }
  | .changed => { c with input := c.input + 1, output := c.output + 1, updated := c.updated + 1 }
  | .update => { c with input := c.input + 1, updated := c.updated + 1 }
  | .identical => { c with input := c.input + 1 }
  | .skipped => { c with input := c.input + 1 }
  | .purged => { c with rejected := c.rejected + 1 }

/-- Counts versions that a purge closed. -/
def addRejected (c : Counters) (n : Nat) : Counters :=
  { c with rejected := c.rejected + UInt64.ofNat n }

/-- The counters as a record. -/
def toJson (c : Counters) : Json :=
  .obj [("lines_input", .int c.input.toNat), ("lines_output", .int c.output.toNat),
    ("lines_updated", .int c.updated.toNat), ("lines_rejected", .int c.rejected.toNat)]

end Counters

end RowHistory
