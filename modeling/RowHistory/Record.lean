import RowHistory.Bookkeeping
import RowHistory.Row
import RowHistory.Storage.Error

/-!
# Stored versions

A version as it comes back from the table: its row, its number and the two ends of its validity.
The number must be an integer; an end is an instant, or null if there is none.
-/

namespace RowHistory

/-- A stored version. -/
structure Record where
  row : Row
  version : Int
  validFrom : Option Instant
  validTo : Option Instant
deriving DecidableEq

namespace Record

/-- The number of a version. -/
def versionOf (name : String) : Value → Except StorageError Int
  | .int32 n => .ok n
  | .int64 n => .ok n
  | .text s => match Text.readInt64? s with
    | some n => .ok n
    | none => .error (.invalidData s!"{name} is not an integer: {Text.inspect s}")
  | v => .error (.invalidData s!"{name} is not an integer: {v.typeName}")

/-- One end of the validity. -/
def boundOf (name : String) (v : Value) : Except StorageError (Option Instant) :=
  if v.isNull then .ok none
  else match v.asInstant? with
    | some t => .ok (some t)
    | none => .error (.invalidData s!"{name} is not a timestamp: {v.inspect}")

/-- The version that a row of the table holds. -/
def ofRow (b : Bookkeeping) (row : Row) : Except StorageError Record := do
  let version ← versionOf b.version (row.value b.version)
  let validFrom ← boundOf b.validFrom (row.value b.validFrom)
  let validTo ← boundOf b.validTo (row.value b.validTo)
  return ⟨row, version, validFrom, validTo⟩

/-- The validity has no end. -/
def isOpenEnded (r : Record) : Bool :=
  r.validTo.isNone

end Record

end RowHistory
