import RowHistory.Instant.Printer
import RowHistory.Row
import RowHistory.Status

/-!
# Results

What a session answers for one row: its status, the version that it leads to, that version's
validity, and the row as it was written.
-/

namespace RowHistory

/-- The answer for one row. -/
structure RowResult where
  /-- The row with its bookkeeping columns. -/
  row : Row
  version : Int
  /-- The instant of the row; it is stored only if the row wrote a version. -/
  validFrom : Option Instant
  validTo : Option Instant
  status : RowStatus
  skipReason : Option SkipReason
deriving DecidableEq

/-- An answer as an object, its members in order. -/
def RowResult.toJson (r : RowResult) : Json :=
  let orNull (s : Option String) : Json := (s.map Json.str).getD .null
  .obj [("row", r.row.toJson), ("skip_reason", orNull (r.skipReason.map SkipReason.name)),
    ("status", .str r.status.name), ("valid_from", orNull (r.validFrom.map Instant.storageText)),
    ("valid_to", orNull (r.validTo.map Instant.storageText)), ("version", .int r.version)]

end RowHistory
