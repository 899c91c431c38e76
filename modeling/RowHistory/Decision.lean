import RowHistory.Comparison
import RowHistory.Record
import RowHistory.Status

/-!
# The status of a row

How an incoming row is judged against what is stored for its identifier: a difference in a
compared field makes it changed, a difference in a field that is updated in place an update, and
without one it is identical. If no version is active, it is outdated or new.
-/

namespace RowHistory

/-- The status of a row against the active version of its identifier. -/
def Classification.againstActive (c : Classification) (row : Row) (active : Record) :
    Except TypeMismatch Outcome :=
  match c.anyDiffers .compare row active.row with
  | .error e => .error e
  | .ok true => .ok ⟨.changed, active.version + 1⟩
  | .ok false => match c.anyDiffers .update row active.row with
    | .error e => .error e
    | .ok true => .ok ⟨.update, active.version⟩
    | .ok false => .ok ⟨.identical, active.version⟩

/-- The status of a row without an active version, given the latest one. -/
def Outcome.withoutActive : Option Record → Outcome
  | some latest => ⟨.outdated, latest.version + 1⟩
  | none => ⟨.new, 1⟩

end RowHistory
