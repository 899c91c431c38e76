import RowHistory.Failure
import RowHistory.Instant.Printer
import RowHistory.Instant.Reader
import RowHistory.Json.Decode

/-!
# The validity horizon

The end that a new version gets: a hundred years after the session's start, none, or a fixed
instant, which must lie after the start.
-/

namespace RowHistory

/-- The end of the validity of new versions. -/
inductive Horizon where
  /-- A hundred years after the start. -/
  | farFuture
  /-- No end. -/
  | unlimited
  /-- A fixed instant. -/
  | at (t : Instant)
deriving DecidableEq

namespace Horizon

/-- The months until the far future. -/
def farMonths : Nat := 1200

/-- The end for a session that starts at an instant. -/
def resolve (h : Horizon) (start : Instant) : Except Failure (Option Instant) :=
  match h with
  | .farFuture => match start.addMonths? farMonths with
    | some t => .ok (some t)
    | none => .error (.config "validity horizon overflows")
  | .unlimited => .ok none
  | .at t =>
    if t ≤ start then
      .error (.config s!"valid_to {t.displayText} is not after session start {start.displayText}")
    else .ok (some t.truncate)

/-- An instant of a configuration. -/
def instantOfJson? (j : Json) : Option Instant :=
  (Json.text? j).bind Instant.parseLoose?

/-- A horizon from JSON. -/
def ofJson? : Json → Option Horizon
  | .obj [("at", j)] => (instantOfJson? j).map .at
  | j => Json.choice? [("far_future", .farFuture), ("open", .unlimited)] j

/-- A horizon as JSON. -/
def toJson : Horizon → Json
  | .farFuture => .str "far_future"
  | .unlimited => .str "open"
  | .at t => .obj [("at", .str t.isoText)]

end Horizon

end RowHistory
