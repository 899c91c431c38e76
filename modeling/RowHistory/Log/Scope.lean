import RowHistory.Log.Basic

/-!
# Scopes

A scope is an operation that logs its start and its end. The end is completion, failure, or, if
neither was said, the remark that the scope was given up.
-/

namespace RowHistory

/-- An operation that was started. -/
structure Scope where
  name : String
  /-- The fields that all of its entries carry. -/
  fields : List (String × String) := []
deriving DecidableEq, Repr

namespace Scope

/-- The entry of the start. -/
def begun (s : Scope) : LogEntry :=
  ⟨.info, s.name ++ "_BEGIN", s.fields⟩

/-- The entry of completion, with what came of it and the milliseconds that it took. -/
def completed (s : Scope) (extra : List (String × String)) (elapsed : Nat) : LogEntry :=
  ⟨.info, s.name ++ "_COMPLETE",
    s.fields ++ extra ++ [("elapsed_ms", String.ofList (Text.digits elapsed))]⟩

/-- The entry of a failure. -/
def failed (s : Scope) (reason : String) : LogEntry :=
  ⟨.error, s.name ++ "_FAILED", s.fields ++ [("reason", reason)]⟩

/-- The entry of a scope that was given up. -/
def abandoned (s : Scope) : LogEntry :=
  ⟨.warn, s.name ++ "_INCOMPLETE", [("reason", "scope dropped without completion")]⟩

end Scope

end RowHistory
