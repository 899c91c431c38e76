import RowHistory.Comparison
import RowHistory.Status
import RowHistory.Storage.Error

/-!
# Failures of a session

Why a call on a session fails. Only a transient storage error may be recovered from.
-/

namespace RowHistory

/-- The causes. -/
inductive Failure where
  /-- The options are unusable. -/
  | config (message : String)
  /-- Only identical and purged may be forced. -/
  | statusNotAllowed (status : RowStatus)
  /-- An identifier field is null or absent. -/
  | missingIdentifier (field : String)
  /-- A value cannot be read as its declared type. -/
  | typeMismatch (e : TypeMismatch)
  /-- The storage failed. -/
  | storage (e : StorageError)
  /-- The session is closed. -/
  | sessionClosed
deriving DecidableEq, Repr

namespace Failure

/-- The wording of a cause. -/
def message : Failure → String
  | .config message => s!"invalid configuration: {message}"
  | .statusNotAllowed status => s!"status '{status.name}' not allowed"
  | .missingIdentifier field => s!"identifier field '{field}' is missing"
  | .typeMismatch e => e.message
  | .storage e => e.text
  | .sessionClosed => "versioning session is closed"

instance : ToString Failure := ⟨message⟩

/-- The failure concerns the connection only. -/
def isRecoverable : Failure → Bool
  | .storage e => e.code.isTransient
  | _ => false

end Failure

end RowHistory
