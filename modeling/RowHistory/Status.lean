/-!
# Statuses

What becomes of an incoming row. This file fixes

* the statuses and their names (`RowStatus`);
* the outcome of a comparison: a status and the version that it leads to (`Outcome`);
* why a status that was asked for does not apply (`SkipReason`);
* the write that a status calls for (`Mutation`).
-/

namespace RowHistory

/-- What an incoming row is beside the stored versions of its identifier. -/
inductive RowStatus where
  /-- No version is stored. -/
  | new
  /-- Versions are stored, and none is active. -/
  | outdated
  /-- A compared field differs from the active version. -/
  | changed
  /-- Only fields that are updated in place differ from it. -/
  | update
  /-- Nothing differs from it. -/
  | identical
  /-- A status was asked for that does not apply. -/
  | skipped
  /-- The active version was closed. -/
  | purged
deriving DecidableEq, Repr

namespace RowStatus

/-- The name of a status. -/
def name : RowStatus → String
  | .new => "new"
  | .outdated => "outdated"
  | .changed => "changed"
  | .update => "update"
  | .identical => "identical"
  | .skipped => "skipped"
  | .purged => "purged"

/-- All statuses. -/
def all : List RowStatus :=
  [.new, .outdated, .changed, .update, .identical, .skipped, .purged]

/-- The status of a name. -/
def ofName? (s : String) : Option RowStatus :=
  all.find? fun status => status.name = s

/-- The wording for a name that is no status. -/
def unknownMessage (s : String) : String :=
  s!"unknown row status: {s}"

end RowStatus

/-- A status and the version that it leads to. Versions are counted without a bound. -/
structure Outcome where
  status : RowStatus
  version : Int
deriving DecidableEq, Repr

/-- The version of the active record, if there is one: a changed row is one past it. -/
def Outcome.activeVersion (o : Outcome) : Int :=
  match o.status with
  | .changed => o.version - 1
  | _ => o.version

/-- Why a status that was asked for does not apply. -/
inductive SkipReason where
  /-- Nothing is stored for the identifier. -/
  | notStored
  /-- Versions are stored, and none is active. -/
  | outdated
deriving DecidableEq, Repr

namespace SkipReason

/-- The name of a reason. -/
def name : SkipReason → String
  | .notStored => "not_stored"
  | .outdated => "outdated"

/-- The reason for which no status can be forced on a row, given what it is by itself. -/
def ofNatural? : RowStatus → Option SkipReason
  | .new => some .notStored
  | .outdated => some .outdated
  | _ => none

end SkipReason

/-- The write that a status calls for. -/
inductive Mutation where
  /-- Nothing is written. -/
  | none
  /-- The active version was seen. -/
  | touch
  /-- A new version. -/
  | insert
  /-- The active version ends and a new one starts. -/
  | replace
  /-- The active version is changed in place. -/
  | update
  /-- The active version ends. -/
  | close
deriving DecidableEq, Repr

namespace Mutation

/-- The write for a status; an identical row writes only if last-seen is tracked. -/
def ofStatus (tracksLastSeen : Bool) : RowStatus → Mutation
  | .identical => if tracksLastSeen then .touch else .none
  | .new => .insert
  | .outdated => .insert
  | .changed => .replace
  | .update => .update
  | .purged => .close
  | .skipped => .none

/-- Something is written. -/
def writes (m : Mutation) : Bool :=
  m ≠ .none

end Mutation

end RowHistory
