/-!
# Bookkeeping columns

The columns that are kept for every version beside its fields: the two ends of its validity, its
number, and, if it is wanted, when it was last seen. Without a last-seen column an identical row
writes nothing and nothing can be purged.
-/

namespace RowHistory

/-- The names of the bookkeeping columns. -/
structure Bookkeeping where
  /-- The start of the validity. -/
  validFrom : String := "dateFrom"
  /-- The end of the validity; null means that it is open. -/
  validTo : String := "dateTo"
  /-- The number of the version. -/
  version : String := "version"
  /-- The last time that the version was seen. -/
  lastSeen : Option String := none
deriving DecidableEq, Repr, Inhabited

namespace Bookkeeping

/-- The names that are in use. -/
def all (b : Bookkeeping) : List String :=
  [b.validFrom, b.validTo, b.version] ++ b.lastSeen.toList

/-- There is a last-seen column. -/
def tracksLastSeen (b : Bookkeeping) : Bool :=
  b.lastSeen.isSome

end Bookkeeping

end RowHistory
