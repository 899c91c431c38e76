import RowHistory.Field.Basic
import RowHistory.Sql.Quoting

/-!
# Table layouts

Where the versions of a table are kept: its name, the schema that it is in, how names are quoted,
and which columns it has.
-/

namespace RowHistory

open Sql (QuoteStyle)

/-- The table of a session. -/
structure Layout where
  schema : Option String := none
  table : String
  quote : QuoteStyle := .double
  fields : Classification
  names : Bookkeeping := {}
deriving DecidableEq, Repr

/-- The names on the way to the table. -/
def Layout.pathNames (l : Layout) : List String :=
  l.schema.toList ++ [l.table]

/-- The quoted name of the table, after that of its schema if there is one. -/
def Layout.path (l : Layout) : String :=
  ".".intercalate (l.pathNames.map l.quote.quoted)

end RowHistory
