import RowHistory.Batch
import RowHistory.Field.Codec
import RowHistory.Horizon
import RowHistory.Layout

/-!
# Session options

What a session needs to know of its table and of the way it works: the layout, how many writes
make a transaction, whether and what it purges, when it starts and how far new versions reach.
This file fixes

* the options (`Options`) and when they are consistent (`validate`);
* how they are written as JSON and read back (`toJson`, `ofJson?`, `parse?`).
-/

namespace RowHistory

open Sql (QuoteStyle)

/-- The options of a session. -/
structure Options where
  table : String
  schema : Option String := none
  quote : QuoteStyle := .double
  /-- How many writes make a transaction. -/
  commitSize : Nat := Batch.defaultSize
  /-- Versions that were not seen are closed at the end. -/
  purge : Bool := false
  /-- A further condition on the versions that are purged. -/
  purgeWhere : Option String := none
  /-- When the session starts; by itself, when it opens. -/
  startDate : Option Instant := none
  /-- The end of the validity of new versions. -/
  validTo : Horizon := .farFuture
  names : Bookkeeping := {}
  fields : Classification
deriving DecidableEq

namespace Options

/-- The options are consistent; the first fault is reported. -/
def validate (o : Options) : Except Failure Unit :=
  if Text.allBlank o.table then .error (.config "table name is empty")
  else if o.commitSize = 0 then .error (.config "commit_size must be greater than zero")
  else match o.fields.validate o.names with
    | .error e => .error (.config e.message)
    | .ok () =>
      if o.purge && !o.names.tracksLastSeen then
        .error (.config "purge requires field_names.last_seen")
      else match o.startDate with
        | none => .ok ()
        | some start => (o.validTo.resolve start).map fun _ => ()

/-- The layout of the table. -/
def layout (o : Options) : Layout :=
  { schema := o.schema, table := o.table, quote := o.quote, fields := o.fields, names := o.names }

end Options

/-- The styles by name. -/
def Sql.QuoteStyle.choices : List (String × QuoteStyle) :=
  [("double_quote", .double), ("backtick", .backtick)]

/-- The name of a style. -/
def Sql.QuoteStyle.name : QuoteStyle → String
  | .double => "double_quote"
  | .backtick => "backtick"

namespace Options

/-- The sizes that settings may name. -/
def sizeBound : Nat := 2 ^ 64

/-- The options in order of declaration. -/
def memberNames : List String :=
  ["table", "schema", "quote", "commit_size", "purge", "purge_where", "start_date", "valid_to",
    "field_names", "fields"]

/-- Options from a record. -/
def ofJson? (j : Json) : Option Options := do
  match ← Json.record? memberNames j with
  | [table, schema, quote, commitSize, purge, purgeWhere, startDate, validTo, names, fields] =>
    return {
      table := ← Json.required Json.text? table
      schema := ← Json.defaulted (Json.nullable Json.text?) none schema
      quote := ← Json.defaulted (Json.choice? QuoteStyle.choices) .double quote
      commitSize := ← Json.defaulted (Json.nat? sizeBound) Batch.defaultSize commitSize
      purge := ← Json.defaulted Json.bool? false purge
      purgeWhere := ← Json.defaulted (Json.nullable Json.text?) none purgeWhere
      startDate := ← Json.defaulted (Json.nullable Horizon.instantOfJson?) none startDate
      validTo := ← Json.defaulted Horizon.ofJson? .farFuture validTo
      names := ← Json.defaulted Bookkeeping.ofJson? {} names
      fields := ← Json.required Classification.ofJson? fields }
  | _ => none

/-- What is wanted of a record of options. -/
def demand : Json.Demand :=
  .fields (memberNames.map fun name =>
    (name, if name = "field_names" then Bookkeeping.demand else .whole))

/-- The options that a text holds. -/
def parse? (text : String) : Option Options :=
  (Json.readWanted? demand text).bind ofJson?

/-- Options as a record. -/
def toJson (o : Options) : Json :=
  let orNull (s : Option String) : Json := (s.map Json.str).getD .null
  .obj [("table", .str o.table), ("schema", orNull o.schema), ("quote", .str o.quote.name),
    ("commit_size", .int o.commitSize), ("purge", .bool o.purge),
    ("purge_where", orNull o.purgeWhere),
    ("start_date", orNull (o.startDate.map Instant.isoText)), ("valid_to", o.validTo.toJson),
    ("field_names", o.names.toJson), ("fields", o.fields.toJson)]

end Options

end RowHistory
