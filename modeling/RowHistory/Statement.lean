import RowHistory.Layout
import RowHistory.Row
import RowHistory.Storage.Error
import RowHistory.Text.Blank

/-!
# Statements

The SQL that a session runs on its table. The text of a statement is written piece by piece: text,
quoted names, and placeholders. The parameters, whose values are supplied when it runs, are pushed
apart from the text: most of them in a list of their own, those of the identifier while its
conditions are written. This file fixes

* the kinds of statements that are prepared once (`StatementKind`);
* where a value comes from (`Parameter`), the pieces of a text (`Piece`), and a text that is written
  while parameters are pushed (`Draft`);
* the statements of a layout (`Layout.statement`, `Layout.purge`).
-/

namespace RowHistory

open Sql (QuoteStyle)

/-- The statements that are prepared once for a connection. -/
inductive StatementKind where
  /-- Finds the latest version of an identifier. -/
  | latest
  /-- Finds its version that is active at an instant. -/
  | active
  /-- Adds a version. -/
  | insert
  /-- Rewrites a version in place. -/
  | update
  /-- Ends the active version where the next one starts. -/
  | endActive
  /-- Notes that the active version was seen. -/
  | touch
  /-- Ends the active version of an identifier that is gone. -/
  | purgeOne
deriving DecidableEq, Repr

namespace StatementKind

/-- The name of a kind, which is the label of its statement. -/
def name : StatementKind → String
  | .latest => "version_select"
  | .active => "active_version_select"
  | .insert => "insert"
  | .update => "update"
  | .endActive => "close_active"
  | .touch => "update_last_seen"
  | .purgeOne => "purge_one"

/-- All kinds. -/
def all : List StatementKind :=
  [.latest, .active, .insert, .update, .endActive, .touch, .purgeOne]

/-- The kind of a name. -/
def ofName? (s : String) : Option StatementKind :=
  all.find? fun k => k.name = s

end StatementKind

/-- Where a value of a statement comes from. -/
inductive Parameter where
  /-- A field of the row. -/
  | field (name : String)
  /-- The instant of the statement. -/
  | instant
  /-- The cutoff of a purge. -/
  | cutoff
deriving DecidableEq, Repr

/-- What values are taken from. -/
structure Binding where
  row : Row := Row.empty
  instant : Option Instant := none
  cutoff : Option Instant := none

/-- The value of a parameter; an absent field is null. -/
def Parameter.value (b : Binding) : Parameter → Value
  | .field name => b.row.value name
  | .instant => Value.ofInstant? b.instant
  | .cutoff => Value.ofInstant? b.cutoff

/-- A piece of the text of a statement. -/
inductive Piece where
  /-- Text as it stands. -/
  | text (s : String)
  /-- A name, to be quoted. -/
  | name (s : String)
  /-- The place of a value that is supplied later. -/
  | placeholder
deriving DecidableEq, Repr

namespace Piece

/-- How a piece is written. -/
def render (q : QuoteStyle) : Piece → String
  | .text s => s
  | .name s => q.quoted s
  | .placeholder => "?"

/-- Groups of pieces with a text between them. -/
def joined (between : String) (groups : List (List Piece)) : List Piece :=
  (groups.intersperse [.text between]).flatten

end Piece

/-- What is written while parameters are pushed. -/
abbrev Draft (α : Type) := StateM (List Parameter) α

/-- Pushes a parameter behind the others. -/
def Draft.push (p : Parameter) : Draft Unit :=
  modify (· ++ [p])

/-- A statement and the values that it needs, in order. -/
structure Statement where
  kind : Option StatementKind
  sql : String
  parameters : List Parameter
deriving DecidableEq, Repr

namespace Statement

/-- What a statement is called in logs and errors. -/
def label (s : Statement) : String :=
  match s.kind with
  | some kind => kind.name
  | none => "purge"

/-- The values of a statement. -/
def bind (s : Statement) (b : Binding) : List Value :=
  s.parameters.map (Parameter.value b)

end Statement

namespace Layout

open Draft (push)

/-- The name of the table, after that of its schema. -/
def pathPieces (l : Layout) : List Piece :=
  Piece.joined "." (l.pathNames.map fun name => [Piece.name name])

/-- A column that is compared with a value, or set to one. -/
def columnTo (column op : String) : List Piece :=
  [.name column, .text op, .placeholder]

/-- Every identifier field has the value of the row, which is pushed as its condition is written. -/
def identified (l : Layout) : Draft (List Piece) := do
  let conditions ← (l.fields.names .id).mapM fun name => do
    push (.field name)
    return columnTo name " = "
  return Piece.joined " AND " conditions

/-- The validity has not ended before an instant. -/
def notEnded (l : Layout) : List Piece :=
  [.text "("] ++ columnTo l.names.validTo " >= " ++
    [.text " OR ", .name l.names.validTo, .text " IS NULL)"]

/-- The start of a selection. -/
def selection (l : Layout) (ids : List Piece) : List (List Piece) :=
  [[.text "SELECT * FROM "] ++ l.pathPieces, [.text "WHERE "] ++ ids]

/-- The end of a selection: only the greatest version. -/
def greatest (l : Layout) : List (List Piece) :=
  [[.text "ORDER BY ", .name l.names.version, .text " DESC"], [.text "LIMIT 1"]]

/-- The columns of a new version. -/
def insertColumns (l : Layout) : List String :=
  l.fields.names .id ++ l.fields.names .update ++ l.fields.names .compare ++
    l.fields.names .lazy ++ l.names.validFrom :: l.names.validTo :: l.names.version ::
    l.names.lastSeen.toList

/-- The columns that are changed in place. -/
def updateColumns (l : Layout) : List String :=
  l.fields.names .update ++ l.fields.names .lazy ++ l.names.validFrom :: l.names.lastSeen.toList

/-- Columns that are set. -/
def assignments (columns : List String) : List Piece :=
  [.text "SET "] ++ Piece.joined ", " (columns.map fun name => columnTo name " = ")

/-- The start of a change of the table. -/
def change (l : Layout) : List Piece :=
  [.text "UPDATE "] ++ l.pathPieces

/-- Finds the latest version. -/
def latestLines (l : Layout) : Draft (List (List Piece)) := do
  let ids ← l.identified
  return l.selection ids ++ l.greatest

/-- Finds the active version. -/
def activeLines (l : Layout) : Draft (List (List Piece)) := do
  let ids ← l.identified
  push .instant
  push .instant
  return l.selection ids ++
    [[.text "AND "] ++ columnTo l.names.validFrom " <= ", [.text "AND "] ++ l.notEnded] ++ l.greatest

/-- Adds a version. -/
def insertLines (l : Layout) : List (List Piece) :=
  [[.text "INSERT INTO "] ++ l.pathPieces,
    [.text "("] ++ Piece.joined ", " (l.insertColumns.map fun name => [.name name]) ++ [.text ")"],
    [.text "VALUES ("] ++
      Piece.joined ", " (List.replicate l.insertColumns.length [.placeholder]) ++ [.text ")"]]

/-- Rewrites a version. -/
def updateLines (l : Layout) : Draft (List (List Piece)) := do
  set (l.updateColumns.map Parameter.field)
  let ids ← l.identified
  push (.field l.names.version)
  return [l.change, assignments l.updateColumns, [.text "WHERE "] ++ ids,
    [.text "AND "] ++ columnTo l.names.version " = "]

/-- Ends the active version at the start of the row. -/
def endLines (l : Layout) : Draft (List (List Piece)) := do
  set [Parameter.field l.names.validFrom]
  let ids ← l.identified
  push (.field l.names.validFrom)
  return [l.change, [.text "SET "] ++ columnTo l.names.validTo " = ", [.text "WHERE "] ++ ids,
    [.text "AND "] ++ l.notEnded]

/-- Notes that the active version was seen. -/
def touchLines (l : Layout) (lastSeen : String) : Draft (List (List Piece)) := do
  set [Parameter.field lastSeen]
  let ids ← l.identified
  push (.field l.names.validFrom)
  return [l.change, assignments [lastSeen], [.text "WHERE "] ++ ids, [.text "AND "] ++ l.notEnded]

/-- Ends the versions that were not seen since the cutoff, under a further condition. -/
def purgeLines (l : Layout) (lastSeen : String) (condition : Option String) : List (List Piece) :=
  [l.change, [.text "SET "] ++ columnTo l.names.validTo " = ", [.text "WHERE "] ++ l.notEnded,
    [.text "AND "] ++ columnTo lastSeen " < "] ++
  condition.toList.map fun c => [.text "AND (", .text c, .text ")"]

/-- The text of lines of pieces. -/
def textOf (l : Layout) (lines : List (List Piece)) : String :=
  String.join ((Piece.joined "\n" lines).map (Piece.render l.quote))

/-- The statement that is drafted. -/
def statementOf (l : Layout) (kind : Option StatementKind) (draft : Draft (List (List Piece))) :
    Statement :=
  let (lines, parameters) := draft.run []
  { kind, sql := l.textOf lines, parameters }

/-- The statement of a kind. Without a last-seen column nothing can be touched. -/
def statement (l : Layout) (kind : StatementKind) : Except StorageError Statement :=
  match kind with
  | .latest => .ok (l.statementOf (some kind) l.latestLines)
  | .active => .ok (l.statementOf (some kind) l.activeLines)
  | .insert => .ok
      { kind := some kind, sql := l.textOf l.insertLines, parameters := l.insertColumns.map .field }
  | .update => .ok (l.statementOf (some kind) l.updateLines)
  | .endActive => .ok (l.statementOf (some kind) l.endLines)
  | .purgeOne => .ok (l.statementOf (some kind) l.endLines)
  | .touch => match l.names.lastSeen with
    | some lastSeen => .ok (l.statementOf (some kind) (l.touchLines lastSeen))
    | none => .error ((StorageError.misconfigured "lastSeen field is not configured").withDetails
        kind.name)

/-- A condition without the blanks around it; a blank one is none. -/
def trimmedCondition (condition : Option String) : Option String :=
  (condition.map Text.trimmed).filter fun c => !c.isEmpty

/-- The statement of a purge, which needs a last-seen column. -/
def purge (l : Layout) (condition : Option String) : Except StorageError Statement :=
  match l.names.lastSeen with
  | some lastSeen => .ok
      { kind := none
        sql := l.textOf (l.purgeLines lastSeen (trimmedCondition condition))
        parameters := [.cutoff, .instant, .cutoff] }
  | none => .error (.misconfigured "purge requires a lastSeen field")

end Layout

end RowHistory
