import RowHistory.Sql.Command
import RowHistory.Storage.Error

/-!
# Errors of the database

Why a statement is refused: its text, what it names, what it does to the table, or the lock that
another connection holds. Some errors point into the text of the statement, and their messages
then carry the text and the place.
-/

namespace RowHistory.Sql

/-- The causes. -/
inductive SqlError where
  /-- The text is no command. -/
  | malformed (e : SyntaxError)
  /-- There is no such table. -/
  | noSuchTable (path : String)
  /-- There is no such schema. -/
  | noSuchSchema (schema : String)
  /-- There is no such column; the place is known if a condition names it. -/
  | noSuchColumn (column : String) (offset : Option Nat)
  /-- A new row names a column that the table lacks. -/
  | noColumnNamed (path column : String)
  /-- The table is there already. -/
  | tableExists (name : Name)
  /-- A new table has a name that the database keeps for itself. -/
  | reservedName (name : String)
  /-- A new table has two columns of one name. -/
  | repeatedColumn (column : String)
  /-- The file holds something else. -/
  | notADatabase
  /-- A row lacks a value. -/
  | nullValue (table column : String)
  /-- A row repeats values. -/
  | repeated (table : String) (columns : List String)
  /-- The values do not match the placeholders. -/
  | parameterCount (got needed : Nat)
  /-- A change gave rows. -/
  | returnedRows
  /-- The database takes no writes. -/
  | readOnly
  /-- Another connection holds a lock. -/
  | locked
  /-- A further database cannot be opened. -/
  | cannotAttach (file : String)
deriving Repr

namespace SqlError

/-- The code of a cause. -/
def code : SqlError → StorageCode
  | .nullValue .. => .constraintViolation
  | .repeated .. => .constraintViolation
  | .locked => .busy
  | .cannotAttach _ => .deviceError
  | _ => .statementFailed

/-- Where in the text a cause lies. -/
def offset? : SqlError → Option Nat
  | .malformed (.near l) => some l.offset
  | .malformed (.unrecognized l) => some l.offset
  | .noSuchColumn _ offset => offset
  | .tableExists name => some name.offset
  | _ => none

/-- The wording of a cause, without its place. -/
def wording : SqlError → String
  | .malformed (.near l) => s!"near \"{l.source}\": syntax error"
  | .malformed (.unrecognized l) => s!"unrecognized token: \"{l.source}\""
  | .malformed .incomplete => "incomplete input"
  | .noSuchTable path => s!"no such table: {path}"
  | .noSuchSchema schema => s!"unknown database {schema}"
  | .noSuchColumn column _ => s!"no such column: {column}"
  | .noColumnNamed path column => s!"table {path} has no column named {column}"
  | .tableExists name => s!"table {name.text} already exists"
  | .reservedName name => s!"object name reserved for internal use: {name}"
  | .repeatedColumn column => s!"duplicate column name: {column}"
  | .notADatabase => "file is not a database"
  | .nullValue table column => s!"NOT NULL constraint failed: {table}.{column}"
  | .repeated table columns =>
    let names := ", ".intercalate (columns.map fun c => s!"{table}.{c}")
    s!"UNIQUE constraint failed: {names}"
  | .parameterCount got needed =>
    s!"Wrong number of parameters passed to query. Got {got}, needed {needed}"
  | .returnedRows => "Execute returned results - did you mean to call query?"
  | .readOnly => "attempt to write a readonly database"
  | .locked => "database is locked"
  | .cannotAttach file => s!"unable to open database: {file}"

/-- The wording of a cause in a statement, with its place. -/
def message (e : SqlError) (sql : String) : String :=
  match e.offset? with
  | some offset => s!"{e.wording} in {sql} at offset {offset}"
  | none => e.wording

/-- The storage error of a cause in a statement, in a context. -/
def toStorage (e : SqlError) (sql context : String) : StorageError :=
  { code := e.code, message := e.message sql, details := some context }

end SqlError

end RowHistory.Sql
