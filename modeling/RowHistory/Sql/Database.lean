import RowHistory.Sql.Place
import RowHistory.Sql.Table

/-!
# Databases

A database is a list of tables. A command is first resolved against it: its names become places,
and a name that is not there is refused. The resolved command is then run. This file fixes

* databases (`Database`) and resolved commands (`Plan`);
* how names are resolved (`Database.plan`): a name in double quotes that is no column is a text;
* what a plan does (`Plan.run`): a row, how many rows were changed, or neither.
-/

namespace RowHistory.Sql

/-- The tables. -/
structure Database where
  tables : List Table := []
deriving DecidableEq, Repr, Inhabited

/-- A command whose names are places. -/
inductive Plan where
  /-- Nothing is to be done. -/
  | nothing
  /-- A row that comes from no table. -/
  | constant
  /-- The first row that fits. -/
  | select (table : String) (condition order : Option (Expr Nat))
  /-- A new row. -/
  | insert (table : String) (columns : List Nat) (values : List (Expr Nat))
  /-- A change of the rows that fit. -/
  | update (table : String) (assignments : List (Nat × Expr Nat)) (condition : Option (Expr Nat))
  /-- A new table. -/
  | create (table : Table)
deriving Repr

/-- What a plan gives. -/
inductive Answer where
  /-- No rows, and none was to be changed. -/
  | done
  /-- How many rows were changed. -/
  | changed (count : Nat)
  /-- The first row, with the names of its columns. -/
  | row (entries : List (String × Cell))
deriving Repr

namespace Database

/-- The table of a name. -/
def find? (db : Database) (name : String) : Option Table :=
  db.tables.find? fun t => sameName t.name name

/-- Puts a table in the place of the one of its name. -/
def replace (db : Database) (table : Table) : Database :=
  ⟨db.tables.map fun t => if sameName t.name table.name then table else t⟩

/-- The only schema. -/
def mainSchema : String := "main"

/-- A path leads into the only schema. -/
def inMain (p : Path) : Bool :=
  match p.schema with
  | some schema => sameName schema mainSchema
  | none => true

/-- The table that a path leads to. -/
def lookup (db : Database) (p : Path) : Except SqlError Table :=
  if inMain p then
    match db.find? p.table.text with
    | some t => .ok t
    | none => .error (.noSuchTable p.text)
  else .error (.noSuchTable p.text)

end Database

/-- The expression with the names of a table as places. -/
def Expr.resolve (t : Table) : Expr Name → Except SqlError (Expr Nat)
  | .column name => match t.index? name.text with
    | some i => .ok (.column i)
    | none =>
      if name.style = some .double then .ok (.constant (.text name.text))
      else .error (.noSuchColumn name.text (some name.offset))
  | .parameter i => .ok (.parameter i)
  | .constant c => .ok (.constant c)
  | .compare op l r => do return .compare op (← l.resolve t) (← r.resolve t)
  | .isNull e => do return .isNull (← e.resolve t)
  | .not e => do return .not (← e.resolve t)
  | .and l r => do return .and (← l.resolve t) (← r.resolve t)
  | .or l r => do return .or (← l.resolve t) (← r.resolve t)

/-- An optional expression, resolved. -/
def resolve? (t : Table) : Option (Expr Name) → Except SqlError (Option (Expr Nat))
  | some e => (e.resolve t).map some
  | none => .ok none

/-- The columns of a new row. -/
def insertPlaces (t : Table) (p : Path) : List Name → Except SqlError (List Nat)
  | [] => .ok []
  | name :: names => match t.index? name.text with
    | some i => (insertPlaces t p names).map (i :: ·)
    | none => .error (.noColumnNamed p.text name.text)

/-- The columns that are set, and to what. -/
def assignmentPlaces (t : Table) :
    List (Name × Expr Name) → Except SqlError (List (Nat × Expr Nat))
  | [] => .ok []
  | (name, value) :: rest => do
    let value ← value.resolve t
    match t.index? name.text with
    | some i => return (i, value) :: (← assignmentPlaces t rest)
    | none => throw (.noSuchColumn name.text none)

/-- A declared table. -/
def Table.ofColumns (name : String) (columns : List ColumnDef) : Table :=
  { name
    columns := columns.map fun c => ⟨c.name, Affinity.ofDeclared c.type, c.notNull⟩ }

/-- The first column whose name another one in front of it has. -/
def repeatedColumn? : List ColumnDef → List ColumnDef → Option String
  | _, [] => none
  | before, c :: rest =>
    if before.any fun b => sameName b.name c.name then some c.name
    else repeatedColumn? (c :: before) rest

/-- The database keeps a name for itself. -/
def isReserved (name : String) : Bool :=
  sameName (String.ofList (name.toList.take 7)) "sqlite_"

namespace Database

/-- The plan of a command. -/
def plan (db : Database) : Command → Except SqlError Plan
  | .empty => .ok .nothing
  | .pragma => .ok .nothing
  | .selectConstant => .ok .constant
  | .attach file => match openNamed? ({} : Folder Unit) file with
    | some _ => .ok .nothing
    | none => .error (.cannotAttach file)
  | .select path condition order => do
    let t ← db.lookup path
    return .select t.name (← resolve? t condition) (← resolve? t order)
  | .insert path columns values => do
    let t ← db.lookup path
    let places ← insertPlaces t path columns
    return .insert t.name places (← values.mapM fun e => e.resolve t)
  | .update path assignments condition => do
    let t ← db.lookup path
    let assignments ← assignmentPlaces t assignments
    return .update t.name assignments (← resolve? t condition)
  | .create ifNotExists path columns =>
    if inMain path then
      if isReserved path.table.text then .error (.reservedName path.table.text)
      else match db.find? path.table.text with
      | some _ => if ifNotExists then .ok .nothing else .error (.tableExists path.table)
      | none => match repeatedColumn? [] columns with
        | some column => .error (.repeatedColumn column)
        | none => .ok (.create (Table.ofColumns path.table.text columns))
    else .error (.noSuchSchema (path.schema.getD ""))

end Database

namespace Plan

/-- A table is read. -/
def reads : Plan → Bool
  | .select .. => true
  | _ => false

/-- The database is written. -/
def writes : Plan → Bool
  | .insert .. => true
  | .update .. => true
  | .create _ => true
  | _ => false

/-- Rows are changed, and counted. -/
def counts : Plan → Bool
  | .insert .. => true
  | .update .. => true
  | _ => false

/-- What a plan does with the supplied values. -/
def run (supplied : List Cell) (db : Database) : Plan → Except SqlError (Answer × Database)
  | .nothing => .ok (.done, db)
  | .constant => .ok (.row [], db)
  | .select table condition order => match db.find? table with
    | none => .error (.noSuchTable table)
    | some t => match t.first? supplied condition order with
      | some row => .ok (.row ((t.columns.map Column.name).zip row), db)
      | none => .ok (.done, db)
  | .insert table columns values => match db.find? table with
    | none => .error (.noSuchTable table)
    | some t => (t.insert columns (values.map (Expr.eval [] supplied []))).map
        fun t => (.changed 1, db.replace t)
  | .update table assignments condition => match db.find? table with
    | none => .error (.noSuchTable table)
    | some t => (t.update supplied assignments (t.fits supplied condition)).map
        fun (t, count) => (.changed count, db.replace t)
  | .create table => .ok (.done, ⟨db.tables ++ [table]⟩)

end Plan

end RowHistory.Sql
