import RowHistory.Sql.Error

/-!
# Tables

A table is a list of rows, each a list of cells in the order of its columns, in the order in
which they were inserted. This file fixes

* columns and tables (`Column`, `Table`); names match in upper or lower case;
* the truth of an expression on a row (`Expr.eval`, `Cell.truth`), which may be unknown;
* the constraints of a row (`Table.check`);
* the three operations: the first row in descending order (`Table.first?`), a new row
  (`Table.insert`), and a change of some rows (`Table.update`).
-/

namespace RowHistory.Sql

/-- A column. -/
structure Column where
  name : String
  affinity : Affinity
  notNull : Bool := false
deriving DecidableEq, Repr

/-- A table. -/
structure Table where
  name : String
  columns : List Column
  /-- The groups of columns whose values do not repeat. -/
  unique : List (List Nat) := []
  rows : List (List Cell) := []
deriving DecidableEq, Repr

/-- Two names are the same in upper or lower case. -/
def sameName (a b : String) : Bool :=
  a.toLower = b.toLower

/-! ## 1. Expressions on a row -/

/-- The truth of a cell: a number that is not zero is true, and null is unknown. A text counts
as the number in front of it. -/
def Cell.truth : Cell → Option Bool
  | .null => none
  | .integer n => some (n ≠ 0)
  | .real x => some (!x.same Double.zero)
  | .text s => some (leading s)
  | .blob bytes => some (leading (Utf8.decodeLossy bytes))
where
  /-- The number in front of a text is not zero. -/
  leading (s : String) : Bool :=
    let (negative, cs) := spanSign (s.toList.dropWhile isNumberSpace)
    match Numeral.span? cs with
    | some (n, _) => !(n.toDouble negative).same Double.zero
    | none => false

/-- The cell of a truth value. -/
def Cell.ofTruth : Option Bool → Cell
  | some true => .integer 1
  | some false => .integer 0
  | none => .null

/-- Both hold; a false side decides. -/
def truthAnd : Option Bool → Option Bool → Option Bool
  | some false, _ => some false
  | _, some false => some false
  | some true, some true => some true
  | _, _ => none

/-- One of them holds; a true side decides. -/
def truthOr : Option Bool → Option Bool → Option Bool
  | some true, _ => some true
  | _, some true => some true
  | some false, some false => some false
  | _, _ => none

/-- An order satisfies a comparison. -/
def Relation.holds : Relation → Ordering → Bool
  | .eq, o => o = .eq
  | .ne, o => o ≠ .eq
  | .lt, o => o = .lt
  | .le, o => o ≠ .gt
  | .gt, o => o = .gt
  | .ge, o => o ≠ .lt

/-- Two cells compared under an affinity; with null the answer is unknown. -/
def compareCells (op : Relation) (a : Option Affinity) (l r : Cell) : Option Bool :=
  let (l, r) := Affinity.align a l r
  if l.isNull || r.isNull then none else some (op.holds (l.order r))

namespace Expr

/-- The affinity of a side of a comparison, if it is a column. -/
def affinity? (columns : List Column) : Expr Nat → Option Affinity
  | .column i => columns[i]?.map Column.affinity
  | _ => none

/-- The value of an expression on a row, for the supplied values. -/
def eval (columns : List Column) (supplied row : List Cell) : Expr Nat → Cell
  | .column i => row.getD i .null
  | .parameter i => supplied.getD i .null
  | .constant c => c
  | .compare op l r =>
    Cell.ofTruth (compareCells op (Affinity.common (l.affinity? columns) (r.affinity? columns))
      (l.eval columns supplied row) (r.eval columns supplied row))
  | .isNull e => Cell.ofTruth (some (e.eval columns supplied row).isNull)
  | .not e => Cell.ofTruth ((e.eval columns supplied row).truth.map (!·))
  | .and l r => Cell.ofTruth (truthAnd (l.eval columns supplied row).truth
      (r.eval columns supplied row).truth)
  | .or l r => Cell.ofTruth (truthOr (l.eval columns supplied row).truth
      (r.eval columns supplied row).truth)

end Expr

namespace Table

/-- The place of a column. -/
def index? (t : Table) (name : String) : Option Nat :=
  t.columns.findIdx? fun c => sameName c.name name

/-- A row fits a condition: it is true of it. -/
def fits (t : Table) (supplied : List Cell) (condition : Option (Expr Nat)) (row : List Cell) :
    Bool :=
  match condition with
  | some e => (e.eval t.columns supplied row).truth = some true
  | none => true

/-! ## 2. Constraints -/

/-- The row as the columns keep it. -/
def stored (t : Table) (row : List Cell) : List Cell :=
  t.columns.zipWith (fun column cell => column.affinity.store cell) row

/-- A column of the row that must not be null, and is. -/
def nullColumn? (t : Table) (row : List Cell) : Option String :=
  ((t.columns.zip row).find? fun (column, cell) => column.notNull && cell.isNull).map (·.1.name)

/-- Two rows have the same values in some columns. Null is different from everything. -/
def agree (columns : List Nat) (a b : List Cell) : Bool :=
  columns.all fun i =>
    let x := a.getD i .null
    let y := b.getD i .null
    !x.isNull && !y.isNull && x.order y = .eq

/-- A group of columns that a row repeats from others; the last declared group is looked at
first. -/
def repeated? (t : Table) (others : List (List Cell)) (row : List Cell) : Option (List String) :=
  (t.unique.reverse.find? fun columns => others.any (agree columns row)).map fun columns =>
    columns.filterMap fun i => t.columns[i]?.map Column.name

/-- The row may stand beside others. -/
def check (t : Table) (others : List (List Cell)) (row : List Cell) : Except SqlError Unit :=
  match t.nullColumn? row with
  | some column => .error (.nullValue t.name column)
  | none => match t.repeated? others row with
    | some columns => .error (.repeated t.name columns)
    | none => .ok ()

/-! ## 3. Operations -/

/-- Of two rows, the one whose term is greater; the earlier one if they are equal. -/
def greater (t : Table) (supplied : List Cell) (order : Expr Nat) (a b : List Cell) :
    List Cell :=
  if (order.eval t.columns supplied a).order (order.eval t.columns supplied b) = .lt then b
  else a

/-- Of the rows that fit, the first in descending order of a term. -/
def first? (t : Table) (supplied : List Cell) (condition order : Option (Expr Nat)) :
    Option (List Cell) :=
  match t.rows.filter (t.fits supplied condition), order with
  | [], _ => none
  | row :: _, none => some row
  | row :: rows, some order => some (rows.foldl (t.greater supplied order) row)

/-- The row that gets values in some columns, and null in all others. Of a column that is named
twice, the first value counts. -/
def newRow (t : Table) (columns : List Nat) (values : List Cell) : List Cell :=
  (List.range t.columns.length).map fun i =>
    (((columns.zip values).find? fun p => p.1 = i).map (·.2)).getD .null

/-- Adds a row. -/
def insert (t : Table) (columns : List Nat) (values : List Cell) : Except SqlError Table := do
  let row := t.stored (t.newRow columns values)
  t.check t.rows row
  return { t with rows := t.rows ++ [row] }

/-- The row with some cells set. Of a column that is set twice, the last value counts. -/
def changedRow (t : Table) (supplied : List Cell) (assignments : List (Nat × Expr Nat))
    (row : List Cell) : List Cell :=
  t.stored (assignments.foldl (fun new (i, e) => new.set i (e.eval t.columns supplied row)) row)

/-- Changes the rows that are picked, one after the other, behind those that are done. -/
def updateRows (t : Table) (supplied : List Cell) (assignments : List (Nat × Expr Nat))
    (picked : List Cell → Bool) (done : List (List Cell)) :
    List (List Cell) → Except SqlError (List (List Cell) × Nat)
  | [] => .ok (done, 0)
  | row :: rows =>
    if picked row then
      let new := t.changedRow supplied assignments row
      match t.check (done ++ rows) new with
      | .error e => .error e
      | .ok () => (t.updateRows supplied assignments picked (done ++ [new]) rows).map
          fun (all, count) => (all, count + 1)
    else t.updateRows supplied assignments picked (done ++ [row]) rows

/-- Changes the rows that are picked, and counts them. -/
def update (t : Table) (supplied : List Cell) (assignments : List (Nat × Expr Nat))
    (picked : List Cell → Bool) : Except SqlError (Table × Nat) :=
  (t.updateRows supplied assignments picked [] t.rows).map fun (rows, count) =>
    ({ t with rows }, count)

end Table

end RowHistory.Sql
