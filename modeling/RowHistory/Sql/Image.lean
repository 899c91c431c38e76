import RowHistory.Json.Decode
import RowHistory.Sql.Database

/-!
# Images of databases

A database as JSON, so that it can be kept in a file and read back. A floating-point number is
kept as its bits, and bytes as numbers.
-/

namespace RowHistory.Sql

namespace Cell

/-- A cell as JSON. -/
def toJson : Cell → Json
  | .null => .null
  | .integer n => .int n
  | .real x => .obj [("real", .int x.bits.toNat)]
  | .text s => .str s
  | .blob bytes => .obj [("blob", .arr (bytes.map fun b => .int b.toNat))]

/-- A cell from JSON. -/
def ofJson? : Json → Option Cell
  | .null => some .null
  | .int n => some (.integer n)
  | .str s => some (.text s)
  | .obj [("real", bits)] => (Json.nat? (2 ^ 64) bits).map fun n => .real (Double.ofBits n)
  | .obj [("blob", bytes)] =>
    (Json.list? (Json.nat? 256) bytes).map fun ns => .blob (ns.map UInt8.ofNat)
  | _ => none

end Cell

namespace Affinity

/-- The name of an affinity. -/
def name : Affinity → String
  | .integer => "integer"
  | .real => "real"
  | .text => "text"
  | .blob => "blob"

/-- The affinities by name. -/
def choices : List (String × Affinity) :=
  [Affinity.integer, .real, .text, .blob].map fun a => (a.name, a)

end Affinity

namespace Column

/-- A column as JSON. -/
def toJson (c : Column) : Json :=
  .arr [.str c.name, .str c.affinity.name, .bool c.notNull]

/-- A column from JSON. -/
def ofJson? : Json → Option Column
  | .arr [name, affinity, notNull] => do
    return ⟨← Json.text? name, ← Json.choice? Affinity.choices affinity, ← Json.bool? notNull⟩
  | _ => none

end Column

namespace Table

/-- A table as JSON. -/
def toJson (t : Table) : Json :=
  .arr [.str t.name, .arr (t.columns.map Column.toJson),
    .arr (t.unique.map fun group => .arr (group.map fun i : Nat => .int i)),
    .arr (t.rows.map fun row => .arr (row.map Cell.toJson))]

/-- A table from JSON. -/
def ofJson? : Json → Option Table
  | .arr [name, columns, unique, rows] => do
    return {
      name := ← Json.text? name
      columns := ← Json.list? Column.ofJson? columns
      unique := ← Json.list? (Json.list? (Json.nat? (2 ^ 32))) unique
      rows := ← Json.list? (Json.list? Cell.ofJson?) rows }
  | _ => none

end Table

namespace Database

/-- A database as JSON. -/
def toJson (db : Database) : Json :=
  .arr (db.tables.map Table.toJson)

/-- A database from JSON. -/
def ofJson? (j : Json) : Option Database :=
  (Json.list? Table.ofJson? j).map fun tables => ⟨tables⟩

end Database

end RowHistory.Sql
