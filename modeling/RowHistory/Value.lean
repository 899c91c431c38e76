import RowHistory.Decimal.Literal
import RowHistory.Instant.Printer
import RowHistory.Instant.Reader
import RowHistory.Json.Basic
import RowHistory.Text.Inspect

/-!
# Field values

A value of a field, in the representation in which it arrived. This file fixes

* the type (`Value`) and the names of its representations (`Value.typeName`);
* the views of a value: an integer, an instant (also from its text), a text;
* when two values are the same (`Value.same`): representations differ, numbers compare as
  numbers;
* the JSON form, in which decimals and instants are strings (`Value.toJson`), and the form for a
  reader's eye (`Value.inspect`).
-/

namespace RowHistory

/-- The value of one field. The widths of integers and floating-point numbers are kept as they
came. -/
inductive Value where
  | null
  | bool (b : Bool)
  | int32 (n : Int)
  | int64 (n : Int)
  | float32 (x : Single)
  | float64 (x : Double)
  | decimal (d : Decimal)
  | text (s : String)
  | timestamp (t : Instant)
deriving DecidableEq

namespace Value

instance : Inhabited Value := ⟨.null⟩

/-- The name of a value's representation. -/
def typeName : Value → String
  | .null => "null"
  | .bool _ => "bool"
  | .int32 _ => "int32"
  | .int64 _ => "int64"
  | .float32 _ => "float32"
  | .float64 _ => "float64"
  | .decimal _ => "decimal"
  | .text _ => "text"
  | .timestamp _ => "timestamp"

def isNull : Value → Bool
  | .null => true
  | _ => false

/-- The number of an integer value. -/
def asInt? : Value → Option Int
  | .int32 n => some n
  | .int64 n => some n
  | _ => none

/-- The instant of a timestamp, or of a text that holds one. -/
def asInstant? : Value → Option Instant
  | .timestamp t => some t
  | .text s => Instant.parse? s
  | _ => none

/-- The text of a text value. -/
def asText? : Value → Option String
  | .text s => some s
  | _ => none

/-- The same representation and the same content; decimals and floating-point numbers compare as
numbers. -/
def same : Value → Value → Bool
  | .float32 x, .float32 y => x.same y
  | .float64 x, .float64 y => x.same y
  | .decimal x, .decimal y => x.same y
  | a, b => a = b

/-- A double as JSON, which has no infinities and no NaN. -/
def realJson (x : Double) : Json :=
  if x.isFinite then .real x else .null

/-- The JSON form of a value. -/
def toJson : Value → Json
  | .null => .null
  | .bool b => .bool b
  | .int32 n => .int n
  | .int64 n => .int n
  | .float32 x => realJson x.widen
  | .float64 x => realJson x
  | .decimal d => .str d.text
  | .text s => .str s
  | .timestamp t => .str t.storageText

/-- The value for a reader's eye. -/
def inspect : Value → String
  | .null => "Null"
  | .bool b => if b then "Bool(true)" else "Bool(false)"
  | .int32 n => s!"Int32({n})"
  | .int64 n => s!"Int64({n})"
  | .float32 x => s!"Float32({x.inspect})"
  | .float64 x => s!"Float64({x.inspect})"
  | .decimal d => s!"Decimal({d.inspect})"
  | .text s => s!"Text({Text.inspect s})"
  | .timestamp t => s!"Timestamp({t.isoText})"

/-- An instant, or nothing. -/
def ofInstant? : Option Instant → Value
  | some t => .timestamp t
  | none => .null

end Value

end RowHistory
