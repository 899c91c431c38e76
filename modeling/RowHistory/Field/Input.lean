import RowHistory.Field.Basic
import RowHistory.Row

/-!
# Rows from JSON

How an incoming JSON object becomes a row: a classified field is read by its declared type, any
other one as it comes. This file fixes

* the reading of one value by type (`FieldType.ofJson`), null being null for every type;
* the reading of a value without a type (`Value.ofJson`);
* the reading of a row (`Classification.rowOfJson`), in order of the names, so that the first bad
  name is reported.
-/

namespace RowHistory

open Text

/-- The number of a JSON number as a double. -/
def Json.toDouble? : Json → Option Double
  | .int n => some (Double.ofInt n)
  | .real x => some x
  | _ => none

/-- The 64-bit integer of a JSON number. -/
def Json.toInt64? : Json → Option Int
  | .int n => if InInt64 n then some n else none
  | _ => none

/-- A decimal of a JSON value: a whole number within 64 bits exactly, another number through its
shortest digits, a string as a literal. -/
def FieldType.decimalOfJson? (scale : Nat) (j : Json) : Option Decimal :=
  match j with
  | .str s => (Decimal.parseWithScale s scale).toOption
  | _ => match j.toInt64?, j.toDouble? with
    | some n, _ => ((Decimal.ofInt n).bind fun d => d.rescale scale).toOption
    | none, some x => (Decimal.ofDouble x scale).toOption
    | none, none => none

/-- The value of a declared type that a JSON value other than null holds. -/
def FieldType.valueOfJson? : FieldType → Json → Option Value
  | .integer, j => j.toInt64?.map .int64
  | .decimal scale, j => (decimalOfJson? scale j).map .decimal
  | .float, j => j.toDouble?.map .float64
  | .boolean, .bool b => some (.bool b)
  | .string, .str s => some (.text s)
  | .timestamp, .str s => (Instant.parse? s).map .timestamp
  | _, _ => none

/-- The value of a field of a declared type. -/
def FieldType.ofJson (type : FieldType) (field : String) (j : Json) : Except FieldError Value :=
  match j with
  | .null => .ok .null
  | _ => match type.valueOfJson? j with
    | some v => .ok v
    | none => .error (.invalidValue field type j.kindName)

/-- The value of a field without a type; arrays and objects stay as their text. -/
def Value.ofJson : Json → Value
  | .null => .null
  | .bool b => .bool b
  | .int n => if InInt64 n then .int64 n else .float64 (Double.ofInt n)
  | .real x => .float64 x
  | .str s => .text s
  | j => .text j.render

namespace Classification

/-- The value of a member, by the declared type if there is one. -/
def valueOfJson (c : Classification) (name : String) (j : Json) : Except FieldError Value :=
  match c.get? name with
  | some f => f.type.ofJson name j
  | none => .ok (Value.ofJson j)

/-- The entries of a row from the members of an object. -/
def entriesOfJson (c : Classification) :
    List (String × Json) → Except FieldError (List (String × Value))
  | [] => .ok []
  | (name, j) :: rest =>
    match c.valueOfJson name j with
    | .error e => .error e
    | .ok v => match c.entriesOfJson rest with
      | .error e => .error e
      | .ok entries => .ok ((name, v) :: entries)

/-- The row that a plain JSON object holds. -/
def rowOfJson (c : Classification) : Json → Except FieldError Row
  | .obj members => (c.entriesOfJson members).map Row.ofList
  | _ => .error .notAnObject

end Classification

end RowHistory
