import RowHistory.Field.Basic
import RowHistory.Row

/-!
# Comparison by declared type

Two values of a field are compared after both are read as the field's declared type; nothing is
guessed from the representation. Null is equal to null only, and a value that cannot be read as
the declared type is an error, not a difference. This file fixes

* the values of a declared type (`Normal`) and how a value is read as one (`FieldType.read?`);
* when two of them are equal (`Normal.same`); floating-point numbers may differ by the larger of
  their spacings, where their distance is itself a rounded double;
* equality of two values (`FieldType.equal`), of a field in two rows (`Field.equal`), and whether
  any field of a kind differs (`Classification.anyDiffers`).
-/

namespace RowHistory

open Binary Text

/-- A value that cannot be read as the declared type of its field. -/
structure TypeMismatch where
  field : String
  expected : FieldType
  /-- The name of the representation. -/
  found : String
deriving DecidableEq, Repr

/-- The wording of the cause. -/
def TypeMismatch.message (e : TypeMismatch) : String :=
  s!"field '{e.field}' is declared {e.expected.name} but holds {e.found}"

/-- A floating-point number with the spacing of its width at its place, in least units. -/
structure Spaced where
  reading : Reading
  spacing : Nat
deriving DecidableEq, Repr

namespace Spaced

/-- The number of a reading. -/
def ofReading (r : Reading) : Spaced :=
  match r with
  | .finite _ _ q => ⟨r, unitCount 1 q⟩
  | _ => ⟨r, 0⟩

/-- A distance in least units, rounded to a double; none if it is infinite. -/
def roundedDistance? (units : Nat) : Option Nat :=
  match (Double.ofScaled false units double.leastExponent).reading with
  | .finite _ m q => some (unitCount m q)
  | _ => none

/-- The distance of the numbers, as a double, is at most the larger spacing; an infinity is equal
to itself, and NaN is equal to NaN. -/
def same (a b : Spaced) : Bool :=
  match a.reading, b.reading with
  | .nan, .nan => true
  | .infinite s, .infinite t => s = t
  | .finite s m q, .finite t n r =>
    let x : Int := if s then -(unitCount m q : Int) else unitCount m q
    let y : Int := if t then -(unitCount n r : Int) else unitCount n r
    (roundedDistance? (x - y).natAbs).any fun d => d ≤ max a.spacing b.spacing
  | _, _ => false

end Spaced

/-- A value read as a declared type. -/
inductive Normal where
  | integer (n : Int)
  | decimal (d : Decimal)
  | float (x : Spaced)
  | boolean (b : Bool)
  | string (s : String)
  | timestamp (t : Instant)

/-- Equality within one declared type. -/
def Normal.same : Normal → Normal → Bool
  | .integer a, .integer b => a = b
  | .decimal a, .decimal b => a.same b
  | .float a, .float b => a.same b
  | .boolean a, .boolean b => a = b
  | .string a, .string b => a = b
  | .timestamp a, .timestamp b => a = b
  | _, _ => false

/-- The integer of a double without a fraction, within 64 bits. -/
def Double.toInt64? (x : Double) : Option Int :=
  match x.reading with
  | .finite s m q =>
    let n := m * 2 ^ q.toNat
    let d := 2 ^ (-q).toNat
    if n % d = 0 then
      let i : Int := if s then -(n / d : Nat) else (n / d : Nat)
      if InInt64 i then some i else none
    else none
  | _ => none

namespace Value

/-- The value as an integer: an integer, a decimal or double without a fraction, or the text of
an integer. -/
def asInteger? : Value → Option Int
  | .int32 n => some n
  | .int64 n => some n
  | .decimal d => match d.rescale 0 with
    | .ok whole =>
      if whole.same d ∧ InInt64 whole.mantissa then some whole.mantissa else none
    | .error _ => none
  | .float64 x => x.toInt64?
  | .text s => readInt64? s
  | _ => none

/-- The value as a decimal; a floating-point number is rounded to the declared scale. -/
def asDecimal? (scale : Nat) : Value → Option Decimal
  | .decimal d => some d
  | .int32 n => (Decimal.ofInt n).toOption
  | .int64 n => (Decimal.ofInt n).toOption
  | .float32 x => (Decimal.ofDouble x.widen scale).toOption
  | .float64 x => (Decimal.ofDouble x scale).toOption
  | .text s => (Decimal.parse s).toOption
  | _ => none

/-- The value as a floating-point number. -/
def asSpaced? : Value → Option Spaced
  | .float32 x => some (.ofReading x.reading)
  | .float64 x => some (.ofReading x.reading)
  | .int32 n => some (.ofReading (Double.ofInt n).reading)
  | .int64 n => some (.ofReading (Double.ofInt n).reading)
  | .decimal d => some (.ofReading d.toDouble.reading)
  | .text s => (readDouble? s).map fun x => .ofReading x.reading
  | _ => none

/-- The value as a truth value; zero and one count as one. -/
def asBool? : Value → Option Bool
  | .bool b => some b
  | .int32 n => if n = 0 then some false else if n = 1 then some true else none
  | .int64 n => if n = 0 then some false else if n = 1 then some true else none
  | _ => none

end Value

namespace FieldType

/-- A value other than null, read as the type. -/
def read? : FieldType → Value → Option Normal
  | .integer, v => v.asInteger?.map .integer
  | .decimal scale, v => (v.asDecimal? scale).map .decimal
  | .float, v => v.asSpaced?.map .float
  | .boolean, v => v.asBool?.map .boolean
  | .string, v => v.asText?.map .string
  | .timestamp, v => v.asInstant?.map fun t => .timestamp t.truncate

/-- A value of a field read as its type, nothing for null. -/
def normalize (type : FieldType) (field : String) (v : Value) :
    Except TypeMismatch (Option Normal) :=
  if v.isNull then .ok none
  else match type.read? v with
    | some n => .ok (some n)
    | none => .error ⟨field, type, v.typeName⟩

/-- Equality of what two values were read as. -/
def sameNormal : Option Normal → Option Normal → Bool
  | none, none => true
  | some a, some b => a.same b
  | _, _ => false

/-- Equality of two values of a field. -/
def equal (type : FieldType) (field : String) (left right : Value) : Except TypeMismatch Bool :=
  match type.normalize field left with
  | .error e => .error e
  | .ok a => match type.normalize field right with
    | .error e => .error e
    | .ok b => .ok (sameNormal a b)

end FieldType

/-- Equality of a field in two rows. -/
def Field.equal (f : Field) (incoming stored : Row) : Except TypeMismatch Bool :=
  f.type.equal f.name (incoming.value f.name) (stored.value f.name)

/-- A field of the list differs between two rows; the first difference ends the search. -/
def anyFieldDiffers (incoming stored : Row) : List Field → Except TypeMismatch Bool
  | [] => .ok false
  | f :: rest => match f.equal incoming stored with
    | .error e => .error e
    | .ok false => .ok true
    | .ok true => anyFieldDiffers incoming stored rest

/-- A field of a kind differs between two rows. -/
def Classification.anyDiffers (c : Classification) (kind : FieldKind) (incoming stored : Row) :
    Except TypeMismatch Bool :=
  anyFieldDiffers incoming stored (c.ofKind kind)

end RowHistory
