import RowHistory.Binary.Printer
import RowHistory.Comparison
import RowHistory.Text.Utf8

/-!
# Cells

What a table keeps in one place of a row: null, an integer, a floating-point number, a text or
bytes. A column has an affinity, which says what becomes of a value that is stored in it or
compared with it. This file fixes

* the cells and their order (`Cell.order`): null, numbers, texts, bytes;
* the affinities (`Affinity`), how they convert what is stored (`Affinity.store`), and how two
  cells are brought together for a comparison (`Affinity.align`);
* how a value is bound to a cell and a cell read as a value (`Cell.ofValue`, `Cell.toValue`).
-/

namespace RowHistory.Sql

open Text (InInt64)

/-- One place of a row. -/
inductive Cell where
  | null
  | integer (n : Int)
  | real (x : Double)
  | text (s : String)
  | blob (bytes : List UInt8)
deriving DecidableEq, Repr, Inhabited

namespace Cell

/-- The place of a cell's kind in the order. -/
def rank : Cell → Nat
  | .null => 0
  | .integer _ => 1
  | .real _ => 1
  | .text _ => 2
  | .blob _ => 3

/-- A cell is null. -/
def isNull (c : Cell) : Bool :=
  c = .null

/-- The reading of an integer, which is exact. -/
def integerReading (n : Int) : Binary.Reading :=
  .finite (n < 0) n.natAbs 0

/-- The order of two cells. Numbers are compared exactly, texts and bytes byte by byte. -/
def order : Cell → Cell → Ordering
  | .integer a, .integer b => compare a b
  | .integer a, .real y => ((integerReading a).compare? y.reading).getD .gt
  | .real x, .integer b => (x.reading.compare? (integerReading b)).getD .lt
  | .real x, .real y => (x.reading.compare? y.reading).getD .eq
  | .text a, .text b => compare a b
  | .blob a, .blob b => compare (a.map UInt8.toNat) (b.map UInt8.toNat)
  | a, b => compare a.rank b.rank

/-- The cell that a value is bound to: texts for decimals and instants, null for NaN. -/
def ofValue : Value → Cell
  | .null => .null
  | .bool b => .integer (if b then 1 else 0)
  | .int32 n => .integer n
  | .int64 n => .integer n
  | .float32 x => ofReal x.widen
  | .float64 x => ofReal x
  | .decimal d => .text d.text
  | .text s => .text s
  | .timestamp t => .text t.storageText
where
  /-- A number that is not NaN. -/
  ofReal (x : Double) : Cell :=
    if x.isNaN then .null else .real x

/-- The value that a cell is read as. -/
def toValue : Cell → Value
  | .null => .null
  | .integer n => .int64 n
  | .real x => .float64 x
  | .text s => .text s
  | .blob bytes => .text (Utf8.decodeLossy bytes)

end Cell

/-- The affinity of a column. -/
inductive Affinity where
  | integer
  | real
  | text
  | blob
deriving DecidableEq, Repr, Inhabited

/-- The blanks that may surround a number in a text. -/
def isNumberSpace (c : Char) : Bool :=
  c = ' ' || (0x09 ≤ c.toNat && c.toNat ≤ 0x0D)

/-- The number that a text spells, with blanks around it. A plain integer of 64 bits is an
integer, and all other numbers are floating-point numbers. -/
def numberOf? (s : String) : Option Cell :=
  let cs := s.toList.dropWhile isNumberSpace
  let (negative, cs) := spanSign cs
  match Numeral.span? cs with
  | none => none
  | some (n, rest) =>
    if rest.all isNumberSpace then
      let i : Int := if negative then -(n.digits : Int) else n.digits
      if !n.isReal && InInt64 i then some (.integer i)
      else some (.real (n.toDouble negative))
    else none

/-- A floating-point number as an integer, if it is one strictly within 64 bits. -/
def integral (x : Double) : Cell :=
  match x.toInt64? with
  | some i => if Text.int64Min < i ∧ i < Text.int64Max then .integer i else .real x
  | none => .real x

/-- A number as a floating-point number; zero has no sign. -/
def floating (c : Cell) : Cell :=
  match c with
  | .integer n => .real (Double.ofInt n)
  | .real x => .real (if x.same Double.zero then Double.zero else x)
  | c => c

namespace Affinity

/-- A numeric column brings numbers out of texts. -/
def isNumeric : Affinity → Bool
  | .integer => true
  | .real => true
  | _ => false

/-- What a column keeps of a cell. -/
def store : Affinity → Cell → Cell
  | .integer, .text s => match numberOf? s with
    | some (.real x) => integral x
    | some c => c
    | none => .text s
  | .integer, .real x => integral x
  | .real, .text s => match numberOf? s with
    | some c => floating c
    | none => .text s
  | .real, c => floating c
  | .text, .integer n => .text (Text.intText n)
  | .text, .real x => .text x.storedText
  | _, c => c

/-- A text that spells a number becomes it. -/
def numeric : Cell → Cell
  | .text s => (numberOf? s).getD (.text s)
  | c => c

/-- A number becomes its text. -/
def textual : Cell → Cell
  | .integer n => .text (Text.intText n)
  | .real x => .text x.storedText
  | c => c

/-- A cell is a text. -/
def isText : Cell → Bool
  | .text _ => true
  | _ => false

/-- The affinity under which two sides are compared: a numeric column makes the comparison
numeric; a text column makes it textual only against a side that is no column. -/
def common : Option Affinity → Option Affinity → Option Affinity
  | some a, some b => if a.isNumeric || b.isNumeric then some .integer else none
  | some a, none => some a
  | none, b => b

/-- The two sides of a comparison, converted. -/
def align (a : Option Affinity) (l r : Cell) : Cell × Cell :=
  match a with
  | some .integer => (numeric l, numeric r)
  | some .real => (numeric l, numeric r)
  | some .text => if isText l || isText r then (textual l, textual r) else (l, r)
  | _ => (l, r)

/-- The affinity that a declared type gives. -/
def ofDeclared (decl : String) : Affinity :=
  let type := decl.toUpper
  let has (part : String) : Bool := (type.splitOn part).length > 1
  if has "INT" then .integer
  else if has "CHAR" || has "CLOB" || has "TEXT" then .text
  else if has "BLOB" || Text.allBlank decl then .blob
  else if has "REAL" || has "FLOA" || has "DOUB" then .real
  else .integer

end Affinity

end RowHistory.Sql
