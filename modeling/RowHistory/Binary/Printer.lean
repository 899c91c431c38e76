import RowHistory.Text.Numeral
import RowHistory.Binary.Nearest
import RowHistory.Binary.Shortest

/-!
# Floating-point numbers as text

One layout of digits, and a record of decisions for each place where a number is written:

* `RealFormat.plain` never uses an exponent and writes a whole number without a point;
* `RealFormat.json` is positional from `0.00001` up to `10 ^ 16`, and of two equally near decimals
  it takes the even one;
* `RealFormat.inspect` is positional from `0.0001` up to `10 ^ 16`;
* `RealFormat.stored` is what a text column keeps of a number: fifteen digits, positional from
  `0.0001` up to `10 ^ 15`, and an exponent of at least two digits.
-/

namespace RowHistory

open Binary

/-- How a magnitude is written. -/
structure RealFormat where
  /-- Whether a number whose leading digit has this exponent is written without an exponent. -/
  positional : Int → Bool
  /-- A number always shows a fraction in positional form. -/
  fraction : Bool
  /-- A number always shows a fraction in front of an exponent. -/
  mantissaFraction : Bool
  /-- A positive exponent has a plus sign. -/
  plus : Bool
  /-- The least number of digits in an exponent. -/
  exponentWidth : Nat
  /-- Which of two equally short and equally near decimals is written. -/
  tie : Tie

namespace RealFormat

def plain : RealFormat := ⟨fun _ => true, false, false, false, 1, .up⟩

def json : RealFormat := ⟨fun e => -5 ≤ e && e < 16, true, false, true, 1, .even⟩

def inspect : RealFormat := ⟨fun e => -4 ≤ e && e < 16, true, false, false, 1, .up⟩

def stored : RealFormat := ⟨fun e => -4 ≤ e && e ≤ 14, true, true, true, 2, .up⟩

/-- Digits in positional form. -/
def positionalText (fmt : RealFormat) (d : Digits) : List Char :=
  let ds := d.text
  let tail := if fmt.fraction then ['.', '0'] else []
  if 0 ≤ d.exponent then ds ++ List.replicate d.exponent.toNat '0' ++ tail
  else
    let places := (-d.exponent).toNat
    if places < ds.length then ds.take (ds.length - places) ++ '.' :: ds.drop (ds.length - places)
    else '0' :: '.' :: List.replicate (places - ds.length) '0' ++ ds

/-- Digits with an exponent. -/
def exponentText (fmt : RealFormat) (d : Digits) : List Char :=
  let e := d.leading
  let mantissa := match d.text with
    | [c] => if fmt.mantissaFraction then [c, '.', '0'] else [c]
    | c :: rest => c :: '.' :: rest
    | [] => []
  let sign := if e < 0 then ['-'] else if fmt.plus then ['+'] else []
  mantissa ++ 'e' :: sign ++ Text.padded fmt.exponentWidth e.natAbs

/-- A magnitude. -/
def magnitude (fmt : RealFormat) (d : Digits) : List Char :=
  if d.value = 0 then positionalText fmt d
  else if fmt.positional d.leading then positionalText fmt d
  else exponentText fmt d

/-- A sign and a magnitude. -/
def signed (fmt : RealFormat) (negative : Bool) (d : Digits) : String :=
  String.ofList (if negative then '-' :: fmt.magnitude d else fmt.magnitude d)

end RealFormat

/-- The shortest digits of a finite value; zero has the digit zero. -/
def RealFormat.digits (fmt : RealFormat) (f : Format) (m : Nat) (q : Int) : Digits :=
  if m = 0 then ⟨0, 0⟩ else f.shortest fmt.tie m q

namespace Double

/-- The text of a finite double without an exponent; nothing else has one. -/
def plainText? (x : Double) : Option String :=
  match x.reading with
  | .finite s m q => some (RealFormat.plain.signed s (RealFormat.plain.digits double m q))
  | _ => none

/-- The number as JSON, which has no infinities and no NaN. -/
def jsonText (x : Double) : String :=
  match x.reading with
  | .finite s m q => RealFormat.json.signed s (RealFormat.json.digits double m q)
  | _ => "null"

/-- The number as a text column keeps it. -/
def storedText (x : Double) : String :=
  match x.reading with
  | .finite s m q => RealFormat.stored.signed (s && m != 0) (roundedDigits 15 m q)
  | .infinite s => if s then "-Inf" else "Inf"
  | .nan => "NaN"

/-- The number for a reader's eye. -/
def inspect (x : Double) : String :=
  match x.reading with
  | .finite s m q => RealFormat.inspect.signed s (RealFormat.inspect.digits double m q)
  | .infinite s => if s then "-inf" else "inf"
  | .nan => "NaN"

end Double

namespace Single

/-- The number for a reader's eye. -/
def inspect (x : Single) : String :=
  match x.reading with
  | .finite s m q => RealFormat.inspect.signed s (RealFormat.inspect.digits single m q)
  | .infinite s => if s then "-inf" else "inf"
  | .nan => "NaN"

end Single

end RowHistory
