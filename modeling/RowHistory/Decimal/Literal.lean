import RowHistory.Decimal.Basic
import RowHistory.Binary.Reader

/-!
# Decimal literals

A literal is an optional sign, digits, and at most one point, with a digit somewhere; blanks
around it do not count. This file fixes

* the parts of a literal (`Literal`, `Literal.ofChars?`);
* its magnitude at a scale, gathered digit by digit (`appendDigits`, `appendZeros`) and rounded half
  away from zero by the first digit that is dropped (`roundUp`);
* the decimal of a literal (`Literal.toDecimal`);
* the reading of a text at its natural scale or at a given one (`Decimal.parse`,
  `Decimal.parseWithScale`), and of a double through its shortest digits (`Decimal.ofDouble`).
-/

namespace RowHistory.Decimal

open Text

/-- The parts of a literal. -/
structure Literal where
  negative : Bool
  whole : List Char
  fraction : List Char
deriving DecidableEq, Repr

/-- What stands before the first point, and what stands after it. -/
def splitPoint (cs : List Char) : List Char × List Char :=
  (cs.takeWhile (· ≠ '.'), (cs.dropWhile (· ≠ '.')).drop 1)

/-- The parts of a trimmed literal. -/
def Literal.ofChars? (cs : List Char) : Option Literal :=
  let (negative, rest) := spanSign cs
  let (whole, fraction) := splitPoint rest
  if (whole = [] ∧ fraction = []) ∨ ¬ whole.all Char.isDigit ∨ ¬ fraction.all Char.isDigit then none
  else some ⟨negative, whole, fraction⟩

/-- The magnitude `m` with digits behind it. -/
def appendDigits (m : Int) : List Char → Except Error Int
  | [] => .ok m
  | d :: ds => do
    let tens ← checked (m * 10)
    let next ← checked (tens + (d.toNat - '0'.toNat : Nat))
    appendDigits next ds

/-- The magnitude `m` with zeros behind it. -/
def appendZeros (m : Int) : Nat → Except Error Int
  | 0 => .ok m
  | n + 1 => do
    let tens ← checked (m * 10)
    appendZeros tens n

/-- The magnitude `m`, one more if the first of the digits that are dropped is at least five. -/
def roundUp (m : Int) : List Char → Except Error Int
  | d :: _ => if '5' ≤ d then checked (m + 1) else .ok m
  | [] => .ok m

/-- The magnitude of a literal at a scale. -/
def Literal.gather (l : Literal) (scale : Nat) : Except Error Int := do
  let kept := l.fraction.take scale
  let gathered ← appendDigits 0 (l.whole ++ kept)
  let shifted ← appendZeros gathered (scale - kept.length)
  roundUp shifted (l.fraction.drop scale)

/-- The literal at a scale. The sign comes last, so a magnitude of `2 ^ 127` overflows under either
sign. -/
def Literal.toDecimal (l : Literal) (scale : Nat) : Except Error Decimal :=
  if h : scale ≤ maxScale then do
    let magnitude ← l.gather scale
    .ok ⟨wrap (if l.negative then -magnitude else magnitude), scale, fits_wrap _, h⟩
  else .error (.scaleTooLarge scale)

/-- Reads a literal at a given scale, or at the scale of its own fraction digits, which are counted
in 32 bits. -/
def parseAt (scale : Option Nat) (literal : String) : Except Error Decimal :=
  match Literal.ofChars? (trim literal.toList) with
  | none => .error (.invalid literal)
  | some l => l.toDecimal (scale.getD (min (l.fraction.length % 2 ^ 32) maxScale))

/-- Reads a literal at the scale of its own fraction digits, at most the maximum. -/
def parse (literal : String) : Except Error Decimal :=
  parseAt none literal

/-- Reads a literal and rounds it to a scale. -/
def parseWithScale (literal : String) (scale : Nat) : Except Error Decimal :=
  parseAt (some scale) literal

/-- The decimal of an integer, at scale zero. -/
def ofInt (n : Int) : Except Error Decimal :=
  ofParts n 0

/-- The decimal of a double's shortest digits, so that the double next to `0.1` is `0.1`. -/
def ofDouble (x : Double) (scale : Nat) : Except Error Decimal :=
  match x.plainText? with
  | some literal => parseWithScale literal scale
  | none => .error .nonFinite

end RowHistory.Decimal
