import RowHistory.Text.Blank

/-!
# Numerals

Decimal digits as text. The digits of a number are core's `Nat.toDigits 10`, and their value is
core's `Nat.ofDigitChars 10`; this file adds

* padding with zeros to a width (`padded`);
* the leading digits of a text and what follows them (`spanDigits`);
* the spelling of an integer (`intDigits`) and the reading of one with an optional sign
  (`readInt?`), bounded to 64 bits in `readInt64?`.
-/

namespace RowHistory.Text

/-- A power of a number is core's, also beside a library with powers of its own. -/
@[default_instance 20000]
instance (priority := 2000) corePow {α : Type} [NatPow α] : Pow α Nat := instPowNat

/-- The decimal digits of `n`. -/
def digits (n : Nat) : List Char :=
  Nat.toDigits 10 n

/-- The number that a list of digits spells; the empty list spells zero. -/
def digitsValue (ds : List Char) : Nat :=
  Nat.ofDigitChars 10 ds 0

/-- The digits of `n`, with zeros in front up to `width` characters. -/
def padded (width n : Nat) : List Char :=
  List.replicate (width - (digits n).length) '0' ++ digits n

/-- The digits in front of a text, and the rest. -/
def spanDigits (cs : List Char) : List Char × List Char :=
  (cs.takeWhile Char.isDigit, cs.dropWhile Char.isDigit)

/-- An integer in decimal, with a minus sign if it is negative. -/
def intDigits (n : Int) : List Char :=
  if n < 0 then '-' :: digits n.natAbs else digits n.natAbs

/-- An integer in decimal, as a string. -/
def intText (n : Int) : String :=
  String.ofList (intDigits n)

/-- Digits only, at least one. -/
def readNat? (cs : List Char) : Option Nat :=
  if cs ≠ [] ∧ cs.all Char.isDigit then some (digitsValue cs) else none

/-- One optional sign, then at least one digit, and nothing else. -/
def readInt? : List Char → Option Int
  | '-' :: cs => (readNat? cs).map fun n => -(n : Int)
  | '+' :: cs => (readNat? cs).map fun n => (n : Int)
  | cs => (readNat? cs).map fun n => (n : Int)

/-- The least and the greatest 64-bit integer. -/
def int64Min : Int := -9223372036854775808

@[inherit_doc int64Min] def int64Max : Int := 9223372036854775807

/-- `n` is a 64-bit integer. -/
def InInt64 (n : Int) : Prop :=
  int64Min ≤ n ∧ n ≤ int64Max

instance (n : Int) : Decidable (InInt64 n) :=
  inferInstanceAs (Decidable (_ ∧ _))

/-- A 64-bit integer, read after trimming. -/
def readInt64? (s : String) : Option Int :=
  (readInt? (trim s.toList)).filter fun n => InInt64 n

end RowHistory.Text
