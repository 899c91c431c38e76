import RowHistory.Text.Numeral
import RowHistory.Binary.Nearest

/-!
# Reading floating-point numbers

The decimal numerals shared by every place that reads a number:

* `Numeral.span?` takes `digits[.digits][e[sign]digits]` off the front of a text, with at least
  one digit before the exponent;
* `Numeral.toDouble` rounds such a numeral to the nearest double;
* `readDouble?` reads a whole text after trimming, with a sign and the names of the infinities
  and of NaN in any case.
-/

namespace RowHistory

/-- An unsigned decimal numeral: its digits, how many of them follow the point, and its
exponent. -/
structure Numeral where
  whole : List Char
  fraction : List Char
  exponent : Int
  /-- There was a point or an exponent, so the numeral is no plain integer. -/
  isReal : Bool
deriving DecidableEq, Repr

namespace Numeral

open Text

/-- An exponent mark with its digits, if one follows; a mark without digits is left alone. -/
def spanExponent (cs : List Char) : Option (Int × List Char) :=
  match cs with
  | c :: rest =>
    if c = 'e' ∨ c = 'E' then
      let (negative, rest) := match rest with
        | '-' :: r => (true, r)
        | '+' :: r => (false, r)
        | r => (false, r)
      let (ds, after) := spanDigits rest
      if ds = [] then none
      else some (if negative then -(digitsValue ds : Int) else digitsValue ds, after)
    else none
  | [] => none

/-- A numeral in front of a text, and the rest. -/
def span? (cs : List Char) : Option (Numeral × List Char) :=
  let (whole, rest) := spanDigits cs
  let (fraction, point, rest) := match rest with
    | '.' :: r =>
      let (ds, after) := spanDigits r
      (ds, true, after)
    | r => ([], false, r)
  if whole = [] ∧ fraction = [] then none
  else match spanExponent rest with
    | some (e, after) => some (⟨whole, fraction, e, true⟩, after)
    | none => some (⟨whole, fraction, 0, point⟩, rest)

/-- All digits as one number. -/
def digits (n : Numeral) : Nat :=
  digitsValue (n.whole ++ n.fraction)

/-- The nearest double. -/
def toDouble (n : Numeral) (negative : Bool) : Double :=
  Double.ofDecimal negative n.digits (n.exponent - n.fraction.length)

end Numeral

/-- One optional sign in front of a text. -/
def spanSign : List Char → Bool × List Char
  | '-' :: cs => (true, cs)
  | '+' :: cs => (false, cs)
  | cs => (false, cs)

/-- A floating-point number, read after trimming. -/
def readDouble? (s : String) : Option Double :=
  let (negative, cs) := spanSign (Text.trim s.toList)
  let word := String.ofList (cs.map Char.toLower)
  if word = "inf" ∨ word = "infinity" then some (Double.infinity negative)
  else if word = "nan" then some Double.nan
  else match Numeral.span? cs with
    | some (n, []) => some (n.toDouble negative)
    | _ => none

end RowHistory
