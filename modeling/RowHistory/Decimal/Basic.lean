import RowHistory.Text.Numeral
import RowHistory.Binary.Printer

/-!
# Fixed-point decimals

A decimal is a signed 128-bit mantissa and a base-ten scale of at most 28; it stands for
`mantissa / 10 ^ scale`. This file fixes

* the type with its two bounds (`Decimal`) and the causes for which none is made (`Decimal.Error`);
* operations of 128-bit integers: those that report an overflow (`checked`) and those that wrap
  (`wrap`, `wrapUnsigned`);
* the change of scale: exact when it widens, half away from zero when it narrows (`rescale`);
* numeric equality (`same`), the text with exactly `scale` fraction digits (`text`), and the
  nearest double (`toDouble`).
-/

namespace RowHistory

/-- The largest scale. -/
def Decimal.maxScale : Nat := 28

/-- `n` is a signed 128-bit integer. -/
def Decimal.Fits (n : Int) : Prop :=
  -(2 ^ 127 : Int) ≤ n ∧ n < (2 ^ 127 : Int)

instance (n : Int) : Decidable (Decimal.Fits n) :=
  inferInstanceAs (Decidable (_ ∧ _))

/-- The number `mantissa / 10 ^ scale`. -/
structure Decimal where
  mantissa : Int
  scale : Nat
  mantissa_fits : Decimal.Fits mantissa
  scale_le : scale ≤ Decimal.maxScale
deriving DecidableEq

namespace Decimal

/-- Why a decimal could not be made. -/
inductive Error where
  /-- The text is no decimal literal. -/
  | invalid (literal : String)
  /-- The mantissa would not fit. -/
  | overflow
  /-- The scale is above the maximum. -/
  | scaleTooLarge (scale : Nat)
  /-- An infinity or NaN has no decimal. -/
  | nonFinite
deriving DecidableEq, Repr

/-- The wording of a cause. -/
def Error.message : Error → String
  | .invalid literal => s!"invalid decimal literal: '{literal}'"
  | .overflow => "decimal overflow"
  | .scaleTooLarge scale => s!"decimal scale {scale} exceeds maximum of {maxScale}"
  | .nonFinite => "non-finite float cannot be represented as a decimal"

/-- The decimal with a given mantissa and scale. -/
def ofParts (mantissa : Int) (scale : Nat) : Except Error Decimal :=
  if hs : scale ≤ maxScale then
    if hm : Fits mantissa then .ok ⟨mantissa, scale, hm, hs⟩ else .error .overflow
  else .error (.scaleTooLarge scale)

/-- The result of an operation that reports an overflow. -/
def checked (n : Int) : Except Error Int :=
  if Fits n then .ok n else .error .overflow

/-- The result of an operation that wraps: the signed 128-bit integer with the bits of `n`. -/
def wrap (n : Int) : Int :=
  n.bmod (2 ^ 128)

/-- The same for unsigned integers. -/
def wrapUnsigned (n : Nat) : Nat :=
  n % 2 ^ 128

theorem fits_wrap (n : Int) : Fits (wrap n) := by
  have hlow := Int.le_bmod (x := n) (m := 2 ^ 128) (by decide)
  have hhigh := Int.bmod_lt (x := n) (m := 2 ^ 128) (by decide)
  unfold Fits wrap
  omega

/-- A power of ten. -/
def tenPower (exponent : Nat) : Except Error Int :=
  checked (10 ^ exponent)

/-- `m / factor` rounded to a whole number, a half going away from zero: the quotient towards zero,
and one more if the remainder, doubled, reaches the factor. -/
def narrowed (m factor : Int) : Int :=
  let quotient := wrap (m.tdiv factor)
  let remainder := wrap (m.tmod factor)
  if factor.natAbs ≤ wrapUnsigned (remainder.natAbs * 2) then wrap (quotient + m.sign) else quotient

theorem fits_narrowed (m factor : Int) : Fits (narrowed m factor) := by
  unfold narrowed
  dsimp only
  split <;> exact fits_wrap _

/-- The same number at another scale. -/
def rescale (x : Decimal) (scale : Nat) : Except Error Decimal :=
  if h : scale ≤ maxScale then
    if scale = x.scale then .ok x
    else if x.scale < scale then do
      let factor ← tenPower (scale - x.scale)
      ofParts (x.mantissa * factor) scale
    else do
      let factor ← tenPower (x.scale - scale)
      .ok ⟨narrowed x.mantissa factor, scale, fits_narrowed _ _, h⟩
  else .error (.scaleTooLarge scale)

/-- Numeric equality: both mantissas agree at the larger scale. -/
def same (x y : Decimal) : Bool :=
  match x.rescale (max x.scale y.scale), y.rescale (max x.scale y.scale) with
  | .ok a, .ok b => a.mantissa = b.mantissa
  | _, _ => false

/-- The characters of the number: a sign if it is negative, the whole part, and `scale` fraction
digits after a point. -/
def chars (x : Decimal) : List Char :=
  let magnitude := x.mantissa.natAbs
  let divisor := wrapUnsigned (10 ^ x.scale)
  let body :=
    if x.scale = 0 then Text.digits magnitude
    else Text.digits (magnitude / divisor) ++ '.' :: Text.padded x.scale (magnitude % divisor)
  if x.mantissa < 0 then '-' :: body else body

/-- The text of the number. -/
def text (x : Decimal) : String :=
  String.ofList x.chars

/-- The double nearest to the mantissa, divided by the power of ten. -/
def toDouble (x : Decimal) : Double :=
  (Double.ofInt x.mantissa).div (Double.powerOfTen x.scale)

/-- The number for a reader's eye. -/
def inspect (x : Decimal) : String :=
  s!"Decimal \x7b mantissa: {x.mantissa}, scale: {x.scale} \x7d"

end Decimal

end RowHistory
