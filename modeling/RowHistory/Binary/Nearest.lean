import RowHistory.Binary.Basic

/-!
# Rounding to the nearest double

Every operation on doubles is exact arithmetic on quotients followed by one rounding. This file
fixes that rounding:

* `halfEven n d` is the whole number nearest to `n / d`, a half going to the even neighbour;
* `Format.nearest f n d` is the pattern of the value of format `f` nearest to `n / d`, an
  overflow being infinity;
* integers, products, quotients, decimals and widened singles are roundings of exact quotients.
-/

namespace RowHistory.Binary

/-- The whole number nearest to `n / d`, a half going to the even neighbour. -/
def halfEven (n d : Nat) : Nat :=
  let q := n / d
  let r := n % d
  if 2 * r < d then q else if d < 2 * r then q + 1 else q + q % 2

/-- `n / d * 2 ^ e` as a quotient of whole numbers. -/
def shifted (n d : Nat) (e : Int) : Nat × Nat :=
  if 0 ≤ e then (n * 2 ^ e.toNat, d) else (n, d * 2 ^ (-e).toNat)

/-- The exponent of the greatest power of two that is at most `n / d`, for positive `n`, `d`. -/
def floorLog2 (n d : Nat) : Int :=
  let l : Int := (Nat.log2 n : Int) - Nat.log2 d
  let (n', d') := shifted n d (-l)
  if d' ≤ n' then l else l - 1

/-- The pattern of the magnitude nearest to `n / d`. The pattern of a value grows with the value,
so a carry out of the fraction runs into the exponent field, and what passes the greatest finite
value is infinity. -/
def Format.nearest (f : Format) (n d : Nat) : Nat :=
  if n = 0 then 0
  else
    let q := max f.leastExponent (floorLog2 n d - f.fractionBits)
    let (n', d') := shifted n d (-q)
    let m := halfEven n' d'
    min f.infinityBits (if m < 2 ^ f.fractionBits then m
      else (q - f.leastExponent).toNat * 2 ^ f.fractionBits + m)

end RowHistory.Binary

namespace RowHistory.Double

open Binary

/-- The double nearest to `n / d`, with a sign. -/
def ofRatio (negative : Bool) (n d : Nat) : Double :=
  ofMagnitude negative (double.nearest n d)

/-- The double nearest to `m * 2 ^ q`, with a sign. -/
def ofScaled (negative : Bool) (m : Nat) (q : Int) : Double :=
  let (n, d) := shifted m 1 q
  ofRatio negative n d

/-- The double nearest to an integer. -/
def ofInt (n : Int) : Double :=
  ofRatio (decide (n < 0)) n.natAbs 1

/-- The double nearest to `digits * 10 ^ exponent`. Magnitudes far outside the format are
infinity or zero without computing the power. -/
def ofDecimal (negative : Bool) (digits : Nat) (exponent : Int) : Double :=
  let size : Int := (Nat.toDigits 10 digits).length + exponent
  if digits = 0 ∨ size < -400 then ofMagnitude negative 0
  else if 400 < size then infinity negative
  else if 0 ≤ exponent then ofRatio negative (digits * 10 ^ exponent.toNat) 1
  else ofRatio negative digits (10 ^ (-exponent).toNat)

/-- The rounded product. -/
def mul (x y : Double) : Double :=
  match x.reading, y.reading with
  | .nan, _ | _, .nan => nan
  | .infinite s, .infinite t => infinity (s != t)
  | .infinite s, .finite t m _ | .finite t m _, .infinite s => if m = 0 then nan else infinity (s != t)
  | .finite s m q, .finite t n r => ofScaled (s != t) (m * n) (q + r)

/-- The rounded quotient. -/
def div (x y : Double) : Double :=
  match x.reading, y.reading with
  | .nan, _ | _, .nan | .infinite _, .infinite _ => nan
  | .infinite s, .finite t .. => infinity (s != t)
  | .finite s .., .infinite t => ofMagnitude (s != t) 0
  | .finite s m q, .finite t n r =>
    if n = 0 then (if m = 0 then nan else infinity (s != t))
    else
      let (a, b) := shifted m n (q - r)
      ofRatio (s != t) a b

/-- Ten to a power below `2 ^ 32`, by repeated squaring in doubles. -/
def powerOfTen (exponent : Nat) : Double :=
  go 32 exponent (ofInt 1) (ofInt 10)
where
  go : Nat → Nat → Double → Double → Double
    | 0, _, result, _ => result
    | fuel + 1, e, result, base =>
      let result := if e % 2 = 1 then result.mul base else result
      if e / 2 = 0 then result else go fuel (e / 2) result (base.mul base)

end RowHistory.Double

namespace RowHistory.Single

/-- The double with the same value. -/
def widen (x : Single) : Double :=
  match x.reading with
  | .nan => Double.nan
  | .infinite s => Double.infinity s
  | .finite s m q => Double.ofScaled s m q

end RowHistory.Single
