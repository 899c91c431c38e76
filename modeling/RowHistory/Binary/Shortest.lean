import RowHistory.Binary.Basic

/-!
# The fewest digits that read back

The decimal written for a floating-point number is the shortest one that rounds to it, and of the
shortest ones the nearest. This file fixes

* the interval of reals that round to a magnitude `m * 2 ^ q`, in quarters of its last place
  (`Interval`), ends included exactly when `m` is even;
* the decimal grid of a given number of digits, on which the two neighbours of the value are
  tried (`candidate?`), and which of them is taken if both are equally near (`Tie`);
* the first grid with a neighbour inside the interval (`shortest`).

A decimal is `digits * 10 ^ exponent`, without a trailing zero unless it is zero (`Digits`).
-/

namespace RowHistory.Binary

/-- A decimal magnitude `value * 10 ^ exponent`. -/
structure Digits where
  value : Nat
  exponent : Int
deriving DecidableEq, Repr

namespace Digits

/-- Zeros at the end moved into the exponent, at most `fuel` of them. -/
def strip : Nat → Digits → Digits
  | 0, d => d
  | fuel + 1, d =>
    if d.value ≠ 0 ∧ d.value % 10 = 0 then strip fuel ⟨d.value / 10, d.exponent + 1⟩ else d

/-- The same magnitude without zeros at the end. -/
def normal (d : Digits) : Digits :=
  strip (Nat.toDigits 10 d.value).length d

/-- The digits as text. -/
def text (d : Digits) : List Char :=
  Nat.toDigits 10 d.value

/-- The exponent of the leading digit. -/
def leading (d : Digits) : Int :=
  d.text.length - 1 + d.exponent

end Digits

/-- The reals that round to a value: the value and the two ends are the numerators over one
denominator. -/
structure Interval where
  low : Nat
  value : Nat
  high : Nat
  denominator : Nat
  closed : Bool

/-- The interval of `m * 2 ^ q`. The gap below a power of two is half the gap above it, unless
the exponent is the least. -/
def Format.interval (f : Format) (m : Nat) (q : Int) : Interval :=
  let below := if m = 2 ^ f.fractionBits ∧ f.leastExponent < q then 1 else 2
  let scale := 2 ^ (q - 2).toNat
  { low := (4 * m - below) * scale
    value := 4 * m * scale
    high := (4 * m + 2) * scale
    denominator := 2 ^ (2 - q).toNat
    closed := m % 2 = 0 }

/-- `x` lies in the interval, for `x = n * 10 ^ e`. -/
def Interval.holds (i : Interval) (n : Nat) (e : Int) : Bool :=
  let x := n * 10 ^ e.toNat * i.denominator
  let unit := 10 ^ (-e).toNat
  if i.closed then i.low * unit ≤ x && x ≤ i.high * unit
  else i.low * unit < x && x < i.high * unit

/-- The number of digits before the point of `n / d`, negative if zeros follow the point: the
least `k` with `n / d < 10 ^ k`, for positive `n` and `d`. -/
def integerDigits (n d : Nat) : Int :=
  if d ≤ n then (Nat.toDigits 10 (n / d)).length
  else
    let zeros := (Nat.toDigits 10 (d / n)).length
    if n * 10 ^ (zeros - 1) < d then 1 - (zeros : Int) else 2 - (zeros : Int)

/-- Which of two neighbours is taken that are equally near. -/
inductive Tie where
  /-- The greater one. -/
  | up
  /-- The one whose last digit is even. -/
  | even
deriving DecidableEq, Repr

/-- The neighbour above `below` is taken. -/
def Tie.raises (tie : Tie) (below : Nat) : Bool :=
  match tie with
  | .up => true
  | .even => below % 2 = 1

/-- The neighbour of the value on the grid of `count` digits that lies in the interval, the
nearer one if both do. -/
def Interval.candidate? (i : Interval) (tie : Tie) (k : Int) (count : Nat) : Option Digits :=
  let e := k - count
  let unit := 10 ^ e.toNat * i.denominator
  let scaled := i.value * 10 ^ (-e).toNat
  let below := scaled / unit
  let down := i.holds below e
  let up := i.holds (below + 1) e
  if down && up then
    let rest := 2 * (scaled % unit)
    some (if rest < unit || rest = unit && !tie.raises below then ⟨below, e⟩ else ⟨below + 1, e⟩)
  else if down then some ⟨below, e⟩
  else if up then some ⟨below + 1, e⟩
  else none

/-- The shortest decimal that rounds to the positive magnitude `m * 2 ^ q`, and the nearest of
those. Seventeen digits always tell two doubles apart. -/
def Format.shortest (f : Format) (tie : Tie) (m : Nat) (q : Int) : Digits :=
  let i := f.interval m q
  let k := integerDigits i.value i.denominator
  match (List.range 17).findSome? fun n => i.candidate? tie k (n + 1) with
  | some d => d.normal
  | none => ⟨0, 0⟩

/-- The magnitude `m * 2 ^ q` rounded to `count` digits, a half going up. -/
def roundedDigits (count m : Nat) (q : Int) : Digits :=
  if m = 0 then ⟨0, 0⟩
  else
    let n := m * 2 ^ q.toNat
    let d := 2 ^ (-q).toNat
    let e := integerDigits n d - count
    let unit := 10 ^ e.toNat * d
    let scaled := n * 10 ^ (-e).toNat
    Digits.normal ⟨(2 * scaled + unit) / (2 * unit), e⟩

end RowHistory.Binary
