import RowHistory.Text.Numeral

/-!
# Binary floating point, bit by bit

A floating-point number is its bit pattern. This file fixes how a pattern is read:

* `Format` gives the widths of a binary interchange format; `double` and `single` are the two in
  use;
* `Format.read` says what a pattern stands for: not a number, an infinity, or a sign with a
  magnitude `m * 2 ^ q`;
* a finite value of a format is a whole number of the format's least units (`Reading.units`), so
  order, equality and spacing are integer arithmetic.

`Double` and `Single` carry their patterns as machine words, and a `Single` widens exactly.
-/

namespace RowHistory.Binary

/-- The widths of the two fields of a bit pattern below its sign. -/
structure Format where
  fractionBits : Nat
  exponentBits : Nat
deriving DecidableEq, Repr

/-- The 64-bit format. -/
def double : Format := ⟨52, 11⟩

/-- The 32-bit format. -/
def single : Format := ⟨23, 8⟩

namespace Format

/-- The pattern of positive infinity: an exponent field of ones and no fraction. -/
def infinityBits (f : Format) : Nat :=
  (2 ^ f.exponentBits - 1) * 2 ^ f.fractionBits

/-- The place of the sign bit. -/
def signBit (f : Format) : Nat :=
  2 ^ (f.fractionBits + f.exponentBits)

/-- The exponent of the least unit: every finite value is a multiple of two to this power. -/
def leastExponent (f : Format) : Int :=
  2 - (2 : Int) ^ (f.exponentBits - 1) - f.fractionBits

end Format

/-- What a bit pattern stands for. -/
inductive Reading where
  /-- No number. -/
  | nan
  /-- An infinity, with its sign. -/
  | infinite (negative : Bool)
  /-- The magnitude `m * 2 ^ q` with its sign; zero has a sign too. -/
  | finite (negative : Bool) (m : Nat) (q : Int)
deriving DecidableEq, Repr

/-- The reading of a bit pattern. A zero exponent field means a fraction without the leading
one, at the same exponent as the field one. -/
def Format.read (f : Format) (bits : Nat) : Reading :=
  let negative := bits / f.signBit % 2 = 1
  let magnitude := bits % f.signBit
  let field := magnitude / 2 ^ f.fractionBits
  let fraction := magnitude % 2 ^ f.fractionBits
  if magnitude > f.infinityBits then .nan
  else if magnitude = f.infinityBits then .infinite negative
  else if field = 0 then .finite negative fraction f.leastExponent
  else .finite negative (2 ^ f.fractionBits + fraction) (field - 1 + f.leastExponent)

/-- A finite magnitude `m * 2 ^ q` as a count of the 64-bit format's least units. -/
def unitCount (m : Nat) (q : Int) : Nat :=
  m * 2 ^ (q - double.leastExponent).toNat

/-- Numeric order on readings; an order with NaN is no order. -/
def Reading.compare? : Reading → Reading → Option Ordering
  | .nan, _ => none
  | _, .nan => none
  | .infinite s, .infinite t => some (if s = t then .eq else if s then .lt else .gt)
  | .infinite s, .finite .. => some (if s then .lt else .gt)
  | .finite .., .infinite t => some (if t then .gt else .lt)
  | .finite s m q, .finite t n r =>
    let a : Int := if s then -(unitCount m q : Int) else unitCount m q
    let b : Int := if t then -(unitCount n r : Int) else unitCount n r
    some (compare a b)

end RowHistory.Binary

namespace RowHistory

/-- A 64-bit floating-point number. -/
structure Double where
  bits : UInt64
deriving DecidableEq, Repr, Inhabited

/-- A 32-bit floating-point number. -/
structure Single where
  bits : UInt32
deriving DecidableEq, Repr, Inhabited

namespace Double

open Binary

/-- What the number is. -/
def reading (x : Double) : Reading :=
  double.read x.bits.toNat

/-- The number with a given bit pattern. -/
def ofBits (bits : Nat) : Double :=
  ⟨UInt64.ofNat bits⟩

/-- The number whose magnitude has the given pattern. -/
def ofMagnitude (negative : Bool) (magnitude : Nat) : Double :=
  ofBits (if negative then double.signBit + magnitude else magnitude)

/-- The quiet NaN. -/
def nan : Double := ⟨0x7ff8000000000000⟩

/-- An infinity. -/
def infinity (negative : Bool) : Double :=
  ofMagnitude negative double.infinityBits

/-- Zero without a sign. -/
def zero : Double := ⟨0⟩

def isNaN (x : Double) : Bool :=
  x.reading = .nan

/-- Neither NaN nor an infinity. -/
def isFinite (x : Double) : Bool :=
  match x.reading with
  | .finite .. => true
  | _ => false

/-- Numeric equality: the two zeros are equal, and NaN is equal to nothing. -/
def same (x y : Double) : Bool :=
  x.reading.compare? y.reading = some .eq

end Double

namespace Single

open Binary

/-- What the number is. -/
def reading (x : Single) : Reading :=
  single.read x.bits.toNat

/-- Numeric equality. -/
def same (x y : Single) : Bool :=
  x.reading.compare? y.reading = some .eq

end Single

end RowHistory
