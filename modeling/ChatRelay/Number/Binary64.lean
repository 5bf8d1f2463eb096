/-! # Finite binary64 numbers

A finite binary64 number is a sign, a significand below `2^53` and an exponent, and it is kept here
as its 64 bits, so that equal numbers are equal values and `0` and `-0` differ. Arithmetic is exact:
a result is the quotient of two natural numbers, and `ofRatio` takes the binary64 number nearest to
it, of two equally near ones the one with the even significand. A quotient that rounds beyond the
largest finite number has no value.

`readDecimal` is the value of a decimal number in scientific form the way JSON texts are read here:
the significand becomes a binary64 number and is then multiplied or divided by powers of ten that
are themselves binary64 numbers. For short significands and small exponents this is the nearest
number; for long ones it can miss it by a few units in the last place. -/

namespace ChatRelay.Number

/-- A binary64 number, by its bits: the sign in bit 63, the biased exponent in bits 52 to 62, the
fraction below. -/
structure Binary64 where
  bits : UInt64
  deriving DecidableEq, Repr, Inhabited

namespace Binary64

/-- The fraction and the biased exponent. -/
def fields (x : Binary64) : Nat × Nat :=
  (x.bits.toNat % Nat.pow 2 52, x.bits.toNat / Nat.pow 2 52 % Nat.pow 2 11)

/-- The sign. -/
def isNegative (x : Binary64) : Bool := Nat.pow 2 63 ≤ x.bits.toNat

/-- The significand: without the hidden bit if the number is subnormal. -/
def significand (x : Binary64) : Nat :=
  if x.fields.2 = 0 then x.fields.1 else Nat.pow 2 52 + x.fields.1

/-- The exponent of two that the significand is scaled by. -/
def exponent (x : Binary64) : Int := (max x.fields.2 1 : Nat) - 1075

/-- `0` or `-0`. -/
def isZero (x : Binary64) : Bool := x.significand == 0

/-- The number with sign `negative`, significand `m` below `2^53` and exponent `q` at least `-1074`;
a significand below `2^52` goes with the exponent `-1074` only. -/
def pack (negative : Bool) (m : Nat) (q : Int) : Binary64 :=
  let biased := if m < Nat.pow 2 52 then 0 else (q + 1075).toNat
  ⟨UInt64.ofNat
    ((if negative then Nat.pow 2 63 else 0) + biased * Nat.pow 2 52 + m % Nat.pow 2 52)⟩

/-- The number with the other sign. -/
def neg (x : Binary64) : Binary64 := pack (!x.isNegative) x.significand x.exponent

/-- The natural number nearest to `num / den`, of two equally near ones the even one. -/
def nearest (num den : Nat) : Nat :=
  let q := num / den
  let r := num % den
  if 2 * r < den then q else if 2 * r > den then q + 1 else if q % 2 = 0 then q else q + 1

/-- `num / den` in units of `2^q`, as a fraction. -/
def inUnits (num den : Nat) (q : Int) : Nat × Nat :=
  if q < 0 then (num * Nat.pow 2 (-q).toNat, den) else (num, den * Nat.pow 2 q.toNat)

/-- The exponent that brings the significand of `num / den` into `[2^52, 2^53)`, and `-1074` where
that would be smaller. -/
def scaleOf (num den : Nat) : Int :=
  let guess : Int := (Nat.log2 num : Int) - Nat.log2 den - 52
  let (a, b) := inUnits num den guess
  max (if a < Nat.pow 2 52 * b then guess - 1 else guess) (-1074)

/-- The binary64 number nearest to `num / den`, unless it lies beyond the finite ones. -/
def ofRatio (negative : Bool) (num den : Nat) : Option Binary64 :=
  if num = 0 then some (pack negative 0 (-1074))
  else
    let q := scaleOf num den
    let (a, b) := inUnits num den q
    let m := nearest a b
    let (m, q) := if m = Nat.pow 2 53 then (Nat.pow 2 52, q + 1) else (m, q)
    if q > 971 then none else some (pack negative m q)

/-- The magnitude as a fraction. -/
def magnitude (x : Binary64) : Nat × Nat :=
  if x.exponent < 0 then (x.significand, Nat.pow 2 (-x.exponent).toNat)
  else (x.significand * Nat.pow 2 x.exponent.toNat, 1)

/-- The rounded product. -/
def mul (x y : Binary64) : Option Binary64 :=
  let (a, b) := x.magnitude
  let (c, d) := y.magnitude
  ofRatio (x.isNegative != y.isNegative) (a * c) (b * d)

/-- The rounded quotient by a number other than zero. -/
def div (x y : Binary64) : Option Binary64 :=
  let (a, b) := x.magnitude
  let (c, d) := y.magnitude
  ofRatio (x.isNegative != y.isNegative) (a * d) (b * c)

/-- The binary64 number nearest to a natural number. -/
def ofNat (n : Nat) : Option Binary64 := ofRatio false n 1

/-- The whole part of a number, zero for negative ones. -/
def floorNat (x : Binary64) : Nat :=
  if x.isNegative then 0 else let (a, b) := x.magnitude; a / b

/-! ### Decimal numbers -/

/-- `x` scaled by `10^e`. A power of ten above `10^308` has no finite value: beyond it a number
other than zero is out of range, and below it the division is done in steps of `10^308`. `steps`
bounds the number of steps. -/
def scaleTen : (steps : Nat) → (x : Binary64) → (e : Int) → Option Binary64
  | 0, x, _ => some x
  | steps + 1, x, e =>
    if e.natAbs ≤ 308 then
      (ofNat (Nat.pow 10 e.natAbs)).bind fun p => if 0 ≤ e then x.mul p else x.div p
    else if x.isZero then some x
    else if 0 ≤ e then none
    else (ofNat (Nat.pow 10 308)).bind fun p => (x.div p).bind fun y => scaleTen steps y (e + 308)

/-- The number written as `significand · 10^e`, for a significand of at most 64 bits. -/
def readDecimal (negative : Bool) (significand : Nat) (e : Int) : Option Binary64 :=
  (ofNat significand).bind fun m =>
    (scaleTen (e.natAbs / 308 + 1) m e).map fun x => if negative then x.neg else x

end Binary64

end ChatRelay.Number
