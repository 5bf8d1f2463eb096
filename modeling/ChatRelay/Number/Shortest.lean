import ChatRelay.Number.Binary64

/-! # The shortest decimal of a binary64 number

A binary64 number `x > 0` is the nearest one to every real in an interval around it, ends included
iff its significand is even. Among the decimals of `n` digits, `decimal? n` takes the two neighbours
of `x` and keeps the nearer one that lies in the interval; `shortest` is the first hit for
`n = 1, 2, …, 17`. So no decimal with fewer digits reads back as `x`, and of those with as many none
is nearer.

`Layout` holds what is left to a text format: which magnitudes are written with a decimal point
only, and how an exponent looks. -/

namespace ChatRelay.Number

/-- The decimal `digits · 10^power`. -/
structure Decimal where
  digits : Nat
  power : Int
  deriving DecidableEq, Repr

namespace Binary64

/-- The reals that round to a positive number, in quarters of its unit: below, itself, above. A
power of two has a nearer neighbour below. -/
def quarters (x : Binary64) : Nat × Nat × Nat :=
  let m := x.significand
  let low := if m = Nat.pow 2 52 ∧ x.fields.2 > 1 then 1 else 2
  (4 * m - low, 4 * m, 4 * m + 2)

/-- `a · 2^q` and `b · 10^p` as natural numbers over one denominator. -/
def common (a : Nat) (q : Int) (b : Nat) (p : Int) : Nat × Nat :=
  (a * Nat.pow 2 q.toNat * Nat.pow 10 (-p).toNat,
    b * Nat.pow 10 p.toNat * Nat.pow 2 (-q).toNat)

/-- The largest `k` with `10^k ≤ x`. -/
def log10 (x : Binary64) : Int :=
  let (num, den) := x.magnitude
  if den ≤ num then (Nat.toDigits 10 (num / den)).length - 1
  else -(((List.range 400).find? fun j => den ≤ num * Nat.pow 10 j).getD 0 : Nat)

/-- The decimal of at most `n` digits that is nearest to `x`, if it rounds to `x`. Of two equally
near ones the even one is taken. -/
def decimal? (x : Binary64) (n : Nat) : Option Decimal :=
  let p := x.log10 - n + 1
  let q := x.exponent - 2
  let (low, mid, high) := x.quarters
  let (v, unit) := common mid q 1 p
  let floor := v / unit
  let inside (d : Nat) : Bool :=
    let (l, dl) := common low q d p
    let (h, dh) := common high q d p
    if x.significand % 2 = 0 then l ≤ dl && dh ≤ h else l < dl && dh < h
  let r := v % unit
  let upFirst := 2 * r > unit ∨ (2 * r = unit ∧ floor % 2 = 1)
  let order := if upFirst then [floor + 1, floor] else [floor, floor + 1]
  (order.find? inside).map (⟨·, p⟩)

/-- A decimal without zeros at the end of its digits; `steps` bounds their number. -/
def Decimal.strip : (steps : Nat) → Decimal → Decimal
  | 0, d => d
  | steps + 1, d =>
    if d.digits % 10 = 0 ∧ d.digits ≠ 0 then strip steps ⟨d.digits / 10, d.power + 1⟩ else d

/-- The shortest decimal that reads back as the positive number `x`. -/
def shortest (x : Binary64) : Decimal :=
  Decimal.strip 20 (((List.range 17).findSome? fun i => x.decimal? (i + 1)).getD ⟨0, 0⟩)

end Binary64

/-! ### Layout -/

/-- What a text format decides about the digits of a number. -/
structure Layout where
  /-- The least and the greatest `k` for which a number in `[10^k, 10^(k+1))` has no exponent. -/
  least : Int
  greatest : Int
  /-- The sign of an exponent that is not negative. -/
  plus : String

/-- The digits of a natural number. -/
def digitChars (n : Nat) : List Char := Nat.toDigits 10 n

/-- The text of a positive decimal. -/
def Layout.decimal (l : Layout) (d : Decimal) : String :=
  let ds := digitChars d.digits
  let k := (ds.length : Int) - 1 + d.power
  if l.least ≤ k ∧ k ≤ l.greatest then
    if k < 0 then "0." ++ String.ofList (List.replicate (-k - 1).toNat '0' ++ ds)
    else
      let whole := ds.take (k.toNat + 1)
      let rest := ds.drop (k.toNat + 1)
      String.ofList (whole ++ List.replicate (k.toNat + 1 - whole.length) '0') ++ "."
        ++ (if rest.isEmpty then "0" else String.ofList rest)
  else
    let tail := if ds.length ≤ 1 then "" else "." ++ String.ofList (ds.drop 1)
    String.ofList (ds.take 1) ++ tail ++ "e" ++ (if k < 0 then "-" else l.plus)
      ++ String.ofList (digitChars k.natAbs)

/-- The text of a number: a sign, and the shortest decimal of its magnitude. -/
def Layout.text (l : Layout) (x : Binary64) : String :=
  (if x.isNegative then "-" else "") ++ (if x.isZero then "0.0" else l.decimal x.shortest)

end ChatRelay.Number
