import StructuralMatch.Number

/-! # The fewest decimal digits that read back

    A positive finite number owns the interval of reals that round to it: half
    way to either neighbour, the ends included when its mantissa is even.  For
    one digit, two digits and so on, the two neighbours of the number on that
    decimal grid are tested against the interval in exact integer arithmetic.
    The first grid with a hit wins; of two hits the nearer one, and of two
    equally near the larger. -/

namespace StructuralMatch

/-- The decimal `coefficient * 10 ^ exponent`. -/
structure Decimal where
  coefficient : Nat
  exponent : Int
deriving DecidableEq, Inhabited

namespace Decimal

/-- The decimal digits of the coefficient, most significant first. -/
def digits (d : Decimal) : List Char := Nat.toDigits 10 d.coefficient

/-- The position `n` of the point when the decimal is written `0.d₁d₂… * 10 ^ n`. -/
def point (d : Decimal) : Int := d.exponent + d.digits.length

/-- Move trailing zeros of the coefficient into the exponent, at most `fuel` of them. -/
def stripZeros : Nat → Decimal → Decimal
  | 0, d => d
  | fuel + 1, d =>
      if d.coefficient ≠ 0 ∧ d.coefficient % 10 = 0 then
        stripZeros fuel ⟨d.coefficient / 10, d.exponent + 1⟩
      else d

end Decimal

namespace Number

/-- The number and the interval that rounds to it, as multiples of one unit:
    the fraction `value / den` is the magnitude, and the same for both ends. -/
structure Interval where
  low : Nat
  value : Nat
  high : Nat
  den : Nat
  closed : Bool
deriving DecidableEq

/-- The interval of reals that round to a positive finite number. -/
def interval (x : Number) : Interval :=
  let m := x.mantissa
  let up := Nat.pow 2 (x.scale - 2).toNat
  -- just above a power of two the lower neighbour is half as far away
  let below := if x.fraction = 0 ∧ 1 < x.exponentBits then 1 else 2
  { low := (4 * m - below) * up
    value := 4 * m * up
    high := (4 * m + 2) * up
    den := Nat.pow 2 (2 - x.scale).toNat
    closed := m % 2 == 0 }

namespace Interval

/-- Whether the decimal `c * 10 ^ p` lies in the interval. -/
def contains (i : Interval) (c : Nat) (p : Int) : Bool :=
  let scaled := c * Nat.pow 10 p.toNat * i.den
  let unit := Nat.pow 10 (-p).toNat
  if i.closed then
    decide (i.low * unit ≤ scaled) && decide (scaled ≤ i.high * unit)
  else
    decide (i.low * unit < scaled) && decide (scaled < i.high * unit)

/-- The largest multiple of `10 ^ p` that does not exceed the value. -/
def floorAt (i : Interval) (p : Int) : Nat :=
  i.value * Nat.pow 10 (-p).toNat / (i.den * Nat.pow 10 p.toNat)

/-- Whether the value lies strictly nearer to `c * 10 ^ p` than to the next multiple. -/
def nearerToFloor (i : Interval) (c : Nat) (p : Int) : Bool :=
  decide (2 * (i.value * Nat.pow 10 (-p).toNat) < (2 * c + 1) * (i.den * Nat.pow 10 p.toNat))

/-- The exponent `e` with `10 ^ e ≤ value / den < 10 ^ (e + 1)`. -/
def magnitude (i : Interval) : Int :=
  if i.den ≤ i.value then
    ((Nat.toDigits 10 (i.value / i.den)).length : Int) - 1
  else
    let reaches (e : Nat) : Bool := decide (i.den ≤ i.value * Nat.pow 10 e)
    Int.neg (((List.range 400).find? reaches).getD 400)

/-- The better neighbour of the value on the grid `10 ^ p`, if one is in the interval. -/
def onGrid? (i : Interval) (p : Int) : Option Decimal :=
  let c := i.floorAt p
  match i.contains c p, i.contains (c + 1) p with
  | true, true => some (if i.nearerToFloor c p then ⟨c, p⟩ else ⟨c + 1, p⟩)
  | true, false => some ⟨c, p⟩
  | false, true => some ⟨c + 1, p⟩
  | false, false => none

end Interval

/-- The shortest decimal that rounds to a positive finite number; seventeen
    digits always suffice. -/
def shortest (x : Number) : Decimal :=
  let i := x.interval
  let top := i.magnitude
  let found := (List.range 17).findSome? fun k => i.onGrid? (top - (k : Nat))
  (found.getD ⟨i.floorAt (top - 16), top - 16⟩).stripZeros 17

end Number

end StructuralMatch
