/-! # Double precision numbers by their bits

    A number is its 64-bit pattern: one sign bit, eleven exponent bits, 52
    fraction bits.  Classification, comparison and conversion from integers
    are read off the bits in exact integer arithmetic; only addition is left to
    the machine. -/

namespace StructuralMatch

/-- A double precision number, given by its bit pattern. -/
structure Number where
  bits : UInt64
deriving DecidableEq, Inhabited

namespace Number

/-! ## The parts of a number -/

/-- The bit pattern without the sign bit. -/
def magnitudeBits (x : Number) : Nat := x.bits.toNat % Nat.pow 2 63

/-- Whether the sign bit is set. -/
def negative (x : Number) : Bool := decide (Nat.pow 2 63 ≤ x.bits.toNat)

/-- The eleven exponent bits. -/
def exponentBits (x : Number) : Nat := x.magnitudeBits / Nat.pow 2 52

/-- The 52 fraction bits. -/
def fraction (x : Number) : Nat := x.magnitudeBits % Nat.pow 2 52

/-- Not a number, whatever the payload. -/
def isNaN (x : Number) : Bool := x.exponentBits == 2047 && x.fraction != 0

/-- Positive or negative infinity. -/
def isInfinite (x : Number) : Bool := x.exponentBits == 2047 && x.fraction == 0

/-- Positive or negative zero. -/
def isZero (x : Number) : Bool := x.magnitudeBits == 0

/-- The integer `m` of the magnitude `m * 2 ^ scale` of a finite number. -/
def mantissa (x : Number) : Nat :=
  if x.exponentBits = 0 then x.fraction else Nat.pow 2 52 + x.fraction

/-- The exponent of the magnitude `mantissa * 2 ^ scale` of a finite number. -/
def scale (x : Number) : Int :=
  if x.exponentBits = 0 then -1074 else (x.exponentBits : Int) - 1075

/-! ## Comparison -/

/-- The same value: every NaN is the same as every NaN, and otherwise the bits
    decide, so that the two zeros differ. -/
def same (x y : Number) : Bool := (x.isNaN && y.isNaN) || x == y

/-- A place on the number line: equal for the two zeros, and otherwise in the
    order of the numbers. -/
def rank (x : Number) : Int :=
  if x.negative then -(x.magnitudeBits : Int) else x.magnitudeBits

/-- Numerical comparison; NaN is below nothing and above nothing. -/
def lt (x y : Number) : Bool := !x.isNaN && !y.isNaN && decide (x.rank < y.rank)

/-! ## Integers -/

/-- Assemble a number from its sign and the remaining 63 bits. -/
def ofMagnitudeBits (negative : Bool) (m : Nat) : Number :=
  ⟨UInt64.ofNat ((if negative then Nat.pow 2 63 else 0) + m)⟩

/-- The number without its sign. -/
def abs (x : Number) : Number := ofMagnitudeBits false x.magnitudeBits

/-- The 63 bits of a positive integer, rounded to the nearest number and to the
    even neighbour from half way. -/
def natMagnitudeBits (n : Nat) : Nat :=
  let top := n.log2
  if top ≤ 52 then
    -- the leading bit of the shifted integer adds the last unit of the exponent
    (top + 1022) * Nat.pow 2 52 + n * Nat.pow 2 (52 - top)
  else
    let unit := Nat.pow 2 (top - 52)
    let q := n / unit
    let r := n % unit
    let up := decide (unit < 2 * r) || (decide (2 * r = unit) && q % 2 == 1)
    -- rounding up may carry into the exponent, at most as far as infinity
    min ((top + 1022) * Nat.pow 2 52 + q + (if up then 1 else 0)) (2047 * Nat.pow 2 52)

/-- The number nearest to an integer; exact up to `2 ^ 53` in magnitude. -/
def ofInt (n : Int) : Number :=
  if n = 0 then ⟨0⟩
  else ofMagnitudeBits (decide (n < 0)) (natMagnitudeBits n.natAbs)

/-- The number nearest to a natural number. -/
def ofNat (n : Nat) : Number := ofInt n

/-- The integer a number stands for, unless it is a fraction, infinite or NaN. -/
def toInt? (x : Number) : Option Int :=
  if x.exponentBits = 2047 then none
  else
    let magnitude : Option Nat :=
      if 0 ≤ x.scale then some (x.mantissa * Nat.pow 2 x.scale.toNat)
      else
        let unit := Nat.pow 2 (-x.scale).toNat
        if x.mantissa % unit = 0 then some (x.mantissa / unit) else none
    magnitude.map fun m => if x.negative then -(m : Int) else m

/-! ## Addition -/

/-- The floating point sum. -/
def add (x y : Number) : Number :=
  ⟨(Float.ofBits x.bits + Float.ofBits y.bits).toBits⟩

/-- The floating point sum of a list, starting from zero and from the left. -/
def sum (xs : List Number) : Number := xs.foldl add ⟨0⟩

end Number

end StructuralMatch
