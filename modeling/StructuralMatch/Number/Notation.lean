import StructuralMatch.Number.Shortest

/-! # Writing numbers

    Two written forms share the shortest digits and differ in layout only.  The
    plain form is the one a program reads when it turns a number into text; the
    precise form always shows that the number is not an integer type and
    tells the two zeros apart.  Each is one `Notation` value. -/

namespace StructuralMatch

/-- The layout decisions of a written form. -/
structure Notation where
  /-- Least magnitude that is written without an exponent. -/
  least : Number
  /-- Least magnitude above it that is written with an exponent again. -/
  limit : Number
  /-- Integers written without an exponent end in `.0`. -/
  pointZero : Bool
  /-- Positive exponents carry a plus sign. -/
  plus : Bool
  /-- The zero with the sign bit keeps its sign. -/
  signedZero : Bool
  /-- How the positive infinity is written. -/
  infinity : String

/-- Plain text: `[1e-6, 1e21)` positionally, `1e+21` and `1.5e-7` outside. -/
def Notation.plain : Notation :=
  ⟨⟨0x3EB0C6F7A0B5ED8D⟩, ⟨0x444B1AE4D6E2EF50⟩, false, true, false, "Infinity"⟩

/-- Precise text: `[1e-4, 1e16)` positionally with a point, `1e16` and `1.5e-5` outside. -/
def Notation.precise : Notation :=
  ⟨⟨0x3F1A36E2EB1C432D⟩, ⟨0x4341C37937E08000⟩, true, false, true, "inf"⟩

/-- Whether a number is written without an exponent, by its magnitude. -/
def Notation.isPositional (f : Notation) (x : Number) : Bool :=
  !x.abs.lt f.least && x.abs.lt f.limit

namespace Decimal

/-- The digits with the point after the first `n` of them, padded with zeros on
    either side where there are too few. -/
def positional (d : Decimal) (pointZero : Bool) : String :=
  let n := d.point
  let k := d.digits.length
  if (k : Int) ≤ n then
    String.ofList (d.digits ++ List.replicate (n - k).toNat '0')
      ++ (if pointZero then ".0" else "")
  else if 0 < n then
    String.ofList (d.digits.take n.toNat ++ '.' :: d.digits.drop n.toNat)
  else
    String.ofList ('0' :: '.' :: (List.replicate (-n).toNat '0' ++ d.digits))

/-- One digit before the point, and the exponent after an `e`. -/
def scientific (d : Decimal) (plus : Bool) : String :=
  let e := d.point - 1
  let mantissa := match d.digits with
    | [] => []
    | [c] => [c]
    | c :: cs => c :: '.' :: cs
  let sign := if e < 0 then "-" else if plus then "+" else ""
  String.ofList mantissa ++ "e" ++ sign ++ toString e.natAbs

end Decimal

namespace Number

/-- The number in the given layout. -/
def write (f : Notation) (x : Number) : String :=
  if x.isNaN then "NaN"
  else if x.isZero then
    (if f.signedZero && x.negative then "-" else "") ++ (if f.pointZero then "0.0" else "0")
  else
    (if x.negative then "-" else "")
      ++ (if x.isInfinite then f.infinity
        else if f.isPositional x then x.shortest.positional f.pointZero
        else x.shortest.scientific f.plus)

/-- The text a number turns into where text is wanted. -/
def text (x : Number) : String := x.write .plain

/-- Every number that is not one has the same text. -/
theorem text_of_isNaN {x : Number} (h : x.isNaN = true) : x.text = "NaN" := by
  rw [text, write, if_pos h]

/-- The text of a number in a description of a value. -/
def preciseText (x : Number) : String := x.write .precise

end Number

end StructuralMatch
