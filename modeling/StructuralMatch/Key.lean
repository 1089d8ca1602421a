import StructuralMatch.Text.Quoted

/-! # Keys

    One type of key serves properties, positions and captures.  A position is
    kept in its canonical decimal form, so that position `0` and the property
    named `0` are the same key.  Keys are ordered by code points, which is the
    order of their encoded bytes. -/

namespace StructuralMatch

/-- A property name, a position in decimal form, or the name of a capture. -/
structure Key where
  name : String
deriving DecidableEq, Inhabited

namespace Key

/-- The key of a position. -/
def index (i : Nat) : Key := ⟨String.ofList (Nat.toDigits 10 i)⟩

/-- The number that decimal digits denote. -/
def decimalValue (cs : List Char) : Nat :=
  cs.foldl (fun n c => 10 * n + (c.toNat - '0'.toNat)) 0

/-- A decimal form denotes the number that it was made from. -/
theorem decimalValue_toDigits (n : Nat) : decimalValue (Nat.toDigits 10 n) = n :=
  Nat.ofDigitChars_toDigits (by decide) (by decide)

/-- Distinct positions have distinct keys. -/
theorem index_injective {i j : Nat} (h : index i = index j) : i = j := by
  have hdigits : Nat.toDigits 10 i = Nat.toDigits 10 j := String.ofList_injective (congrArg name h)
  rw [← decimalValue_toDigits i, hdigits, decimalValue_toDigits]

/-- Whether the characters are a decimal form without leading zeros. -/
def isCanonicalDecimal : List Char → Bool
  | [] => false
  | [c] => c.isDigit
  | c :: cs => c != '0' && c.isDigit && cs.all Char.isDigit

/-- The position that a key stands for: canonical decimal forms below `2 ^ 64` only. -/
def index? (k : Key) : Option Nat :=
  let cs := k.name.toList
  if isCanonicalDecimal cs && decide (decimalValue cs < UInt64.size) then
    some (decimalValue cs)
  else none

/-- The key in quotes. -/
def quoted (k : Key) : String := Text.quote k.name

/-- The order of two keys. -/
def cmp (a b : Key) : Ordering := compareOfLessAndEq a.name b.name

end Key

end StructuralMatch
