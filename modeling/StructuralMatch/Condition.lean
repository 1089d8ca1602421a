import StructuralMatch.Store.Property

/-! # Conditions on values

    Simple questions about a value, as data: what predicate arms and scripted
    matchers ask. -/

namespace StructuralMatch

/-- A question about a value. -/
inductive Condition where
  | always
  | never
  /-- The value is this one. -/
  | same (v : Value)
  /-- The value's type has this name. -/
  | typed (name : String)
  /-- The value is a number above this one. -/
  | above (x : Number)
  /-- The value has this property. -/
  | has (k : Key)
  | iterable
  | objectLike
deriving DecidableEq

/-- Whether a condition holds for a value. -/
def Condition.holds (σ : Store) (v : Value) : Condition → Bool
  | .always => true
  | .never => false
  | .same u => v.same u
  | .typed name => v.typeName == name
  | .above x => v.number?.any fun y => x.lt y
  | .has k => σ.hasProperty v k
  | .iterable => σ.isIterable v
  | .objectLike => v.isObjectLike

end StructuralMatch
