import StructuralMatch.Number

/-! # Values

    A value is a primitive, compared by content, or a reference, compared by
    identity.  A reference names a cell of a `Store`; two references with one
    identity are the same cell.  `Value.same` is the comparison on which
    literals, bindings and memos rest: it relates every NaN to every NaN and
    tells the two zeros apart. -/

namespace StructuralMatch

/-- A value without identity. -/
inductive Primitive where
  | undefined
  | null
  | bool (b : Bool)
  | number (x : Number)
  | bigint (n : Int)
  | text (s : String)
deriving DecidableEq, Inhabited

/-- The identity of a reference value: its kind and its cell among that kind. -/
inductive Ref where
  | array (cell : Nat)
  | object (cell : Nat)
  | function (cell : Nat)
  | iterator (cell : Nat)
deriving DecidableEq

/-- A runtime value. -/
inductive Value where
  | prim (p : Primitive)
  | ref (r : Ref)
deriving DecidableEq

namespace Primitive

/-- The name of a primitive's type. -/
def typeName : Primitive → String
  | .undefined => "undefined"
  | .null => "null"
  | .bool _ => "boolean"
  | .number _ => "number"
  | .bigint _ => "bigint"
  | .text _ => "string"

/-- Sameness of primitives: equal, or both not a number. -/
def same : Primitive → Primitive → Bool
  | .number x, .number y => x.same y
  | p, q => p == q

end Primitive

namespace Ref

/-- The name of a reference's type. -/
def typeName : Ref → String
  | .array _ => "array"
  | .object _ => "object"
  | .function _ => "function"
  | .iterator _ => "iterator"

end Ref

namespace Value

/-- The absent value. -/
abbrev undefined : Value := .prim .undefined

/-- A number as a value. -/
abbrev number (x : Number) : Value := .prim (.number x)

/-- A text as a value. -/
abbrev text (s : String) : Value := .prim (.text s)

/-- A truth value as a value. -/
abbrev bool (b : Bool) : Value := .prim (.bool b)

/-- The number of elements or characters as a value. -/
def ofNat (n : Nat) : Value := number (.ofNat n)

instance : Inhabited Value := ⟨undefined⟩

/-- The name of a value's type. -/
def typeName : Value → String
  | .prim p => p.typeName
  | .ref r => r.typeName

/-- The identity of a reference value. -/
def identity : Value → Option Ref
  | .prim _ => none
  | .ref r => some r

/-- Whether a value has an identity, and so properties that can be probed. -/
def isObjectLike (v : Value) : Bool := v.identity.isSome

/-- Sameness of values: primitives by content, references by identity. -/
def same : Value → Value → Bool
  | .prim p, .prim q => p.same q
  | .ref r, .ref s => r == s
  | _, _ => false

/-- The text a value holds, if it is a text. -/
def text? : Value → Option String
  | .prim (.text s) => some s
  | _ => none

/-- The number a value holds, if it is a number. -/
def number? : Value → Option Number
  | .prim (.number x) => some x
  | _ => none

/-- The cell of an iterator value. -/
def iterator? : Value → Option Nat
  | .ref (.iterator i) => some i
  | _ => none

/-- The cell of a plain object value. -/
def object? : Value → Option Nat
  | .ref (.object i) => some i
  | _ => none

end Value

end StructuralMatch
