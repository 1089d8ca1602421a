import StructuralMatch.Key
import StructuralMatch.Value

/-! # Blueprints

    A blueprint describes a value that is still to be made: every array, object,
    function or iterator in it becomes a new cell, with an identity of its own,
    each time the blueprint is built.  Existing values can be shared by naming
    them.  Blueprints are plain data, so that a getter or a factory can keep one
    and build it again on every run. -/

namespace StructuralMatch

/-- What an iterator calls itself. -/
inductive IteratorKind where
  | iterator
  | generator
  | arrayIterator
  | textIterator
deriving DecidableEq

/-- The name of an iterator's kind. -/
def IteratorKind.label : IteratorKind → String
  | .iterator => "Iterator"
  | .generator => "Generator"
  | .arrayIterator => "Array Iterator"
  | .textIterator => "String Iterator"

mutual

/-- A value to be made. -/
inductive Blueprint where
  /-- A value that exists already. -/
  | existing (v : Value)
  | array (items : List Blueprint)
  | object (shape : Shape)
  | function (name : String) (shape : Shape) (body : BodyPlan) (label : Option String)
  | iterator (plan : IteratorPlan)

/-- Class, prototype, properties in the order in which they are added, and the
    iterator that a factory makes. -/
inductive Shape where
  | mk (className : Option String) (proto : Option Blueprint)
      (properties : List (Key × PropertyPlan)) (factory : Option IteratorPlan)

/-- A property to be added. -/
inductive PropertyPlan where
  /-- An enumerable value. -/
  | field (b : Blueprint)
  /-- A value that enumeration skips. -/
  | hidden (b : Blueprint)
  /-- An enumerable accessor. -/
  | getter (label : Option String) (body : GetterPlan)

/-- What a getter will do. -/
inductive GetterPlan where
  /-- Return these values one after another, the last one again and again. -/
  | values (bs : List Blueprint)
  /-- Build the blueprint anew on every run. -/
  | fresh (b : Blueprint)
  /-- Advance an iterator. -/
  | advance (b : Blueprint)

/-- What a function will return. -/
inductive BodyPlan where
  /-- The sum of the arguments that are numbers. -/
  | sum
  /-- A new array of the arguments. -/
  | arguments
  /-- Always the same value. -/
  | constant (b : Blueprint)

/-- An iterator to be made; a labelled one reports what happens to it. -/
inductive IteratorPlan where
  | mk (kind : IteratorKind) (source : SourcePlan) (label : Option String)

/-- Where an iterator takes its values from. -/
inductive SourcePlan where
  /-- The listed values; a missing one is a report of exhaustion. -/
  | items (bs : List (Option Blueprint))
  /-- The numbers from `start` up to, but without, `stop`. -/
  | range (start stop : Int)
  /-- The elements of an array, or what an iterator yields. -/
  | elements (b : Blueprint)

end

/-- The label under which an iterator reports. -/
def IteratorPlan.label : IteratorPlan → Option String
  | .mk _ _ label => label

end StructuralMatch
