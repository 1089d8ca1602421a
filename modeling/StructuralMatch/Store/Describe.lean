import StructuralMatch.Number.Notation
import StructuralMatch.Store.Property

/-! # Values as text

    `text` is what a value turns into where text is wanted: arrays join their
    elements with commas, other references give a tag.  `describe` shows a value
    with its type and its contents.  Both follow references into cells; contents
    lie in earlier cells, so the number of cells bounds the depth. -/

namespace StructuralMatch

/-- A primitive as text. -/
def Primitive.toText : Primitive → String
  | .undefined => "undefined"
  | .null => "null"
  | .bool b => if b then "true" else "false"
  | .number x => x.text
  | .bigint n => toString n
  | .text s => s

/-- A primitive with its type. -/
def Primitive.describe : Primitive → String
  | .undefined => "Undefined"
  | .null => "Null"
  | .bool b => "Bool(" ++ (if b then "true" else "false") ++ ")"
  | .number x => "Number(" ++ x.preciseText ++ ")"
  | .bigint n => "BigInt(" ++ toString n ++ ")"
  | .text s => "Str(" ++ Text.quote s ++ ")"

namespace Text

/-- Items between square brackets. -/
def bracketed (items : List String) : String :=
  "[" ++ String.intercalate ", " items ++ "]"

/-- Pairs between braces. -/
def braced (pairs : List (String × String)) : String :=
  "\x7b" ++ String.intercalate ", " (pairs.map fun p => p.1 ++ ": " ++ p.2) ++ "\x7d"

end Text

namespace Store

/-- The name of a function. -/
def functionName (σ : Store) (cell : Nat) : String :=
  (σ.functions[cell]?.map (·.name)).getD ""

/-- The label of an iterator's kind. -/
def iteratorLabel (σ : Store) (cell : Nat) : String :=
  (σ.iterators[cell]?.map (·.kind.label)).getD ""

/-- The text of a value whose arrays are nested at most `depth` deep. -/
def textWithin (σ : Store) : (depth : Nat) → Value → String
  | _, .prim p => p.toText
  | 0, .ref (.array _) => ""
  | depth + 1, .ref (.array a) =>
      String.intercalate "," ((σ.items a).map fun
        | .prim .undefined => ""
        | .prim .null => ""
        | v => textWithin σ depth v)
  | _, .ref (.object _) => "[object Object]"
  | _, .ref (.function f) => "function " ++ σ.functionName f ++ "() \x7b [native code] \x7d"
  | _, .ref (.iterator i) => "[object " ++ σ.iteratorLabel i ++ "]"

/-- The text that a value turns into. -/
def text (σ : Store) (v : Value) : String := σ.textWithin σ.arrays.size v

/-- The description of a value nested at most `depth` deep. -/
def describeWithin (σ : Store) : (depth : Nat) → Value → String
  | _, .prim p => p.describe
  | 0, .ref _ => ""
  | depth + 1, .ref (.array a) =>
      "Array(" ++ Text.bracketed ((σ.items a).map fun v => describeWithin σ depth v) ++ ")"
  | depth + 1, .ref (.object o) =>
      let object := σ.object o
      "Object(" ++ (object.className.map (· ++ " ")).getD ""
        ++ Text.braced (object.properties.map fun p =>
          (p.1.quoted, match p.2.slot with
            | .data v => describeWithin σ depth v
            | .accessor _ => "<getter>")) ++ ")"
  | _ + 1, .ref (.function f) => "Function(function " ++ σ.functionName f ++ ")"
  | _ + 1, .ref (.iterator i) => "Iterator(" ++ σ.iteratorLabel i ++ ")"

/-- The description of a value. -/
def describe (σ : Store) (v : Value) : String :=
  σ.describeWithin (σ.arrays.size + σ.objects.size + 1) v

/-- The description of a property. -/
def describeProperty (σ : Store) (p : Property) : String :=
  match p.slot with
  | .data v => σ.describe v
  | .accessor _ => "<getter>"

/-- The description of a step. -/
def describeStep (σ : Store) : Step → String
  | .yielded v => "Yielded(" ++ σ.describe v ++ ")"
  | .done => "Done"

/-- The description of an iterator's state. -/
def describeIterator (it : Iterator) : String :=
  "IteratorValue \x7b label: " ++ Text.quote it.kind.label ++ ", pulled: " ++ toString it.pulled
    ++ ", exhausted: " ++ toString it.source.isNone ++ ", closed: " ++ toString it.closed ++ " \x7d"

end Store

end StructuralMatch
