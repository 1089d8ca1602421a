import StructuralMatch.Bindings
import StructuralMatch.Regex
import StructuralMatch.Store.Course
import StructuralMatch.Verdict

/-! # Patterns

    A pattern says what a value must look like.  Literals are primitives,
    identifiers and rest markers capture, object and array patterns go into the
    parts of a value, and a custom matcher is any program that looks at a value
    and gives a verdict.

    The rest marker of an object pattern is kept apart from its entries.  A rest
    marker among the elements of an array pattern collects the remainder only at
    the end. -/

namespace StructuralMatch

/-- A named program that judges values.  It may do to the store whatever a program
    can do, and what it does stays done. -/
structure Matcher where
  name : String
  judge : Value → Store → Verdict Unit × Store
  leads : ∀ (v : Value) (σ : Store), σ.Leads (judge v σ).2

/-- The rest marker of an object pattern; an unnamed one binds nothing. -/
structure RestMarker where
  name : Option Key
deriving DecidableEq

/-- The shape that a value must have. -/
inductive Pattern where
  /-- The value is the same primitive. -/
  | literal (p : Primitive)
  /-- The text of the value contains a match. -/
  | regex (r : Regex)
  /-- Any value; bound under the name, or under the place where it stands. -/
  | identifier (name : Option Key)
  /-- Any value; as the last element of an array pattern, all that remains. -/
  | rest (name : Option Key)
  /-- Every listed key is there and its value matches. -/
  | object (entries : List (Key × Pattern)) (marker : Option RestMarker)
  /-- The elements match one by one; a gap must be there and is not looked at. -/
  | array (elements : List (Option Pattern))
  /-- The matcher says so. -/
  | custom (m : Matcher)

/-- The kinds of pattern, in the order in which they are tried. -/
inductive PatternKind where
  | custom
  | identifier
  | rest
  | regex
  | array
  | object
  | literal
deriving DecidableEq

namespace PatternKind

/-- The name of a kind. -/
def name : PatternKind → String
  | .custom => "Custom"
  | .identifier => "Identifier"
  | .rest => "Rest"
  | .regex => "Regex"
  | .array => "Array"
  | .object => "Object"
  | .literal => "Literal"

/-- The place of a kind in the order. -/
def rank : PatternKind → Nat
  | .custom => 0
  | .identifier => 1
  | .rest => 2
  | .regex => 3
  | .array => 4
  | .object => 5
  | .literal => 6

/-- The order of two kinds. -/
def cmp (a b : PatternKind) : Ordering := compare a.rank b.rank

end PatternKind

/-- An object pattern on its own. -/
structure ObjectPattern where
  entries : Assoc Key Pattern := []
  marker : Option RestMarker := none

/-- An array pattern on its own. -/
structure ArrayPattern where
  elements : List (Option Pattern) := []

/-- A name that is not empty, as a key. -/
def nonemptyKey? (name : String) : Option Key :=
  if name.isEmpty then none else some ⟨name⟩

namespace Pattern

/-- The kind of a pattern. -/
def kind : Pattern → PatternKind
  | .literal _ => .literal
  | .regex _ => .regex
  | .identifier _ => .identifier
  | .rest _ => .rest
  | .object _ _ => .object
  | .array _ => .array
  | .custom _ => .custom

/-- A capture by its spelling: a name after three dots collects the rest, any other
    name binds a value, and an empty name binds under the place or not at all. -/
def capture (name : String) : Pattern :=
  match name.toList with
  | '.' :: '.' :: '.' :: cs => .rest (nonemptyKey? (String.ofList cs))
  | _ => .identifier (nonemptyKey? name)

/-- The literal pattern of a value, if the value is a primitive. -/
def ofValue? : Value → Option Pattern
  | .prim p => some (.literal p)
  | .ref _ => none

/-- The name of a rest marker that nothing follows. -/
def trailing? : Pattern → (following : List (Option Pattern)) → Option (Option Key)
  | .rest name, [] => some name
  | _, _ => none

/-- The elements without a rest marker at their end, and that marker's name. -/
def splitRest (elements : List (Option Pattern)) : List (Option Pattern) × Option (Option Key) :=
  match elements.getLast? with
  | some (some (.rest name)) => (elements.dropLast, some name)
  | _ => (elements, none)

/-- Instances of a class, of the value's own or of one it inherits from. -/
def instanceOf (className : String) : Pattern :=
  .custom
    { name := "instance_of"
      judge := fun v σ => (if σ.isInstance v className then .matched () else .unmatched, σ)
      leads := fun _ σ => .refl σ }

end Pattern

namespace ObjectPattern

/-- Add an entry; a repeated key takes the later pattern in place. -/
def entry (o : ObjectPattern) (k : Key) (p : Pattern) : ObjectPattern :=
  { o with entries := o.entries.insert k p }

/-- Collect what no entry names; an empty name leaves it unbound. -/
def rest (o : ObjectPattern) (name : String) : ObjectPattern :=
  { o with marker := some ⟨nonemptyKey? name⟩ }

/-- The keys of the entries, in order. -/
def keys (o : ObjectPattern) : List Key := o.entries.keys

/-- The pattern. -/
def toPattern (o : ObjectPattern) : Pattern := .object o.entries o.marker

end ObjectPattern

namespace ArrayPattern

/-- Add an element. -/
def element (a : ArrayPattern) (p : Pattern) : ArrayPattern := ⟨a.elements ++ [some p]⟩

/-- Add a gap. -/
def hole (a : ArrayPattern) : ArrayPattern := ⟨a.elements ++ [none]⟩

/-- Add a rest marker; an empty name leaves the remainder unbound. -/
def rest (a : ArrayPattern) (name : String) : ArrayPattern :=
  a.element (.rest (nonemptyKey? name))

/-- The array pattern of a list of elements without gaps. -/
def ofList (ps : List Pattern) : ArrayPattern := ⟨ps.map some⟩

/-- The pattern. -/
def toPattern (a : ArrayPattern) : Pattern := .array a.elements

end ArrayPattern

end StructuralMatch
