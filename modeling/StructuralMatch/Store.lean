import StructuralMatch.Assoc
import StructuralMatch.Store.Script

/-! # Stores

    A store holds the cells behind reference values, each kind numbered on its
    own.  Arrays, objects and functions never change once made; iterators move
    forward, and getters and factories count their runs.  Everything that a
    program could notice, the run of a getter, a poll of a source, a close, is
    recorded in the trace, in order.

    No reference dangles: a cell is made of what the store holds already, and
    whatever else it is given counts as undefined.

    The lemmas on `record` say that recording changes the trace only. -/

namespace StructuralMatch

/-! ## Cells -/

/-- How a property stores its value. -/
inductive Slot where
  | data (v : Value)
  /-- The cell of the getter that runs on every read. -/
  | accessor (getter : Nat)
deriving DecidableEq

/-- An own property. -/
structure Property where
  slot : Slot
  enumerable : Bool
deriving DecidableEq

/-- The cell of an object, and the object part of a function.  No key occurs twice. -/
@[ext]
structure Object where
  className : Option String := none
  properties : Assoc Key Property := []
  /-- The object that inherited lookups continue with. -/
  proto : Option Nat := none
  /-- The factory that makes the object iterable. -/
  factory : Option Nat := none
  nodup : properties.keys.Nodup := by exact List.nodup_nil

instance : Inhabited Object := ⟨{}⟩

/-- The cell of a function. -/
structure Function where
  name : String
  object : Object
  /-- What a call returns. -/
  body : List Value → Blueprint
  label : Option String

/-- The cell of a getter. -/
structure Getter where
  label : Option String
  /-- What each run does, counted from zero. -/
  body : Nat → Script Value
  runs : Nat := 0

/-- The cell of an iteration factory. -/
structure Factory where
  label : Option String
  /-- What each run does, counted from zero, and the iterator that it hands out. -/
  body : Nat → Script Supply
  runs : Nat := 0

/-- Where an iterator takes its values from. -/
inductive Source where
  /-- The outputs to come, each by a run of its own; a missing one is a report
      of exhaustion. -/
  | items (outputs : List (Script (Option Value)))
  /-- The numbers from `next` up to, but without, `stop`. -/
  | range (next stop : Int)
  /-- The steps of another iterator. -/
  | inner (iterator : Nat)

/-- The cell of an iterator. -/
structure Iterator where
  kind : IteratorKind
  /-- Gone once the source reported exhaustion or the iterator was closed. -/
  source : Option Source
  label : Option String
  /-- How many values have been yielded. -/
  pulled : Nat := 0
  closed : Bool := false

/-- The iterator after its source gave an output and went on as `rest`. -/
def Iterator.after (it : Iterator) (output : Option Value) (rest : Source) : Iterator :=
  match output with
  | some _ => { it with source := some rest, pulled := it.pulled + 1 }
  | none => { it with source := none }

/-! ## Events -/

/-- Something that a program could notice. -/
inductive Event where
  /-- A getter started to run. -/
  | ran (getter : Nat)
  /-- An iterator over an array or an iterable object was made. -/
  | opened (iterable : Ref)
  /-- A source was polled after `turn` earlier values, and gave one or none. -/
  | polled (iterator turn : Nat) (output : Option Value)
  /-- An iterator was closed and its cleanup ran. -/
  | closed (iterator : Nat)
  /-- A function was called. -/
  | called (function : Nat)
  /-- A custom matcher was asked. -/
  | consulted (matcher : String)
  /-- User code left a message. -/
  | note (message : String)
deriving DecidableEq

/-! ## The store -/

/-- All cells, and the trace of what happened to them. -/
structure Store where
  arrays : Array (List Value) := #[]
  objects : Array Object := #[]
  functions : Array Function := #[]
  iterators : Array Iterator := #[]
  getters : Array Getter := #[]
  factories : Array Factory := #[]
  trace : Array Event := #[]

namespace Store

/-- The store in which nothing has been made. -/
def empty : Store := {}

/-- Append an event to the trace. -/
def record (σ : Store) (e : Event) : Store := { σ with trace := σ.trace.push e }

/-- The elements of an array. -/
def items (σ : Store) (cell : Nat) : List Value := σ.arrays.getD cell []

/-- The object of a cell. -/
def object (σ : Store) (cell : Nat) : Object := σ.objects.getD cell {}

/-- The object behind an object or function value. -/
def objectOf? (σ : Store) : Value → Option Object
  | .ref (.object o) => σ.objects[o]?
  | .ref (.function f) => σ.functions[f]?.map (·.object)
  | _ => none

/-! ## What is there -/

/-- Whether a value is a primitive or has its cell. -/
def holds (σ : Store) : Value → Bool
  | .prim _ => true
  | .ref (.array a) => decide (a < σ.arrays.size)
  | .ref (.object o) => decide (o < σ.objects.size)
  | .ref (.function f) => decide (f < σ.functions.size)
  | .ref (.iterator i) => decide (i < σ.iterators.size)

/-- A value that is there; a reference to no cell counts as undefined. -/
def vet (σ : Store) (v : Value) : Value := if σ.holds v then v else .undefined

/-- A property whose value or getter is there. -/
def vetProperty (σ : Store) (p : Property) : Property :=
  match p.slot with
  | .data v => ⟨.data (σ.vet v), p.enumerable⟩
  | .accessor g => if g < σ.getters.size then p else ⟨.data .undefined, p.enumerable⟩

/-- An object all of whose parts are there. -/
def vetObject (σ : Store) (o : Object) : Object :=
  { o with
    properties := o.properties.map fun p => (p.1, σ.vetProperty p.2)
    proto := o.proto.filter fun p => decide (p < σ.objects.size)
    factory := o.factory.filter fun f => decide (f < σ.factories.size)
    nodup := (Assoc.keys_map o.properties _).symm ▸ o.nodup }

/-! ## Making cells -/

/-- Make an array. -/
def newArray (σ : Store) (items : List Value) : Value × Store :=
  (.ref (.array σ.arrays.size), { σ with arrays := σ.arrays.push (items.map σ.vet) })

/-- Make an object. -/
def newObject (σ : Store) (o : Object) : Value × Store :=
  (.ref (.object σ.objects.size), { σ with objects := σ.objects.push (σ.vetObject o) })

/-- Make a function. -/
def newFunction (σ : Store) (f : Function) : Value × Store :=
  (.ref (.function σ.functions.size),
    { σ with functions := σ.functions.push { f with object := σ.vetObject f.object } })

/-- Make an iterator, and return its cell. -/
def newIterator (σ : Store) (it : Iterator) : Nat × Store :=
  (σ.iterators.size, { σ with iterators := σ.iterators.push it })

/-- Make a getter, and return its cell. -/
def newGetter (σ : Store) (g : Getter) : Nat × Store :=
  (σ.getters.size, { σ with getters := σ.getters.push g })

/-- Make a factory, and return its cell. -/
def newFactory (σ : Store) (f : Factory) : Nat × Store :=
  (σ.factories.size, { σ with factories := σ.factories.push f })

/-- Replace the iterator of a cell. -/
def setIterator (σ : Store) (cell : Nat) (it : Iterator) : Store :=
  { σ with iterators := σ.iterators.setIfInBounds cell it }

/-- Count a run of a getter that starts. -/
def startGetter (σ : Store) (cell : Nat) (g : Getter) : Store :=
  { σ with getters := σ.getters.setIfInBounds cell { g with runs := g.runs + 1 } }.record
    (.ran cell)

/-- Count a run of a factory that starts for an iterable object. -/
def startFactory (σ : Store) (cell : Nat) (f : Factory) (iterable : Ref) : Store :=
  { σ with factories := σ.factories.setIfInBounds cell { f with runs := f.runs + 1 } }.record
    (.opened iterable)

/-! ## What recording leaves alone -/

@[simp] theorem record_trace (σ : Store) (e : Event) :
    (σ.record e).trace = σ.trace.push e := rfl

@[simp] theorem record_arrays (σ : Store) (e : Event) :
    (σ.record e).arrays = σ.arrays := rfl

@[simp] theorem record_objects (σ : Store) (e : Event) :
    (σ.record e).objects = σ.objects := rfl

@[simp] theorem record_functions (σ : Store) (e : Event) :
    (σ.record e).functions = σ.functions := rfl

@[simp] theorem record_iterators (σ : Store) (e : Event) :
    (σ.record e).iterators = σ.iterators := rfl

@[simp] theorem record_getters (σ : Store) (e : Event) :
    (σ.record e).getters = σ.getters := rfl

@[simp] theorem record_factories (σ : Store) (e : Event) :
    (σ.record e).factories = σ.factories := rfl

/-- What is there is kept as it is. -/
theorem vet_of_holds {σ : Store} {v : Value} (h : σ.holds v = true) : σ.vet v = v := by
  simp [vet, h]

/-- What is kept is there. -/
@[simp] theorem holds_vet (σ : Store) (v : Value) : σ.holds (σ.vet v) = true := by
  rw [vet]
  split
  · assumption
  · rfl

end Store

end StructuralMatch
