import StructuralMatch.Store.Iteration

/-! # Properties

    A property is looked up in a value's own properties and then along its
    prototype chain; the nearest one counts.  Reading an accessor runs its
    getter.  Arrays own their positions and `length`.  Enumeration lists own
    enumerable properties only, in order. -/

namespace StructuralMatch.Store

/-! ## Looking up -/

/-- An object followed by its prototypes, at most `depth` of them. -/
def chainWithin (σ : Store) : (depth : Nat) → Object → List Object
  | 0, o => [o]
  | depth + 1, o =>
      match o.proto.bind fun p => σ.objects[p]? with
      | none => [o]
      | some p => o :: chainWithin σ depth p

/-- An object followed by its prototypes, nearest first. -/
def chain (σ : Store) (o : Object) : List Object := σ.chainWithin σ.objects.size o

/-- The nearest property of a key, own or inherited. -/
def findProperty (σ : Store) (o : Object) (k : Key) : Option Property :=
  (σ.chain o).findSome? (·.own? k)

/-- Whether some object of the value's class chain has the class; objects without
    a class are passed over. -/
def isInstance (σ : Store) (v : Value) (className : String) : Bool :=
  match v.object? with
  | some o => (σ.chain (σ.object o)).any fun o => o.className == some className
  | none => false

/-- The element of an array that a key addresses. -/
def element? (items : List Value) (k : Key) : Option Value :=
  k.index?.bind fun i => items[i]?

/-- Whether a value has a property, own or inherited. -/
def hasProperty (σ : Store) (v : Value) (k : Key) : Bool :=
  match v with
  | .ref (.array a) => k.name == "length" || (element? (σ.items a) k).isSome
  | v =>
      match σ.objectOf? v with
      | some o => (σ.findProperty o k).isSome
      | none => false

/-! ## Reading -/

/-- Run a getter. -/
def runGetter (σ : Store) (getter : Nat) : Value × Store :=
  match σ.getters[getter]? with
  | none => (.undefined, σ)
  | some g =>
      let (v, σ) := (σ.startGetter getter g).runScript (g.body g.runs)
      (σ.vet v, σ)

/-- Read a property, running its getter if it has one. -/
def readProperty (σ : Store) (p : Property) : Value × Store :=
  match p.slot with
  | .data v => (v, σ)
  | .accessor g => σ.runGetter g

/-- The value of a property; undefined when there is none. -/
def get (σ : Store) (v : Value) (k : Key) : Value × Store :=
  match v with
  | .ref (.array a) =>
      if k.name == "length" then (.ofNat (σ.items a).length, σ)
      else ((element? (σ.items a) k).getD .undefined, σ)
  | v =>
      match (σ.objectOf? v).bind fun o => σ.findProperty o k with
      | some p => σ.readProperty p
      | none => (.undefined, σ)

/-! ## Enumeration -/

/-- Read properties one after another. -/
def readAll : List (Key × Property) → Store → List (Key × Value) × Store
  | [], σ => ([], σ)
  | (k, p) :: ps, σ =>
      let (v, σ) := σ.readProperty p
      let (rest, σ) := readAll ps σ
      ((k, v) :: rest, σ)

/-- The own enumerable properties with their values, in order. -/
def entries (σ : Store) (v : Value) : List (Key × Value) × Store :=
  match v with
  | .ref (.array a) => ((σ.items a).zipIdx.map fun (v, i) => (Key.index i, v), σ)
  | v =>
      match σ.objectOf? v with
      | some o => readAll (o.properties.filter fun p => p.2.enumerable) σ
      | none => ([], σ)

/-- Reading keeps the keys. -/
theorem keys_readAll (ps : Assoc Key Property) (σ : Store) :
    Assoc.keys (readAll ps σ).1 = ps.keys := by
  induction ps generalizing σ with
  | nil => rfl
  | cons e ps ih =>
      rw [readAll]
      exact congrArg (e.1 :: ·) (ih _)

/-- The keys of a list under its positions. -/
theorem keys_zipIdx {α β : Type} (f : α → β) (xs : List α) :
    Assoc.keys (xs.zipIdx.map fun (x, i) => (Key.index i, f x)) =
      (List.range xs.length).map Key.index := by
  rw [Assoc.keys, List.map_map, List.range_eq_range', ← List.zipIdx_map_snd 0 xs, List.map_map]
  rfl

/-- The keys of positions are distinct. -/
theorem nodup_positions (n : Nat) : ((List.range n).map Key.index).Nodup :=
  List.pairwise_map.2 (List.nodup_range.imp fun hne h => hne (Key.index_injective h))

/-- No key is enumerated twice. -/
theorem nodup_entries (σ : Store) (v : Value) : (Assoc.keys (σ.entries v).1).Nodup := by
  rw [entries.eq_def]
  split
  · rw [keys_zipIdx fun x => x]
    exact nodup_positions _
  · split
    · rename_i o _
      rw [keys_readAll]
      exact Assoc.nodup_keys_filter o.nodup _
    · exact List.nodup_nil

/-- A new plain object with the own enumerable properties, less the excluded keys.  What is
    left is taken as it is listed, since no key is enumerated twice. -/
def without (σ : Store) (v : Value) (excluded : List Key) : Value × Store :=
  (σ.entries v).2.newObject
    (.ofFields ((σ.entries v).1.filter fun e => !excluded.contains e.1)
      (Assoc.nodup_keys_filter (σ.nodup_entries v) _))

/-! ## Calls -/

/-- Call a function. -/
def call (σ : Store) (v : Value) (args : List Value) : Value × Store :=
  match v with
  | .ref (.function f) =>
      match σ.functions[f]? with
      | some function => (function.body args).build (σ.record (.called f))
      | none => (.undefined, σ)
  | _ => (.undefined, σ)

end StructuralMatch.Store
