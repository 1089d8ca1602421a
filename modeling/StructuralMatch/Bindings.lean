import StructuralMatch.Store.Describe

/-! # Bindings

    The names that a match captured, with their values, in the order of first
    capture.  A repeated name keeps its place and takes the later value.  Names
    are distinct by construction, and two bindings are equal when they bind the
    same names to the same values in whatever order. -/

namespace StructuralMatch

/-- Captured values by name; the names are distinct. -/
structure Bindings where
  entries : Assoc Key Value
  nodup : entries.keys.Nodup
deriving DecidableEq

namespace Bindings

/-- No bindings. -/
def empty : Bindings := ⟨[], by simp⟩

instance : Inhabited Bindings := ⟨empty⟩

/-- A single binding. -/
def single (k : Key) (v : Value) : Bindings := ⟨[(k, v)], by simp⟩

/-- Bind a name, in place if it is bound already. -/
def insert (b : Bindings) (k : Key) (v : Value) : Bindings :=
  ⟨b.entries.insert k v, Assoc.nodup_keys_insert b.nodup k v⟩

/-- Bind the pairs one after another. -/
def insertAll (b : Bindings) (pairs : List (Key × Value)) : Bindings :=
  ⟨b.entries.insertAll pairs, Assoc.nodup_keys_insertAll b.nodup pairs⟩

/-- The bindings that a list of pairs describes, later pairs winning. -/
def ofPairs (pairs : List (Key × Value)) : Bindings := empty.insertAll pairs

/-- Add bindings; those of `c` win. -/
def merge (b c : Bindings) : Bindings :=
  if b.entries.isEmpty then c else b.insertAll c.entries

/-- The value bound to a name. -/
def get? (b : Bindings) (k : Key) : Option Value := b.entries.get? k

/-- Whether a name is bound. -/
def contains (b : Bindings) (k : Key) : Bool := b.entries.contains k

/-- The bound names, in order. -/
def keys (b : Bindings) : List Key := b.entries.keys

/-- The number of bound names. -/
def size (b : Bindings) : Nat := b.entries.length

/-- Whether nothing is bound. -/
def isEmpty (b : Bindings) : Bool := b.entries.isEmpty

/-- Whether two bindings bind the same names to the same values: as many names,
    and everything bound on the left bound the same on the right. -/
def same (b c : Bindings) : Bool :=
  b.size == c.size && b.entries.all fun e =>
    match c.get? e.1 with
    | some v => v.same e.2
    | none => false

/-- A plain object with one field for each binding. -/
def toObject (b : Bindings) (σ : Store) : Value × Store :=
  σ.newObject (Object.addAll {} (b.entries.map fun e => (e.1, .field e.2)))

/-- The bindings as a description. -/
def describe (b : Bindings) (σ : Store) : String :=
  Text.braced (b.entries.map fun e => (e.1.quoted, σ.describe e.2))

/-! ## Laws -/

@[simp] theorem get?_empty (k : Key) : empty.get? k = none := rfl

@[simp] theorem get?_single (k : Key) (v : Value) (k' : Key) :
    (single k v).get? k' = if k = k' then some v else none := rfl

/-- The inserted name is bound to the inserted value; every other name keeps its own. -/
@[simp] theorem get?_insert (b : Bindings) (k : Key) (v : Value) (k' : Key) :
    (b.insert k v).get? k' = if k = k' then some v else b.get? k' :=
  Assoc.get?_insert b.entries k v k'

/-- A name is bound exactly when it is one of the keys. -/
theorem contains_iff (b : Bindings) (k : Key) : b.contains k = true ↔ k ∈ b.keys :=
  Assoc.get?_isSome_iff b.entries k

/-- Merging into nothing gives the bindings that are merged. -/
@[simp] theorem empty_merge (c : Bindings) : empty.merge c = c := rfl

/-- Bindings with the same entries are the same. -/
theorem ext_entries {b c : Bindings} (h : b.entries = c.entries) : b = c := by
  cases b
  cases c
  cases h
  rfl

end Bindings

end StructuralMatch
