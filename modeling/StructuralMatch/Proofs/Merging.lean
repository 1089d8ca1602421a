import StructuralMatch.Proofs.Insertion
import StructuralMatch.Proofs.Store.Lineage

/-! # Bindings as a monoid

    However bindings are put together, they are the ordered map of all pairs mentioned on
    the way, the last mention of a name winning (`Bindings.Collects.entries_eq`).  Merging
    them is inserting lists of pairs one after the other, so it is associative and has the
    empty bindings on both sides, as ordered lists and not only as maps.

    Two shortcuts rest on names being distinct: merging into nothing takes the other side
    as it stands, and an object can be made of the bindings field by field
    (`Bindings.toObject_eq`). -/

namespace StructuralMatch

namespace Bindings

variable {ps qs : List (Key × Value)} {a b : Bindings} {σ : Store}

/-- Bindings that are put together in whatever way, and all pairs that are mentioned on the
    way, in order. -/
inductive Collects : List (Key × Value) → Bindings → Prop where
  | empty : Collects [] .empty
  | single (k : Key) (v : Value) : Collects [(k, v)] (.single k v)
  | insert {ps : List (Key × Value)} {b : Bindings} (h : Collects ps b) (k : Key) (v : Value) :
      Collects (ps ++ [(k, v)]) (b.insert k v)
  | merge {ps qs : List (Key × Value)} {b c : Bindings} (hb : Collects ps b)
      (hc : Collects qs c) : Collects (ps ++ qs) (b.merge c)
  | ofPairs (ps : List (Key × Value)) : Collects ps (.ofPairs ps)

/-- Bindings are the map of the pairs that are mentioned. -/
theorem Collects.entries_eq (h : Collects ps b) : b.entries = Assoc.ofPairs ps := by
  induction h with
  | empty => rfl
  | single k v => rfl
  | insert _ k v ih =>
      rw [Assoc.ofPairs, Assoc.insertAll_append, ← Assoc.ofPairs, ← ih]
      rfl
  | @merge ps qs _ _ _ _ ihb ihc =>
      rw [entries_merge, ihb, ihc, Assoc.insertAll_ofPairs]
      exact (Assoc.insertAll_append [] ps qs).symm
  | ofPairs ps => rfl

/-- The names stand in the order of first mention. -/
theorem Collects.keys_eq (h : Collects ps b) : b.keys = (ps.map Prod.fst).eraseDups := by
  rw [keys, h.entries_eq, Assoc.keys_ofPairs, Assoc.keys]

/-- Every name has the value of its last mention. -/
theorem Collects.get?_eq (h : Collects ps b) (k : Key) : b.get? k = Assoc.get? ps.reverse k := by
  rw [get?, h.entries_eq, Assoc.get?_ofPairs]

/-! ## Merging -/

/-- What is merged in wins, and what was there stays. -/
theorem get?_merge (a b : Bindings) (k : Key) :
    (a.merge b).get? k = (b.get? k).or (a.get? k) := by
  rw [get?, entries_merge, Assoc.get?_insertAll, Assoc.ofPairs_eq_self b.nodup, get?, get?]

/-- Names that are merged in follow those that were there. -/
theorem keys_merge (a b : Bindings) :
    (a.merge b).keys = a.keys ++ b.keys.filter fun k => !a.keys.contains k := by
  rw [keys, entries_merge, Assoc.keys_insertAll a.entries b.nodup, keys, keys]

theorem merge_assoc (a b c : Bindings) : (a.merge b).merge c = a.merge (b.merge c) := by
  refine ext_entries ?_
  calc ((a.merge b).merge c).entries
      = (a.entries.insertAll b.entries).insertAll c.entries := by
        rw [entries_merge, entries_merge]
    _ = a.entries.insertAll (b.entries.insertAll c.entries) :=
        (Assoc.insertAll_insertAll b.nodup a.entries c.entries).symm
    _ = (a.merge (b.merge c)).entries := by rw [entries_merge, entries_merge]

/-- Merging, by the shortcut or not, is binding the pairs one after another. -/
theorem merge_eq_foldl (a b : Bindings) :
    a.merge b = b.entries.foldl (fun c e => c.insert e.1 e.2) a := by
  refine ext_entries ?_
  rw [entries_merge, entries_foldl_insert]

end Bindings

/-! ## Bindings as an object -/

namespace Store

variable {σ : Store} {es : List (Key × Value)} {distinct : (Assoc.keys es).Nodup}

/-- An object of fields that are there is made as it is. -/
theorem newObject_ofFields (held : ∀ e ∈ es, σ.holds e.2 = true) :
    σ.newObject (.ofFields es distinct) =
      (.ref (.object σ.objects.size),
        { σ with objects := σ.objects.push (.ofFields es distinct) }) := by
  rw [newObject, vetObject_ofFields held]

/-- Such an object lists its fields, all of them and in order. -/
theorem entries_ofFields {n : Nat} (here : σ.objects[n]? = some (.ofFields es distinct)) :
    σ.own (.ref (.object n)) = es.map (fun e => (e.1, .field e.2)) ∧
      σ.entries (.ref (.object n)) = (es, σ) := by
  have hown : σ.own (.ref (.object n)) = es.map fun e => (e.1, .field e.2) :=
    own_of_objectOf? (o := .ofFields es distinct) here
  have hlisted : σ.listed (.ref (.object n)) = es.map fun e => (e.1, .field e.2) := by
    rw [listed, hown, List.filter_eq_self]
    intro p hp
    obtain ⟨e, -, rfl⟩ := List.mem_map.1 hp
    rfl
  refine ⟨hown, ?_⟩
  rw [entries_eq_readAll, hlisted, readAll_fields]

end Store

/-- Bindings turn into an object with one field for each of them, just as they are listed. -/
theorem Bindings.toObject_eq (b : Bindings) (σ : Store) :
    b.toObject σ = σ.newObject (.ofFields b.entries b.nodup) := by
  rw [toObject, Object.addAll_fields b.nodup]

/-- **Bindings are an ordered monoid in which the last write wins**: however they were put
    together, names are distinct and stand in the order of first mention, each with what it
    was given last.  Merging is associative, has the empty bindings on both sides, and is the
    binding of one pair after another, also where the shortcut is taken.  As an object,
    bindings own exactly their pairs, in order and enumerable. -/
theorem Bindings.merge_monoid {ps : List (Key × Value)} {a : Bindings} (made : a.Collects ps)
    (b c : Bindings) {σ : Store} (held : ∀ e ∈ a.entries, σ.holds e.2 = true) :
    (a.keys.Nodup ∧ a.keys = (ps.map Prod.fst).eraseDups ∧
        ∀ k, a.get? k = Assoc.get? ps.reverse k) ∧
      (∀ k, (a.merge b).get? k = (b.get? k).or (a.get? k)) ∧
      (a.merge b).keys = a.keys ++ b.keys.filter (fun k => !a.keys.contains k) ∧
      (a.merge b).merge c = a.merge (b.merge c) ∧
      Bindings.empty.merge a = a ∧ a.merge .empty = a ∧
      a.merge b = b.entries.foldl (fun c e => c.insert e.1 e.2) a ∧
      Bindings.empty.merge b = b.entries.foldl (fun c e => c.insert e.1 e.2) .empty ∧
      ∃ v τ, a.toObject σ = (v, τ) ∧ v = .ref (.object σ.objects.size) ∧
        τ.own v = a.entries.map (fun e => (e.1, .field e.2)) ∧ τ.entries v = (a.entries, τ) := by
  refine ⟨⟨a.nodup, made.keys_eq, made.get?_eq⟩, get?_merge a b, keys_merge a b,
    merge_assoc a b c, empty_merge a, merge_empty a, merge_eq_foldl a b, merge_eq_foldl .empty b,
    _, _, (toObject_eq a σ).trans (Store.newObject_ofFields held), rfl, ?_⟩
  exact Store.entries_ofFields Array.getElem?_push_size

namespace Overlapping

/-- Pairs in which a name is mentioned twice. -/
def pairs : List (Key × Value) :=
  [(⟨"x"⟩, .text "first"), (⟨"y"⟩, .undefined), (⟨"x"⟩, .text "second")]

/-- They are bound one after another, and then merged with a single one. -/
def left : Bindings :=
  ((Bindings.ofPairs pairs).insert ⟨"z"⟩ .undefined).merge (.single ⟨"y"⟩ (.bool true))

/-- All that is mentioned on the left. -/
def mentions : List (Key × Value) :=
  pairs ++ [(⟨"z"⟩, .undefined)] ++ [(⟨"y"⟩, .bool true)]

theorem left_collects : left.Collects mentions :=
  .merge (.insert (.ofPairs pairs) _ _) (.single _ _)

/-- Bindings that share two names with those. -/
def right : Bindings :=
  .ofPairs [(⟨"w"⟩, .undefined), (⟨"z"⟩, .text "third"), (⟨"x"⟩, .undefined)]

end Overlapping

/-- Names that overlap are overwritten where they stand, new ones follow. -/
theorem Bindings.merge_monoid_overlapping :
    (∀ e ∈ Overlapping.left.entries, Store.empty.holds e.2 = true) ∧
      Overlapping.left.keys = [⟨"x"⟩, ⟨"y"⟩, ⟨"z"⟩] ∧
      Overlapping.left.get? ⟨"y"⟩ = some (.bool true) ∧
      (Overlapping.left.merge Overlapping.right).keys = [⟨"x"⟩, ⟨"y"⟩, ⟨"z"⟩, ⟨"w"⟩] ∧
      (Overlapping.left.merge Overlapping.right).get? ⟨"z"⟩ = some (.text "third") := by
  have held : ∀ e ∈ Overlapping.left.entries, Store.empty.holds e.2 = true := by decide
  obtain ⟨⟨-, hkeys, hget⟩, hmerged, hmergedKeys, -⟩ :=
    merge_monoid Overlapping.left_collects Overlapping.right .empty held
  refine ⟨held, ?_, ?_, ?_, ?_⟩
  · rw [hkeys]
    decide
  · rw [hget]
    decide
  · rw [hmergedKeys]
    decide
  · rw [hmerged]
    decide

end StructuralMatch
