import StructuralMatch.Proofs.Outcome
import StructuralMatch.Proofs.Remainder
import StructuralMatch.Proofs.Store.Lineage
import StructuralMatch.Proofs.Store.Still

/-! # What a named rest marker collects

    Where the own enumerable properties of a value are plain data, a copy of them is
    made of the cells alone, and nothing happens on the way (`Grounded.without_eq`).
    So a match with a named rest marker binds a new plain object that is the exact
    complement of the entries: together they have all own enumerable keys, none of them
    twice, and nothing that is hidden or inherited (`matchAt_complement`).

    What entries name need be neither own nor enumerable: it is matched all the same,
    and makes no difference to what is collected. -/

namespace StructuralMatch

namespace Store

variable {σ : Store} {v : Value}

/-- The own enumerable properties of a value without those of some keys, in order. -/
def beyond (σ : Store) (v : Value) (keys : List Key) : Assoc Key Property :=
  (σ.listed v).filter fun e => !keys.contains e.1

/-- What is listed of a value is plain data. -/
def PlainlyListed (σ : Store) (v : Value) : Prop := ∀ e ∈ σ.listed v, ∃ x, e.2.slot = .data x

/-- What is listed and is plain data is a list of fields. -/
theorem PlainlyListed.fields (h : σ.PlainlyListed v) :
    ∃ es : List (Key × Value), (es.map fun e => (e.1, Property.field e.2)) = σ.listed v := by
  have hrange : σ.listed v ∈
      Set.range (List.map fun e : Key × Value => (e.1, Property.field e.2)) := by
    rw [Set.range_list_map]
    rintro ⟨k, slot, enumerable⟩ he
    obtain ⟨x, rfl⟩ := h _ he
    obtain rfl : enumerable = true := enumerable_of_mem_listed he
    exact ⟨(k, x), rfl⟩
  exact hrange

/-- No key is there twice beyond others. -/
theorem nodup_beyond (σ : Store) (v : Value) (keys : List Key) :
    (σ.beyond v keys).keys.Nodup :=
  Assoc.nodup_keys_filter (σ.nodup_listed v) _

/-- A plain object of what is beyond some keys. -/
def rest (σ : Store) (v : Value) (keys : List Key) : Object where
  properties := σ.beyond v keys
  nodup := σ.nodup_beyond v keys

/-- Copying plain data does nothing but make the copy. -/
theorem Grounded.without_eq (hσ : σ.Grounded) (h : σ.PlainlyListed v) (keys : List Key) :
    σ.without v keys =
      (.ref (.object σ.objects.size), { σ with objects := σ.objects.push (σ.rest v keys) }) := by
  obtain ⟨es, hes⟩ := h.fields
  have hentries : σ.entries v = (es, σ) := by
    rw [entries_eq_readAll, ← hes, readAll_fields]
  have hkept : ((σ.entries v).1.filter fun e => !keys.contains e.1).map
      (fun e => (e.1, Property.field e.2)) = σ.beyond v keys := by
    rw [hentries, beyond, ← hes, List.filter_map]
    rfl
  have hcopy : Object.ofFields ((σ.entries v).1.filter fun e => !keys.contains e.1)
      (Assoc.nodup_keys_filter (σ.nodup_entries v) _) = σ.rest v keys :=
    Object.ext rfl hkept rfl rfl
  -- what is listed is there, so the copy is made as it is
  have hvetted : ∀ e ∈ σ.beyond v keys, (e.1, σ.vetProperty e.2) = e := fun e he =>
    Prod.ext rfl (hσ.vetProperty_own (mem_own_of_mem_listed (List.mem_filter.1 he).1))
  have hobject : σ.vetObject (σ.rest v keys) = σ.rest v keys :=
    Object.ext rfl ((List.map_congr_left hvetted).trans (List.map_id' _)) rfl rfl
  rw [without, hcopy, hentries, newObject, hobject]

end Store

/-! ## The complement of the entries -/

/-- An object holds what a value has beyond some keys, and nothing else. -/
structure Complement (σ : Store) (v : Value) (keys : List Key) (o : Object) : Prop where
  /-- It has no class and no prototype, and cannot be iterated over. -/
  plain : o.className = none ∧ o.proto = none ∧ o.factory = none
  /-- It has the own enumerable properties of the value, in the value's order and with its
      values, less the keys. -/
  properties : o.properties = (σ.listed v).filter fun e => !keys.contains e.1
  /-- They are enumerable data. -/
  fields : ∀ e ∈ o.properties, ∃ x, e.2 = .field x
  /-- With the keys it covers all that is own and enumerable. -/
  covers : ∀ k ∈ (σ.listed v).keys, k ∈ keys ∨ k ∈ o.properties.keys
  /-- It has none of the keys. -/
  apart : ∀ k ∈ o.properties.keys, k ∉ keys
  /-- It has no key twice, nor have the keys and it together. -/
  distinct : o.properties.keys.Nodup ∧ (keys.Nodup → (keys ++ o.properties.keys).Nodup)
  /-- What it has is the value's own and enumerable, so it is neither hidden nor inherited. -/
  own : ∀ k ∈ o.properties.keys, ∃ p, (σ.own v).get? k = some p ∧ p.enumerable = true
  /-- Of an array it has positions only. -/
  length : ∀ a, v = .ref (.array a) → ⟨"length"⟩ ∉ o.properties.keys

namespace Store

variable {σ τ : Store} {v : Value} {k : Key} {keys : List Key}

/-- Keys beyond others are those that are listed and are not among them. -/
theorem mem_keys_beyond : k ∈ (σ.beyond v keys).keys ↔ k ∈ (σ.listed v).keys ∧ k ∉ keys := by
  simp only [beyond, Assoc.keys, List.mem_map, List.mem_filter, Bool.not_eq_true',
    List.contains_eq_mem, decide_eq_false_iff_not]
  constructor
  · rintro ⟨e, ⟨he, hnot⟩, rfl⟩
    exact ⟨⟨e, he, rfl⟩, hnot⟩
  · rintro ⟨⟨e, he, rfl⟩, hnot⟩
    exact ⟨e, ⟨he, hnot⟩, rfl⟩

/-- A plain object of the properties beyond some keys is their complement. -/
theorem PlainlyListed.complement (h : σ.PlainlyListed v) (keys : List Key) :
    Complement σ v keys (σ.rest v keys) where
  plain := ⟨rfl, rfl, rfl⟩
  properties := rfl
  fields := by
    obtain ⟨es, hes⟩ := h.fields
    intro e he
    have hlisted : e ∈ σ.listed v := (List.mem_filter.1 he).1
    rw [← hes] at hlisted
    obtain ⟨f, -, rfl⟩ := List.mem_map.1 hlisted
    exact ⟨f.2, rfl⟩
  covers := by
    intro k hk
    by_cases hkeys : k ∈ keys
    · exact .inl hkeys
    · exact .inr (mem_keys_beyond.2 ⟨hk, hkeys⟩)
  apart := fun k hk => (mem_keys_beyond.1 hk).2
  distinct := by
    have hbeyond := σ.nodup_beyond v keys
    refine ⟨hbeyond, fun hkeys => List.nodup_append.2 ⟨hkeys, hbeyond, ?_⟩⟩
    rintro j hj k hk rfl
    exact (mem_keys_beyond.1 hk).2 hj
  own := fun k hk => get?_own_of_mem_listed (mem_keys_beyond.1 hk).1
  length := by
    rintro a rfl hk
    exact length_not_listed σ a (mem_keys_beyond.1 hk).1

end Store

/-- **The rest of an object is the complement of the entries**: a match with a named rest
    marker, of a value whose own enumerable properties are plain data, binds a new object that
    holds what the value has beyond the keys of the entries. -/
theorem matchAt_complement {s t : State} (made : Store.empty.Leads s.store) {v : Value}
    (held : s.store.holds v = true) (hplain : s.store.PlainlyListed v)
    {entries : List (Key × Pattern)} {name : Key} {place : Option Key} {b : Bindings}
    (hmatch : matchAt (.object entries (some ⟨some name⟩)) place v s = (.matched b, t)) :
    ∃ (n : Nat) (o : Object), b.get? name = some (.ref (.object n)) ∧
      s.store.objects.size ≤ n ∧ t.store.objects.size = n + 1 ∧ t.store.objects[n]? = some o ∧
        Complement s.store v (entries.map Prod.fst) o := by
  cases v with
  | prim p =>
      rw [matchAt, State.register] at hmatch
      cases hmatch
  | ref r =>
      obtain ⟨c, w, hentries, hbound, rfl⟩ := matchAt_remainder hmatch rfl
      obtain rfl := Verdict.matched.inj hbound
      -- whatever the entries have done, the value has kept its properties
      have hleads : s.store.Leads w.store := by
        have hrun := matchEntries_leads entries (.ref r) .empty (s.register (.ref r)).2
        rwa [hentries, State.register_store] at hrun
      have hw := hleads.grounded (made.grounded Store.grounded_empty)
      have hlisted := hleads.keeps.listed_eq held
      have hplain' : w.store.PlainlyListed (.ref r) := by rwa [Store.PlainlyListed, hlisted]
      have hwithout := hw.without_eq hplain' (entries.map Prod.fst)
      have hrest : w.store.rest (.ref r) (entries.map Prod.fst) =
          s.store.rest (.ref r) (entries.map Prod.fst) := by
        refine Object.ext rfl ?_ rfl rfl
        show w.store.beyond (.ref r) _ = s.store.beyond (.ref r) _
        rw [Store.beyond, hlisted, Store.beyond]
      refine ⟨w.store.objects.size, s.store.rest (.ref r) (entries.map Prod.fst), ?_,
        hleads.keeps.objects_size, ?_, ?_,
        hplain.complement _⟩
      · rw [Bindings.get?_insert, if_pos rfl, State.remainder, hwithout]
      · rw [State.remainder, hwithout]
        exact Array.size_push ..
      · rw [State.remainder, hwithout, hrest]
        exact Array.getElem?_push_size

/-! ## An object that inherits and hides -/

namespace Inheriting

/-- An object with a hidden property and two others, which goes on with one more. -/
def blueprint : Blueprint :=
  .object (.mk none
    (some (.object (.mk none none [(⟨"up"⟩, .field (.existing (.text "inherited")))] none)))
    [(⟨"a"⟩, .field (.existing (.text "first"))), (⟨"h"⟩, .hidden (.existing (.text "hidden"))),
      (⟨"b"⟩, .field (.existing (.text "second")))] none)

/-- A new cache, and the object. -/
def start : State := { store := (blueprint.build .empty).2 }

theorem made : Store.empty.Leads start.store := blueprint.build_reaches .empty

/-- What is inherited, what is hidden and what is neither, and the rest. -/
def entries : List (Key × Pattern) :=
  [(⟨"up"⟩, .identifier none), (⟨"h"⟩, .identifier none), (⟨"b"⟩, .identifier none)]

/-- The outcome of the match, and the state after it. -/
def matched : Verdict Bindings × State :=
  matchAt (.object entries (some ⟨some ⟨"rest"⟩⟩)) none (.ref (.object 1)) start

/-- What the match binds. -/
def bindings : Bindings :=
  (((Bindings.single ⟨"up"⟩ (.text "inherited")).insert ⟨"h"⟩ (.text "hidden")).insert ⟨"b"⟩
    (.text "second")).insert ⟨"rest"⟩ (.ref (.object 2))

theorem matched_eq : matched = (.matched bindings, matched.2) := Prod.ext (by decide) rfl

theorem plainlyListed : start.store.PlainlyListed (.ref (.object 1)) := by
  have hlisted : start.store.listed (.ref (.object 1)) =
      [(⟨"a"⟩, .field (.text "first")), (⟨"b"⟩, .field (.text "second"))] := by decide
  intro e he
  rw [hlisted] at he
  rcases List.mem_cons.1 he with rfl | he
  · exact ⟨_, rfl⟩
  · exact ⟨_, congrArg (·.2.slot) (List.mem_singleton.1 he)⟩

end Inheriting

/-- The rest is the one property that is own, enumerable and not named. -/
theorem matchAt_complement_inheriting :
    (∃ (n : Nat) (o : Object), Inheriting.bindings.get? ⟨"rest"⟩ = some (.ref (.object n)) ∧
      Inheriting.start.store.objects.size ≤ n ∧
        Inheriting.matched.2.store.objects.size = n + 1 ∧
          Inheriting.matched.2.store.objects[n]? = some o ∧
            Complement Inheriting.start.store (.ref (.object 1)) [⟨"up"⟩, ⟨"h"⟩, ⟨"b"⟩] o) ∧
      (Inheriting.matched.2.store.object 2).properties = [(⟨"a"⟩, .field (.text "first"))] :=
  ⟨matchAt_complement Inheriting.made (by decide) Inheriting.plainlyListed Inheriting.matched_eq,
    by decide⟩

end StructuralMatch
