import StructuralMatch.Proofs.Store.Apart
import StructuralMatch.Proofs.Store.Independence
import StructuralMatch.Proofs.Store.Results

/-! # Parts of a store that keep still

    A part of a store keeps still if looking at it changes nothing for whoever looks
    next (`Store.Still`): its properties are plain data, and its iterators and factories
    have fixed, finite sources that are independent of each other.  It is closed, so
    what can be reached from a value of the part lies in the part; the least such part
    is what can be reached.

    What is read off the part can be read off once and for all: properties
    (`Still.get_eq`), copies of them (`Still.without_eq`), and the values of everything
    that can be iterated over (`Still.opens`). -/

namespace StructuralMatch

/-- What the value refers to, if anything, belongs to the part. -/
def Value.Within (part : Ref → Prop) (v : Value) : Prop := ∀ r ∈ v.identity, part r

theorem Value.within_prim (part : Ref → Prop) (p : Primitive) : (Value.prim p).Within part := nofun

theorem Value.within_ref {part : Ref → Prop} {r : Ref} (hr : part r) : (Value.ref r).Within part := by
  rintro q ⟨⟩
  exact hr

namespace Store

variable {σ τ υ : Store}

/-! ## What stays -/

/-- What an object has under a key stays. -/
theorem Keeps.findProperty_eq (hk : σ.Keeps τ) (hσ : σ.Grounded) {v : Value} {o : Object}
    (ho : σ.objectOf? v = some o) (k : Key) : τ.findProperty o k = σ.findProperty o k := by
  rw [findProperty, findProperty, hk.chain_eq hσ (hσ.fits ho)]

/-! ## Keeping still -/

/-- Getting an iterator over a value touches no iterator that was there, and gives a new one
    with cells of its own that feeds these values, or one that is known to give them. -/
inductive Opens (known : Nat → List Value → Prop) (r : Ref) (xs : List Value) (τ : Store) : Prop
  | new {i : Nat} {cells : Nat → Prop} {υ : Store} (opened : τ.iterate (.ref r) = (some i, υ))
      (spares : τ.Reaches (Event.Spares (· < τ.iterators.size)) υ)
      (feeds : υ.Feeds cells i xs) (own : cells i)
      (fresh : ∀ c, cells c → τ.iterators.size ≤ c ∧ c < υ.iterators.size)
  | known {i : Nat} {υ : Store} (opened : τ.iterate (.ref r) = (some i, υ))
      (spares : τ.Reaches (Event.Spares (· < τ.iterators.size)) υ) (gives : known i xs)

/-- A closed part of a store whose properties are plain data and whose iterators and factories
    have fixed, independent, finite sources. -/
structure Still (σ : Store) where
  part : Ref → Prop
  /-- The values that an iterator has still to give. -/
  yields : Nat → List Value
  /-- The values that every iterator gives which the factory of an object hands out. -/
  supplies : Nat → List Value
  /-- The iterators that an iterator uses, itself among them. -/
  cells : Nat → Nat → Prop
  there : ∀ {r : Ref}, part r → σ.holds (.ref r) = true
  plain : ∀ {r : Ref} {o : Object} {k : Key} {p : Property}, part r →
    σ.objectOf? (.ref r) = some o → σ.findProperty o k = some p →
      ∃ v : Value, p.slot = .data v ∧ v.Within part
  elements : ∀ {a : Nat}, part (.array a) → ∀ x ∈ σ.items a, x.Within part
  yielded : ∀ {i : Nat}, part (.iterator i) → ∀ x ∈ yields i, x.Within part
  supplied : ∀ {o : Nat}, part (.object o) → ∀ x ∈ supplies o, x.Within part
  own : ∀ {i : Nat}, part (.iterator i) → cells i i ∧ ∀ c, cells i c → c < σ.iterators.size
  feeds : ∀ {i : Nat}, part (.iterator i) → σ.Feeds (cells i) i (yields i)
  apart : ∀ {i j : Nat}, part (.iterator i) → part (.iterator j) → i ≠ j →
    ∀ c, cells i c → ¬cells j c
  /-- However the store has gone on, the factory hands out an iterator over the same values. -/
  opens : ∀ {o : Nat}, part (.object o) → (σ.object o).factory.isSome → ∀ τ : Store,
    σ.Keeps τ → σ.SameFactories τ →
      τ.Opens (fun i xs => part (.iterator i) ∧ xs = yields i) (.object o) (supplies o)

namespace Still

variable (S : σ.Still)

/-- The values behind what can be iterated over. -/
def values : Ref → Option (List Value)
  | .array a => some (σ.items a)
  | .object o => if (σ.object o).factory.isSome then some (S.supplies o) else none
  | .function _ => none
  | .iterator i => some (S.yields i)

/-- What a property reads as. -/
def property (_ : σ.Still) (r : Ref) (k : Key) : Value := (σ.get (.ref r) k).1

/-- The object that a copy of the properties is, but for the excluded ones. -/
def copy (_ : σ.Still) (r : Ref) (excluded : List Key) : Object :=
  .ofFields ((σ.entries (.ref r)).1.filter fun e => !excluded.contains e.1)
    (Assoc.nodup_keys_filter (σ.nodup_entries (.ref r)) _)

variable {S} {r : Ref}

/-- What belongs to the part is there. -/
theorem holds {v : Value} (hv : v.Within S.part) : σ.holds v = true := by
  cases v with
  | prim p => rfl
  | ref r => exact S.there (hv r rfl)

/-! ## Properties -/

/-- Reading a property does nothing, and gives the same in every later store. -/
theorem get_eq (hr : S.part r) (hσ : σ.Grounded) (hk : σ.Keeps τ) (k : Key) :
    τ.get (.ref r) k = (S.property r k, τ) ∧ (S.property r k).Within S.part := by
  by_cases harray : ∃ a, r = .array a
  · obtain ⟨a, rfl⟩ := harray
    simp only [property, Store.get, hk.items_eq (S.there hr)]
    split
    · exact ⟨rfl, Value.within_prim _ _⟩
    · refine ⟨rfl, ?_⟩
      cases hx : element? (σ.items a) k with
      | none => exact Value.within_prim _ _
      | some x =>
          obtain ⟨i, -, hi⟩ := Option.bind_eq_some_iff.1 hx
          exact S.elements hr x (List.mem_of_getElem? hi)
  · have hnot : ∀ a, Value.ref r ≠ .ref (.array a) := fun a ha => harray ⟨a, Value.ref.inj ha⟩
    simp only [property, get_of_not_array hnot, hk.objectOf?_eq (S.there hr)]
    cases ho : σ.objectOf? (.ref r) with
    | none => exact ⟨rfl, Value.within_prim _ _⟩
    | some o =>
        simp only [Option.bind_some, hk.findProperty_eq hσ ho]
        cases hp : σ.findProperty o k with
        | none => exact ⟨rfl, Value.within_prim _ _⟩
        | some p =>
            obtain ⟨v, hv, hwithin⟩ := S.plain hr ho hp
            simp only [readProperty, hv]
            exact ⟨trivial, hwithin⟩

/-- Reading plain data one after another does nothing. -/
theorem readAll_eq {ps : List (Key × Property)}
    (hps : ∀ e ∈ ps, ∃ v : Value, e.2.slot = .data v ∧ v.Within S.part) :
    ∃ es : List (Key × Value), (∀ τ : Store, readAll ps τ = (es, τ)) ∧
      ∀ e ∈ es, e.2.Within S.part := by
  induction ps with
  | nil => exact ⟨[], fun _ => rfl, by simp⟩
  | cons e ps ih =>
      obtain ⟨k, p⟩ := e
      obtain ⟨v, hv, hwithin⟩ := hps (k, p) (List.mem_cons_self ..)
      dsimp only at hv
      obtain ⟨es, hes, hall⟩ := ih fun e he => hps e (List.mem_cons_of_mem _ he)
      refine ⟨(k, v) :: es, fun τ => ?_, List.forall_mem_cons.2 ⟨hwithin, hall⟩⟩
      simp only [readAll, readProperty, hv, hes]

/-- Enumerating properties does nothing, and gives the same in every later store. -/
theorem entries_eq (hr : S.part r) (hk : σ.Keeps τ) :
    τ.entries (.ref r) = ((σ.entries (.ref r)).1, τ) ∧
      ∀ e ∈ (σ.entries (.ref r)).1, e.2.Within S.part := by
  by_cases harray : ∃ a, r = .array a
  · obtain ⟨a, rfl⟩ := harray
    simp only [Store.entries, hk.items_eq (S.there hr)]
    refine ⟨trivial, fun e he => ?_⟩
    obtain ⟨⟨x, i⟩, hx, rfl⟩ := List.mem_map.1 he
    exact S.elements hr x (List.fst_mem_of_mem_zipIdx hx)
  · have hnot : ∀ a, Value.ref r ≠ .ref (.array a) := fun a ha => harray ⟨a, Value.ref.inj ha⟩
    simp only [entries_of_not_array hnot, hk.objectOf?_eq (S.there hr)]
    cases ho : σ.objectOf? (.ref r) with
    | none => exact ⟨rfl, by simp⟩
    | some o =>
        have hplain : ∀ e ∈ o.properties.filter fun e => e.2.enumerable,
            ∃ v : Value, e.2.slot = .data v ∧ v.Within S.part := fun e he =>
          S.plain hr ho (σ.findProperty_of_mem (List.mem_filter.1 he).1)
        obtain ⟨es, hes, hall⟩ := S.readAll_eq hplain
        simp only [hes]
        exact ⟨trivial, hall⟩

/-- Copying properties does nothing but make the copy. -/
theorem without_eq (hr : S.part r) (hk : σ.Keeps τ) (excluded : List Key) :
    τ.without (.ref r) excluded = τ.newObject (S.copy r excluded) := by
  have hentries := (S.entries_eq hr hk).1
  have hkept : ((τ.entries (.ref r)).1.filter fun e => !excluded.contains e.1) =
      (σ.entries (.ref r)).1.filter fun e => !excluded.contains e.1 := by rw [hentries]
  rw [without, Object.ofFields_congr hkept _
    (Assoc.nodup_keys_filter (σ.nodup_entries (.ref r)) _), hentries, copy]

/-- All that is copied is there. -/
theorem vetObject_copy (hr : S.part r) (hk : σ.Keeps τ) (excluded : List Key) :
    τ.vetObject (S.copy r excluded) = S.copy r excluded := by
  refine vetObject_ofFields (fun e he => hk.holds ?_) _
  exact S.holds ((S.entries_eq hr hk).2 e (List.mem_filter.1 he).1)

/-! ## Iterators -/

theorem holds_of_values {xs : List Value} (hr : S.part r) (hxs : S.values r = some xs) :
    ∀ x ∈ xs, x.Within S.part := by
  cases r with
  | array a => exact Option.some.inj hxs ▸ S.elements hr
  | iterator i => exact Option.some.inj hxs ▸ S.yielded hr
  | function f => cases hxs
  | object o =>
      rw [values] at hxs
      split at hxs
      · exact Option.some.inj hxs ▸ S.supplied hr
      · cases hxs

/-- What has no values cannot be iterated over. -/
theorem not_iterable (hxs : S.values r = none) : σ.isIterable (.ref r) = false := by
  cases r with
  | array a => cases hxs
  | iterator i => cases hxs
  | function f => rfl
  | object o =>
      rw [values] at hxs
      split at hxs
      · cases hxs
      · rename_i hnone
        exact Bool.eq_false_iff.2 hnone

/-- Whatever can be iterated over hands out an iterator over its values in every later store. -/
theorem opens_values {xs : List Value} (hr : S.part r) (hxs : S.values r = some xs)
    (hk : σ.Keeps τ) (hf : σ.SameFactories τ) :
    τ.Opens (fun i ys => S.part (.iterator i) ∧ ys = S.yields i) r xs := by
  cases r with
  | array a =>
      obtain rfl := Option.some.inj hxs
      have hitems : τ.items a = σ.items a := hk.items_eq (S.there hr)
      let υ := ((τ.record (.opened (.array a))).newIterator (.overArray (σ.items a))).2
      have hopened : τ.iterate (.ref (.array a)) = (some τ.iterators.size, υ) := by
        simp only [iterate, hitems]
        rfl
      have hreaches : τ.Reaches (Event.Spares (· < τ.iterators.size)) υ :=
        .tail (Change.remark τ (.opened (.array a)) trivial fun _ _ => id).reaches
          (.iterator _ _ ⟨rfl, rfl⟩)
      have hiterators : υ.iterators = τ.iterators.push (.overArray (σ.items a)) := rfl
      have here : υ.iterators[τ.iterators.size]? = some (.overArray (σ.items a)) := by
        rw [hiterators, Array.getElem?_push_size]
      have hfeeds : υ.Feeds (· = τ.iterators.size) τ.iterators.size (σ.items a) :=
        feeds_of_lists _ here rfl (Source.lists_ofValues _) fun x hx =>
          hreaches.keeps.holds (hk.holds (holds (S.elements hr x hx)))
      refine .new hopened hreaches hfeeds rfl ?_
      rintro c rfl
      exact ⟨Nat.le_refl _, by simp [hiterators]⟩
  | iterator i => exact .known rfl (.refl τ) ⟨hr, (Option.some.inj hxs).symm⟩
  | function f => cases hxs
  | object o =>
      rw [values] at hxs
      split at hxs
      · exact Option.some.inj hxs ▸ S.opens hr ‹_› τ hk hf
      · cases hxs

end Still

end Store

end StructuralMatch
