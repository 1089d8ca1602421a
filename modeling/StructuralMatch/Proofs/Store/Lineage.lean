import StructuralMatch.Proofs.Positions
import StructuralMatch.Proofs.Store.Results

/-! # Values and their prototypes

    What a value owns, which prototype it goes on with and which class it has can be
    read off its cell.  The prototypes that follow one another are its lineage
    (`Store.Lineage`), and a key is looked up there: the nearest value that owns it
    decides (`Store.Resolves`).

    The store looks things up along a list of objects that is as long as need be.
    A prototype was there before whatever goes on with it, so the list is complete, and
    it is the lineage (`Grounded.mem_chain_iff`, `Grounded.findProperty_eq_some_iff`). -/

namespace StructuralMatch.Store

variable {σ τ : Store} {u v w : Value} {k : Key} {p : Property}

/-! ## What is read off a cell -/

/-- The own properties of a value, in order: those of an array are its elements under their
    positions, and a hidden `length`. -/
def own (σ : Store) (v : Value) : Assoc Key Property :=
  match v with
  | .ref (.array a) =>
      ((σ.items a).zipIdx.map fun (x, i) => (Key.index i, Property.field x)) ++
        [(⟨"length"⟩, Property.hidden (.ofNat (σ.items a).length))]
  | v =>
      match σ.objectOf? v with
      | some o => o.properties
      | none => []

/-- The own properties that enumeration lists, in order. -/
def listed (σ : Store) (v : Value) : Assoc Key Property := (σ.own v).filter fun e => e.2.enumerable

/-- The prototype that lookups in a value go on with. -/
def parent? (σ : Store) (v : Value) : Option Value :=
  ((σ.objectOf? v).bind (·.proto)).map fun p => .ref (.object p)

/-- The class that a value was given. -/
def classOf? (σ : Store) (v : Value) : Option String := (σ.objectOf? v).bind (·.className)

/-- The second value is the first or one of the prototypes that it leads to. -/
inductive Lineage (σ : Store) : Value → Value → Prop where
  | self (v : Value) : Lineage σ v v
  | parent {u v w : Value} (up : σ.parent? v = some u) (above : Lineage σ u w) : Lineage σ v w

/-- A lookup of the key comes to the property: the value owns it, or it does not own the key
    and its prototype resolves it. -/
inductive Resolves (σ : Store) (k : Key) : Value → Property → Prop where
  | own {v : Value} {p : Property} (here : (σ.own v).get? k = some p) : Resolves σ k v p
  | inherited {u v : Value} {p : Property} (absent : (σ.own v).get? k = none)
      (up : σ.parent? v = some u) (above : Resolves σ k u p) : Resolves σ k v p

/-! ## Own properties -/

/-- What an object or a function owns is what its object lists. -/
theorem own_of_objectOf? {o : Object} (ho : σ.objectOf? v = some o) : σ.own v = o.properties := by
  cases v with
  | prim p => cases ho
  | ref r =>
      cases r with
      | array a => cases ho
      | _ => simp only [own, ho]

/-- Nothing else has properties, arrays apart. -/
theorem own_of_objectOf?_none (hv : ∀ a, v ≠ .ref (.array a)) (ho : σ.objectOf? v = none) :
    σ.own v = [] := by
  cases v with
  | prim p => rfl
  | ref r =>
      cases r with
      | array a => exact absurd rfl (hv a)
      | _ => simp only [own, ho]

/-- A value is an array, or it has no properties at all, or it has those of an object. -/
theorem owner_cases (σ : Store) (v : Value) :
    (∃ a, v = .ref (.array a)) ∨
      (∀ a, v ≠ .ref (.array a)) ∧ (σ.objectOf? v = none ∨ ∃ o, σ.objectOf? v = some o) := by
  by_cases harray : ∃ a, v = .ref (.array a)
  · exact .inl harray
  · refine .inr ⟨fun a ha => harray ⟨a, ha⟩, ?_⟩
    cases ho : σ.objectOf? v with
    | none => exact .inl rfl
    | some o => exact .inr ⟨o, rfl⟩

/-- The keys of an array are its positions, in order, and `length`. -/
theorem keys_own_array (σ : Store) (a : Nat) :
    (σ.own (.ref (.array a))).keys =
      (List.range (σ.items a).length).map Key.index ++ [⟨"length"⟩] := by
  rw [own, Assoc.keys, List.map_append, ← Assoc.keys, keys_zipIdx]
  rfl

/-- No key is owned twice. -/
theorem nodup_own (σ : Store) (v : Value) : (σ.own v).keys.Nodup := by
  rcases σ.owner_cases v with ⟨a, rfl⟩ | ⟨hnot, ho | ⟨o, ho⟩⟩
  · rw [keys_own_array, List.nodup_append]
    refine ⟨nodup_positions _, List.nodup_singleton _, ?_⟩
    intro j hj l hl
    obtain ⟨i, -, rfl⟩ := List.mem_map.1 hj
    rw [List.mem_singleton.1 hl]
    exact Key.index_ne_length i
  · rw [own_of_objectOf?_none hnot ho]
    exact List.nodup_nil
  · rw [own_of_objectOf? ho]
    exact o.nodup

/-- What a value owns stays. -/
theorem Keeps.own_eq (hk : σ.Keeps τ) (hv : σ.holds v = true) : τ.own v = σ.own v := by
  cases v with
  | prim p => rfl
  | ref r =>
      cases r with
      | array a => simp only [own, hk.items_eq hv]
      | _ => simp only [own, hk.objectOf?_eq hv]

/-- What a property of a value refers to is there. -/
theorem Grounded.vetProperty_own (hσ : σ.Grounded) (h : (k, p) ∈ σ.own v) :
    σ.vetProperty p = p := by
  rcases σ.owner_cases v with ⟨a, rfl⟩ | ⟨hnot, ho | ⟨o, ho⟩⟩
  · rw [own, List.mem_append, List.mem_map] at h
    rcases h with ⟨⟨x, i⟩, hx, heq⟩ | hlength
    · obtain ⟨rfl, rfl⟩ := Prod.mk.inj heq
      have hmem : x ∈ σ.items a := List.fst_mem_of_mem_zipIdx hx
      have held : σ.holds x = true := hσ.holds_of_mem_items hmem
      simp only [vetProperty, Property.field, vet_of_holds held]
    · obtain ⟨-, rfl⟩ := Prod.mk.inj (List.mem_singleton.1 hlength)
      rfl
  · rw [own_of_objectOf?_none hnot ho] at h
    cases h
  · rw [own_of_objectOf? ho] at h
    have hfits := hσ.fits ho
    obtain ⟨slot, enumerable⟩ := p
    cases slot with
    | data x => simp only [vetProperty, vet_of_holds (hfits.data h)]
    | accessor g => simp only [vetProperty, hfits.accessor h, if_true]

/-! ## Enumeration -/

/-- Every listed property is owned. -/
theorem mem_own_of_mem_listed (h : (k, p) ∈ σ.listed v) : (k, p) ∈ σ.own v :=
  (List.mem_filter.1 h).1

/-- Every listed property is enumerable. -/
theorem enumerable_of_mem_listed (h : (k, p) ∈ σ.listed v) : p.enumerable = true := by
  simpa using (List.mem_filter.1 h).2

/-- No key is listed twice. -/
theorem nodup_listed (σ : Store) (v : Value) : (σ.listed v).keys.Nodup :=
  Assoc.nodup_keys_filter (σ.nodup_own v) _

/-- A listed key is that of an own enumerable property. -/
theorem get?_own_of_mem_listed (hk : k ∈ (σ.listed v).keys) :
    ∃ p, (σ.own v).get? k = some p ∧ p.enumerable = true := by
  obtain ⟨⟨j, p⟩, he, rfl⟩ := List.mem_map.1 hk
  exact ⟨p, Assoc.get?_eq_some_of_mem (σ.nodup_own v) (mem_own_of_mem_listed he),
    enumerable_of_mem_listed he⟩

/-- What is listed of a value stays. -/
theorem Keeps.listed_eq (hk : σ.Keeps τ) (hv : σ.holds v = true) : τ.listed v = σ.listed v := by
  rw [listed, hk.own_eq hv, listed]

/-- What is listed of an array is its elements. -/
theorem listed_array (σ : Store) (a : Nat) :
    σ.listed (.ref (.array a)) =
      (σ.items a).zipIdx.map fun (x, i) => (Key.index i, Property.field x) := by
  have helements : ∀ e ∈ (σ.items a).zipIdx.map fun (x, i) => (Key.index i, Property.field x),
      e.2.enumerable = true := by
    intro e he
    obtain ⟨⟨x, i⟩, -, rfl⟩ := List.mem_map.1 he
    rfl
  rw [listed, own, List.filter_append, List.filter_eq_self.2 helements]
  exact List.append_nil _

/-- The keys listed of an array are its positions, in order. -/
theorem keys_listed_array (σ : Store) (a : Nat) :
    (σ.listed (.ref (.array a))).keys = (List.range (σ.items a).length).map Key.index := by
  rw [listed_array, keys_zipIdx]

/-- The length of an array is not listed. -/
theorem length_not_listed (σ : Store) (a : Nat) :
    ⟨"length"⟩ ∉ (σ.listed (.ref (.array a))).keys := by
  rw [keys_listed_array]
  intro hmem
  obtain ⟨i, -, hi⟩ := List.mem_map.1 hmem
  exact Key.index_ne_length i hi

/-- Reading fields gives their values. -/
theorem readAll_fields (es : List (Key × Value)) (σ : Store) :
    readAll (es.map fun e => (e.1, .field e.2)) σ = (es, σ) := by
  induction es with
  | nil => rfl
  | cons e es ih =>
      rw [List.map_cons, readAll]
      show (e :: (readAll (es.map _) σ).1, (readAll (es.map _) σ).2) = (e :: es, σ)
      rw [ih]

/-- Enumeration reads what is listed. -/
theorem entries_eq_readAll (σ : Store) (v : Value) : σ.entries v = readAll (σ.listed v) σ := by
  rcases σ.owner_cases v with ⟨a, rfl⟩ | ⟨hnot, ho | ⟨o, ho⟩⟩
  · have hfields := readAll_fields ((σ.items a).zipIdx.map fun (x, i) => (Key.index i, x)) σ
    rw [List.map_map] at hfields
    rw [listed_array]
    exact hfields.symm
  · rw [entries_of_not_array hnot, listed, own_of_objectOf?_none hnot ho, ho]
    rfl
  · rw [entries_of_not_array hnot, listed, own_of_objectOf? ho, ho]

/-! ## Prototypes -/

/-- The prototype of an object or a function is that of its object. -/
theorem parent?_of_objectOf? {o : Object} (ho : σ.objectOf? v = some o) :
    σ.parent? v = o.proto.map fun p => .ref (.object p) := by
  rw [parent?, ho, Option.bind_some]

/-- Prototypes are objects that were there before. -/
theorem Grounded.parent?_eq_some (hσ : σ.Grounded) (h : σ.parent? v = some u) :
    ∃ p q, u = .ref (.object p) ∧ σ.objects[p]? = some q ∧
      ∀ n, v = .ref (.object n) → p < n := by
  rw [parent?, Option.map_eq_some_iff] at h
  obtain ⟨p, hp, rfl⟩ := h
  obtain ⟨o, ho, hproto⟩ := Option.bind_eq_some_iff.1 hp
  have hn : p < σ.objects.size := (hσ.fits ho).proto hproto
  refine ⟨p, σ.objects[p], rfl, Array.getElem?_eq_getElem hn, ?_⟩
  rintro n rfl
  exact (hσ.objects ho).proto hproto

/-- What holds of a value if it holds of its prototype holds of all values. -/
theorem Grounded.induct_parents (hσ : σ.Grounded) {motive : Value → Prop}
    (h : ∀ v, (∀ u, σ.parent? v = some u → motive u) → motive v) (v : Value) : motive v := by
  have hobjects : ∀ n : Nat, motive (.ref (.object n)) := by
    intro n
    induction n using Nat.strongRecOn with
    | ind n ih =>
        refine h _ fun u hu => ?_
        obtain ⟨p, q, rfl, -, hbefore⟩ := hσ.parent?_eq_some hu
        exact ih p (hbefore n rfl)
  refine h v fun u hu => ?_
  obtain ⟨p, q, rfl, -⟩ := hσ.parent?_eq_some hu
  exact hobjects p

/-- The chain of an object goes on with that of its prototype, if it has one. -/
theorem Grounded.chain_cases (hσ : σ.Grounded) {o : Object} (ho : σ.objectOf? v = some o) :
    (σ.parent? v = none ∧ σ.chain o = [o]) ∨
      ∃ u q, σ.parent? v = some u ∧ σ.objectOf? u = some q ∧ σ.chain o = o :: σ.chain q := by
  have hparent := parent?_of_objectOf? ho
  cases hproto : o.proto with
  | none => exact .inl ⟨by rw [hparent, hproto, Option.map_none], chainWithin_of_proto_none hproto _⟩
  | some n =>
      have hn : n < σ.objects.size := (hσ.fits ho).proto hproto
      have hq : σ.objects[n]? = some σ.objects[n] := Array.getElem?_eq_getElem hn
      obtain ⟨d, hd⟩ : ∃ d, σ.objects.size = d + 1 := ⟨σ.objects.size - 1, by omega⟩
      -- one object less is room enough for what comes before it
      have hrest : σ.chain σ.objects[n] = σ.chainWithin d σ.objects[n] :=
        (Keeps.refl σ).chainWithin_eq hσ d _ (hσ.objects hq) (by omega) (by omega) (by omega)
      refine .inr ⟨.ref (.object n), σ.objects[n], by rw [hparent, hproto, Option.map_some], hq, ?_⟩
      rw [hrest, chain, hd, chainWithin, hproto, Option.bind_some, hq]

/-! ## Lineages and chains -/

theorem lineage_iff : σ.Lineage v w ↔ w = v ∨ ∃ u, σ.parent? v = some u ∧ σ.Lineage u w := by
  constructor
  · rintro (_ | ⟨up, above⟩)
    · exact .inl rfl
    · exact .inr ⟨_, up, above⟩
  · rintro (rfl | ⟨u, up, above⟩)
    · exact .self _
    · exact .parent up above

/-- The chain of the object behind a value is made of the objects in its lineage. -/
theorem Grounded.mem_chain_iff (hσ : σ.Grounded) (q : Object) (v : Value) :
    ∀ {o : Object}, σ.objectOf? v = some o →
      (q ∈ σ.chain o ↔ ∃ w, σ.Lineage v w ∧ σ.objectOf? w = some q) := by
  induction v using hσ.induct_parents with
  | h v ih =>
      intro o ho
      rcases hσ.chain_cases ho with ⟨htop, hchain⟩ | ⟨u, r, hparent, hr, hchain⟩
      · rw [hchain, List.mem_singleton]
        constructor
        · rintro rfl
          exact ⟨v, .self v, ho⟩
        · rintro ⟨w, hw, hq⟩
          rcases lineage_iff.1 hw with rfl | ⟨u, hu, -⟩
          · exact Option.some.inj (hq.symm.trans ho)
          · cases htop.symm.trans hu
      · rw [hchain, List.mem_cons, ih u hparent hr]
        constructor
        · rintro (rfl | ⟨w, hw, hq⟩)
          · exact ⟨v, .self v, ho⟩
          · exact ⟨w, .parent hparent hw, hq⟩
        · rintro ⟨w, hw, hq⟩
          rcases lineage_iff.1 hw with rfl | ⟨u', hu', above⟩
          · exact .inl (Option.some.inj (hq.symm.trans ho))
          · cases hparent.symm.trans hu'
            exact .inr ⟨w, above, hq⟩

/-- What the store finds for an object is what a lookup in its lineage finds. -/
theorem Grounded.findProperty_eq_some_iff (hσ : σ.Grounded) (k : Key) (p : Property) (v : Value) :
    ∀ {o : Object}, σ.objectOf? v = some o →
      (σ.findProperty o k = some p ↔ σ.Resolves k v p) := by
  induction v using hσ.induct_parents with
  | h v ih =>
      intro o ho
      have hown : (σ.own v).get? k = o.own? k := by rw [own_of_objectOf? ho, Object.own?]
      rw [findProperty]
      -- the value is the last of its chain, or the chain goes on with that of its parent
      rcases hσ.chain_cases ho with ⟨htop, hchain⟩ | ⟨u, r, hparent, hr, hchain⟩
      · rw [hchain, List.findSome?_singleton, ← hown]
        constructor
        · exact .own
        · rintro (here | ⟨-, up, -⟩)
          · exact here
          · cases htop.symm.trans up
      · rw [hchain, List.findSome?_cons, ← hown]
        have habove := ih u hparent hr
        rw [findProperty] at habove
        cases hget : (σ.own v).get? k with
        | none =>
            dsimp only
            rw [habove]
            constructor
            · -- what it does not own itself is found from its parent on
              exact .inherited hget hparent
            · rintro (here | ⟨-, up, above⟩)
              · cases hget.symm.trans here
              · cases hparent.symm.trans up
                exact above
        | some p' =>
            constructor
            · intro h
              exact .own (hget.trans h)
            · rintro (here | ⟨absent, -, -⟩)
              · exact hget.symm.trans here
              · cases hget.symm.trans absent

/-- A key is found exactly when some value in the lineage owns it. -/
theorem exists_resolves_iff (k : Key) (v : Value) :
    (∃ p, σ.Resolves k v p) ↔ ∃ w, σ.Lineage v w ∧ k ∈ (σ.own w).keys := by
  constructor
  · rintro ⟨p, hp⟩
    induction hp with
    | @own v p here => exact ⟨v, .self v, Assoc.get?_isSome_iff _ _ |>.1 (by rw [here]; rfl)⟩
    | inherited _ up _ ih =>
        obtain ⟨w, hw, hk⟩ := ih
        exact ⟨w, .parent up hw, hk⟩
  · rintro ⟨w, hw, hk⟩
    induction hw with
    | self v =>
        obtain ⟨p, hp⟩ := Option.isSome_iff_exists.1 ((Assoc.get?_isSome_iff _ _).2 hk)
        exact ⟨p, .own hp⟩
    | @parent u v w up _ ih =>
        obtain ⟨p, hp⟩ := ih hk
        cases hget : (σ.own v).get? k with
        | none => exact ⟨p, .inherited hget up hp⟩
        | some q => exact ⟨q, .own hget⟩

end StructuralMatch.Store
