import StructuralMatch.Proofs.Store.Permanence

/-! # What operations return is there

    In a grounded store every read gives a value that the store holds, and every
    iterator that is handed out has its cell.  A value gets an iterator exactly
    when it can be iterated over. -/

namespace StructuralMatch

namespace Store

variable {σ τ : Store}

/-! ## Properties -/

section NotArray

variable {v : Value} (h : ∀ a, v ≠ .ref (.array a))
include h

/-- Arrays apart, a value has the properties that are found for the object behind it. -/
theorem hasProperty_of_not_array (k : Key) :
    σ.hasProperty v k = ((σ.objectOf? v).bind fun o => σ.findProperty o k).isSome := by
  cases v with
  | prim p => rfl
  | ref r =>
      cases r with
      | array a => exact absurd rfl (h a)
      | _ =>
          simp only [hasProperty]
          split <;> simp [*]

/-- Their values are those of what is found. -/
theorem get_of_not_array (k : Key) :
    σ.get v k =
      match (σ.objectOf? v).bind fun o => σ.findProperty o k with
      | some p => σ.readProperty p
      | none => (.undefined, σ) := by
  cases v with
  | prim p => rfl
  | ref r =>
      cases r with
      | array a => exact absurd rfl (h a)
      | _ => rfl

/-- And its own are listed off that object. -/
theorem entries_of_not_array :
    σ.entries v =
      match σ.objectOf? v with
      | some o => readAll (o.properties.filter fun p => p.2.enumerable) σ
      | none => ([], σ) := by
  cases v with
  | prim p => rfl
  | ref r =>
      cases r with
      | array a => exact absurd rfl (h a)
      | _ => rfl

end NotArray

/-- Every object of a prototype chain fits. -/
theorem Grounded.fits_of_mem_chainWithin (hσ : σ.Grounded) :
    ∀ (depth : Nat) {o p : Object}, σ.Fits σ.objects.size o → p ∈ σ.chainWithin depth o →
      σ.Fits σ.objects.size p := by
  intro depth
  induction depth with
  | zero =>
      intro o p ho hp
      exact List.mem_singleton.1 hp ▸ ho
  | succ depth ih =>
      intro o p ho hp
      rw [chainWithin] at hp
      split at hp
      · exact List.mem_singleton.1 hp ▸ ho
      · rename_i q hq
        rcases List.mem_cons.1 hp with hp | hp
        · exact hp ▸ ho
        · obtain ⟨n, -, hn⟩ := Option.bind_eq_some_iff.1 hq
          exact ih (hσ.fits (v := .ref (.object n)) hn) hp

/-- A property that is found belongs to an object that fits. -/
theorem Grounded.exists_of_findProperty (hσ : σ.Grounded) {o : Object} {k : Key} {p : Property}
    (ho : σ.Fits σ.objects.size o) (hp : σ.findProperty o k = some p) :
    ∃ q : Object, σ.Fits σ.objects.size q ∧ (k, p) ∈ q.properties := by
  obtain ⟨q, hq, hown⟩ := List.exists_of_findSome?_eq_some hp
  exact ⟨q, hσ.fits_of_mem_chainWithin _ ho hq, Assoc.mem_of_get?_eq_some hown⟩

/-- An own property is what is found under its key. -/
theorem findProperty_of_mem (σ : Store) {o : Object} {k : Key} {p : Property}
    (hp : (k, p) ∈ o.properties) : σ.findProperty o k = some p := by
  have hown : o.own? k = some p := Assoc.get?_eq_some_of_mem o.nodup hp
  -- a prototype chain begins with the object itself
  have hchain : ∃ rest, σ.chain o = o :: rest := by
    rw [chain]
    cases σ.objects.size with
    | zero => exact ⟨[], rfl⟩
    | succ n =>
        rw [chainWithin]
        split
        · exact ⟨[], rfl⟩
        · exact ⟨_, rfl⟩
  obtain ⟨rest, hrest⟩ := hchain
  rw [findProperty, hrest, List.findSome?_cons, hown]

/-- An object without a prototype has its own properties only. -/
theorem mem_of_findProperty {o : Object} {k : Key} {p : Property} (ho : o.proto = none)
    (hp : σ.findProperty o k = some p) : (k, p) ∈ o.properties := by
  rw [findProperty, chain, chainWithin_of_proto_none ho, List.findSome?_singleton] at hp
  exact Assoc.mem_of_get?_eq_some hp

/-- The elements of an array are there. -/
theorem Grounded.holds_of_mem_items (hσ : σ.Grounded) {a : Nat} {x : Value}
    (hx : x ∈ σ.items a) : σ.holds x = true := by
  rw [items, Array.getD_eq_getD_getElem?] at hx
  cases ha : σ.arrays[a]? with
  | none => simp [ha] at hx
  | some xs =>
      rw [ha, Option.getD_some] at hx
      exact (hσ.arrays ha x hx).1

/-- What a getter returns is there. -/
theorem holds_runGetter (σ : Store) (g : Nat) :
    (σ.runGetter g).2.holds (σ.runGetter g).1 = true := by
  rw [runGetter]
  split
  · rfl
  · exact holds_vet _ _

/-- What a read returns is there. -/
theorem Fits.holds_readProperty {limit : Nat} {q : Object} {k : Key} {p : Property}
    (hq : σ.Fits limit q) (hp : (k, p) ∈ q.properties) :
    (σ.readProperty p).2.holds (σ.readProperty p).1 = true := by
  obtain ⟨slot, enumerable⟩ := p
  cases slot with
  | data v => exact hq.data hp
  | accessor g => exact holds_runGetter σ g

/-- What a read by key returns is there. -/
theorem Grounded.holds_get (hσ : σ.Grounded) (v : Value) (k : Key) :
    (σ.get v k).2.holds (σ.get v k).1 = true := by
  simp only [Store.get]
  split
  · rename_i a
    split
    · rfl
    · cases hx : element? (σ.items a) k with
      | none => rfl
      | some x =>
          obtain ⟨i, -, hi⟩ := Option.bind_eq_some_iff.1 hx
          exact hσ.holds_of_mem_items (List.mem_of_getElem? hi)
  · split
    · rename_i p hp
      obtain ⟨o, ho, hfind⟩ := Option.bind_eq_some_iff.1 hp
      obtain ⟨q, hq, hown⟩ := hσ.exists_of_findProperty (hσ.fits ho) hfind
      exact hq.holds_readProperty hown
    · rfl

/-! ## Iterators -/

/-- The iterator that a factory hands out is there. -/
theorem supply_lt (σ : Store) (handed : Supply) :
    (σ.supply handed).1 < (σ.supply handed).2.iterators.size := by
  cases handed with
  | fresh plan =>
      obtain ⟨kind, source, label⟩ := plan
      simp [supply, IteratorPlan.build, newIterator]
  | existing i =>
      rw [supply]
      split
      · assumption
      · simp [newIterator]

/-- The iterator that is made for a value is there. -/
theorem iterate_lt {v : Value} {i : Nat} (hv : σ.holds v = true)
    (h : (σ.iterate v).1 = some i) : i < (σ.iterate v).2.iterators.size := by
  simp only [iterate] at h ⊢
  split at h
  · rename_i j
    simp only [Option.some.injEq] at h
    simpa [Store.holds, h] using hv
  · simp only [Option.some.injEq] at h
    simp [← h, newIterator]
  · simp only [Option.some.injEq] at h
    simp [← h, newIterator]
  · split at h
    · rename_i f _
      rw [runFactory] at h ⊢
      split at h
      · cases h
      · simp only [Option.some.injEq] at h
        exact h ▸ supply_lt _ _
    · cases h
  · cases h

/-- The iterator that is made for a value is a value that is there. -/
theorem holds_of_iterate {v : Value} {i : Nat} (hv : σ.holds v = true)
    (h : σ.iterate v = (some i, τ)) : τ.holds (.ref (.iterator i)) = true := by
  have hi := iterate_lt hv (i := i) (by rw [h])
  rw [h] at hi
  simpa [Store.holds] using hi

/-- What gets no iterator is left alone. -/
theorem iterate_eq_of_none {v : Value} (h : (σ.iterate v).1 = none) : (σ.iterate v).2 = σ := by
  simp only [iterate] at h ⊢
  split at h
  · rfl
  · simp at h
  · simp at h
  · split at h
    · rw [runFactory] at h ⊢
      split at h
      · rfl
      · simp at h
    · rfl
  · rfl

/-- Exactly what can be iterated over gets an iterator. -/
theorem Grounded.isSome_iterate (hσ : σ.Grounded) (v : Value) :
    (σ.iterate v).1.isSome = σ.isIterable v := by
  cases v with
  | prim p => cases p <;> rfl
  | ref r =>
      cases r with
      | object o =>
          cases hf : (σ.object o).factory with
          | none => simp only [iterate, hf, isIterable]
          | some f =>
              have ho : σ.objects[o]? = some (σ.object o) := by
                cases ho : σ.objects[o]? with
                | none => simp [object, Array.getD_eq_getD_getElem?, ho] at hf
                | some ob => simp [object, Array.getD_eq_getD_getElem?, ho]
              -- the factory is there, since the object that mentions it is grounded
              have hlt : f < σ.factories.size := (hσ.objects ho).factory hf
              simp only [iterate, hf, isIterable, runFactory, Array.getElem?_eq_getElem hlt]
              rfl
      | _ => rfl

end Store

end StructuralMatch
