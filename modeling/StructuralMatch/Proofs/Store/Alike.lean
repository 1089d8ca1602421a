import StructuralMatch.Proofs.Store.Apart
import StructuralMatch.Store.Describe

/-! # Stores that differ in one iterator

    An iterator over some values can come about in several ways: over an array, as a
    generator, from a factory.  Two stores are alike when they differ in nothing but
    where the iterator of one cell has its values from, and what it calls itself
    (`Store.Alike`).  A factory may have run more often in one of them if it hands out the
    same on every run, and the traces may differ.

    Every operation on stores gives the same in both and leaves them alike
    (`Store.Together`).  What a value turns into as text shows what an iterator calls
    itself, so there the iterator must be out of reach (`Alike.text_eq`). -/

namespace StructuralMatch

/-! ## Entry by entry -/

/-- Two arrays of one size, the entries of which are related. -/
structure Entrywise {α β : Type} (R : Nat → α → β → Prop) (xs : Array α) (ys : Array β) : Prop where
  size : ys.size = xs.size
  related : ∀ {i x y}, xs[i]? = some x → ys[i]? = some y → R i x y

namespace Entrywise

variable {α β : Type} {R : Nat → α → β → Prop} {xs : Array α} {ys : Array β}

/-- Either cell is missing, or both are there and related. -/
theorem cases (h : Entrywise R xs ys) (i : Nat) :
    (xs[i]? = none ∧ ys[i]? = none) ∨ ∃ x y, xs[i]? = some x ∧ ys[i]? = some y ∧ R i x y := by
  by_cases hi : i < xs.size
  · have hx := Array.getElem?_eq_getElem hi
    have hi' : i < ys.size := h.size ▸ hi
    have hy := Array.getElem?_eq_getElem hi'
    exact .inr ⟨_, _, hx, hy, h.related hx hy⟩
  · exact .inl ⟨Array.getElem?_eq_none (Nat.le_of_not_lt hi),
      Array.getElem?_eq_none (h.size ▸ Nat.le_of_not_lt hi)⟩

/-- Related entries go to the ends. -/
theorem push (h : Entrywise R xs ys) {x : α} {y : β} (hxy : R xs.size x y) :
    Entrywise R (xs.push x) (ys.push y) where
  size := by rw [Array.size_push, Array.size_push, h.size]
  related := by
    intro i a b ha hb
    rw [Array.getElem?_push] at ha hb
    rw [h.size] at hb
    split at ha
    · rename_i hi
      rw [if_pos hi] at hb
      cases ha
      cases hb
      exact hi ▸ hxy
    · rename_i hi
      rw [if_neg hi] at hb
      exact h.related ha hb

/-- Related entries replace those of one place. -/
theorem set (h : Entrywise R xs ys) {k : Nat} {x : α} {y : β} (hxy : R k x y) :
    Entrywise R (xs.setIfInBounds k x) (ys.setIfInBounds k y) where
  size := by rw [Array.size_setIfInBounds, Array.size_setIfInBounds, h.size]
  related := by
    intro i a b ha hb
    rw [Array.getElem?_setIfInBounds] at ha hb
    rw [h.size] at hb
    split at ha
    · rename_i hi
      rw [if_pos hi] at hb
      split at ha
      · rename_i hlt
        rw [if_pos hlt] at hb
        cases ha
        cases hb
        exact hi ▸ hxy
      · cases ha
    · rename_i hi
      rw [if_neg hi] at hb
      exact h.related ha hb

end Entrywise

/-! ## Sources and factories -/

/-- Sources that give the same: they are the same, or have the same values to give. -/
inductive Source.Like : Source → Source → Prop where
  | same (source : Source) : Like source source
  | lists {source source' : Source} {xs : List Value} (here : source.Lists xs)
      (there : source'.Lists xs) : Like source source'

/-! ## Stores -/

/-- Iterators that give the same; unless it is hidden, they are of one kind. -/
structure Iterator.Like (hidden : Prop) (it it' : Iterator) : Prop where
  source : Option.Rel Source.Like it.source it'.source
  closed : it'.closed = it.closed
  kind : ¬ hidden → it'.kind = it.kind

/-- A factory that hands out the same on every run. -/
def Factory.Steady (f : Factory) (handed : Supply) : Prop := ∀ run, (f.body run).Gives handed

/-- Factories that do the same; one that hands out the same on every run may have run more
    often. -/
structure Factory.Like (f f' : Factory) : Prop where
  body : f'.body = f.body
  runs : f'.runs = f.runs ∨ ∃ handed, f.Steady handed

/-- An iterator gives what it gives. -/
theorem Iterator.Like.refl (hidden : Prop) (it : Iterator) : it.Like hidden it where
  source := by
    cases it.source with
    | none => exact .none
    | some source => exact .some (.same source)
  closed := rfl
  kind := fun _ => rfl

/-- A factory does what it does. -/
theorem Factory.Like.refl (f : Factory) : f.Like f := ⟨rfl, .inl rfl⟩

namespace Store

/-- The stores differ in nothing but the source and the kind of one iterator, the runs of
    factories that hand out the same on every run, and their traces. -/
structure Alike (n : Nat) (σ τ : Store) : Prop where
  arrays : τ.arrays = σ.arrays
  objects : τ.objects = σ.objects
  functions : τ.functions = σ.functions
  getters : τ.getters = σ.getters
  iterators : Entrywise (fun i it it' => it.Like (i = n) it') σ.iterators τ.iterators
  factories : Entrywise (fun _ f f' => f.Like f') σ.factories τ.factories

/-- Two runs that give the same and leave alike stores. -/
structure Together (n : Nat) {α : Type} (x y : α × Store) : Prop where
  result : y.1 = x.1
  alike : Alike n x.2 y.2

variable {n : Nat} {σ τ : Store} {α β : Type}

/-- A store is like itself. -/
theorem Alike.refl (n : Nat) (σ : Store) : Alike n σ σ where
  arrays := rfl
  objects := rfl
  functions := rfl
  getters := rfl
  iterators := by
    refine ⟨rfl, ?_⟩
    intro i it it' h h'
    cases h.symm.trans h'
    exact .refl _ it
  factories := by
    refine ⟨rfl, ?_⟩
    intro k f f' h h'
    cases h.symm.trans h'
    exact .refl f

/-- Both runs go on with what they have got. -/
theorem Together.bind {x y : α × Store} (h : Together n x y) (f : α → Store → β × Store)
    (hf : ∀ (a : α) {σ τ : Store}, Alike n σ τ → Together n (f a σ) (f a τ)) :
    Together n (f x.1 x.2) (f y.1 y.2) := by
  rw [h.result]
  exact hf x.1 h.alike

/-- Both runs give something that depends on what they have got. -/
theorem Together.map {x y : α × Store} (h : Together n x y) (f : α → β) :
    Together n (f x.1, x.2) (f y.1, y.2) := ⟨congrArg f h.result, h.alike⟩

/-! ### Looking -/

/-- Arrays have the same elements. -/
theorem Alike.items_eq (h : Alike n σ τ) (a : Nat) : τ.items a = σ.items a := by
  rw [items, h.arrays, items]

theorem Alike.object_eq (h : Alike n σ τ) (o : Nat) : τ.object o = σ.object o := by
  rw [object, h.objects, object]

/-- Objects and functions have the same properties. -/
theorem Alike.objectOf?_eq (h : Alike n σ τ) (v : Value) : τ.objectOf? v = σ.objectOf? v := by
  rw [objectOf?.eq_def, objectOf?.eq_def, h.objects, h.functions]

/-- The same references are there. -/
theorem Alike.holds_eq (h : Alike n σ τ) (v : Value) : τ.holds v = σ.holds v := by
  rw [holds.eq_def, holds.eq_def, h.arrays, h.objects, h.functions, h.iterators.size]

/-- So the same values pass. -/
theorem Alike.vet_eq (h : Alike n σ τ) : τ.vet = σ.vet := by
  funext v
  rw [vet, h.holds_eq, vet]

/-- An object is vetted in the same way: there are as many getters, objects and factories. -/
theorem Alike.vetObject_eq (h : Alike n σ τ) (o : Object) : τ.vetObject o = σ.vetObject o := by
  have hproperty : τ.vetProperty = σ.vetProperty := by
    funext p
    rw [vetProperty.eq_def, vetProperty.eq_def, h.vet_eq, h.getters]
  simp only [vetObject, hproperty, h.objects, h.factories.size]

/-- The prototypes of an object are the same. -/
theorem Alike.chainWithin_eq (h : Alike n σ τ) (depth : Nat) :
    ∀ o : Object, τ.chainWithin depth o = σ.chainWithin depth o := by
  induction depth with
  | zero => exact fun _ => rfl
  | succ depth ih =>
      intro o
      rw [chainWithin, chainWithin, h.objects]
      split
      · rfl
      · rw [ih]

/-- A property is found on the same prototype. -/
theorem Alike.findProperty_eq (h : Alike n σ τ) (o : Object) (k : Key) :
    τ.findProperty o k = σ.findProperty o k := by
  rw [findProperty, chain, h.objects, h.chainWithin_eq, findProperty, chain]

theorem Alike.hasProperty_eq (h : Alike n σ τ) (v : Value) (k : Key) :
    τ.hasProperty v k = σ.hasProperty v k := by
  simp only [hasProperty, h.items_eq, h.objectOf?_eq, h.findProperty_eq]

/-- A value that does not lead to the iterator turns into the same text. -/
theorem Alike.textWithin_eq {hidden : Hidden} (h : Alike n σ τ)
    (hn : hidden.refs (.iterator n)) (hσ : σ.Guards n hidden) (depth : Nat) :
    ∀ v : Value, v.Apart hidden → τ.textWithin depth v = σ.textWithin depth v := by
  have hlabel : ∀ i, ¬ hidden.refs (.iterator i) → τ.iteratorLabel i = σ.iteratorLabel i := by
    intro i hi
    rw [iteratorLabel, iteratorLabel]
    rcases h.iterators.cases i with ⟨hσ, hτ⟩ | ⟨it, it', hσ, hτ, hlike⟩
    · rw [hσ, hτ]
    · -- only the iterator that is hidden calls itself something else
      have hne : i ≠ n := fun e => hi (e ▸ hn)
      rw [hσ, hτ, Option.map_some, Option.map_some, hlike.kind hne]
  have hname : ∀ f, τ.functionName f = σ.functionName f := by
    intro f
    rw [functionName, h.functions, functionName]
  induction depth with
  | zero =>
      intro v hv
      cases v with
      | prim p => rfl
      | ref r =>
          cases r with
          | array a => rfl
          | object o => rfl
          | function f => simp only [textWithin, hname]
          | iterator i => simp only [textWithin, hlabel i hv]
  | succ depth ih =>
      intro v hv
      cases v with
      | prim p => rfl
      | ref r =>
          cases r with
          | object o => rfl
          | function f => simp only [textWithin, hname]
          | iterator i => simp only [textWithin, hlabel i hv]
          | array a =>
              -- the elements of an array that is in reach are in reach
              simp only [textWithin, h.items_eq]
              refine congrArg _ (List.map_congr_left fun w hw => ?_)
              split
              · rfl
              · rfl
              · exact ih w (hσ.items_apart hv w hw)

/-- The whole text is the same. -/
theorem Alike.text_eq {hidden : Hidden} (h : Alike n σ τ) (hn : hidden.refs (.iterator n))
    (hσ : σ.Guards n hidden) {v : Value} (hv : v.Apart hidden) : τ.text v = σ.text v := by
  rw [text, h.arrays, h.textWithin_eq hn hσ _ v hv, text]

/-! ### Changing -/

/-- What was recorded makes no difference. -/
theorem Alike.retrace (h : Alike n σ τ) (trace trace' : Array Event) :
    Alike n { σ with trace := trace } { τ with trace := trace' } :=
  ⟨h.arrays, h.objects, h.functions, h.getters, h.iterators, h.factories⟩

theorem Alike.record (h : Alike n σ τ) (e e' : Event) : Alike n (σ.record e) (τ.record e') :=
  h.retrace _ _

/-- Iterators that give the same are put in one place. -/
theorem Alike.setIterator (h : Alike n σ τ) (i : Nat) {it it' : Iterator}
    (hit : it.Like (i = n) it') : Alike n (σ.setIterator i it) (τ.setIterator i it') :=
  ⟨h.arrays, h.objects, h.functions, h.getters, h.iterators.set hit, h.factories⟩

/-- A new array has the same name and the same elements. -/
theorem newArray_together (items : List Value) (h : Alike n σ τ) :
    Together n (σ.newArray items) (τ.newArray items) := by
  refine ⟨?_, ⟨?_, h.objects, h.functions, h.getters, h.iterators, h.factories⟩⟩
  · simp only [newArray, h.arrays]
  · simp only [newArray, h.arrays, h.vet_eq]

/-- A new object has the same name and the same properties. -/
theorem newObject_together (o : Object) (h : Alike n σ τ) :
    Together n (σ.newObject o) (τ.newObject o) := by
  refine ⟨?_, ⟨h.arrays, ?_, h.functions, h.getters, h.iterators, h.factories⟩⟩
  · simp only [newObject, h.objects]
  · simp only [newObject, h.objects, h.vetObject_eq]

theorem newFunction_together (f : Function) (h : Alike n σ τ) :
    Together n (σ.newFunction f) (τ.newFunction f) := by
  refine ⟨?_, ⟨h.arrays, h.objects, ?_, h.getters, h.iterators, h.factories⟩⟩
  · simp only [newFunction, h.functions]
  · simp only [newFunction, h.functions, h.vetObject_eq]

theorem newGetter_together (g : Getter) (h : Alike n σ τ) :
    Together n (σ.newGetter g) (τ.newGetter g) := by
  refine ⟨?_, ⟨h.arrays, h.objects, h.functions, ?_, h.iterators, h.factories⟩⟩
  · simp only [newGetter, h.getters]
  · simp only [newGetter, h.getters]

/-- A new iterator is the same in both. -/
theorem newIterator_together (it : Iterator) (h : Alike n σ τ) :
    Together n (σ.newIterator it) (τ.newIterator it) where
  result := h.iterators.size
  alike := ⟨h.arrays, h.objects, h.functions, h.getters, h.iterators.push (.refl _ it), h.factories⟩

theorem newFactory_together (f : Factory) (h : Alike n σ τ) :
    Together n (σ.newFactory f) (τ.newFactory f) where
  result := h.factories.size
  alike := ⟨h.arrays, h.objects, h.functions, h.getters, h.iterators, h.factories.push (.refl f)⟩

/-- And so is the factory of a plan. -/
theorem newFactory?_together (plan : Option IteratorPlan) (h : Alike n σ τ) :
    Together n (σ.newFactory? plan) (τ.newFactory? plan) := by
  cases plan with
  | none => exact ⟨rfl, h⟩
  | some plan => exact (newFactory_together _ h).map some

end Store

end StructuralMatch
