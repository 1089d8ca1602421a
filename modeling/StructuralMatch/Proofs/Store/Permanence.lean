import Mathlib
import StructuralMatch.Store.Course
import StructuralMatch.Store.Describe

/-! # What a store keeps

    Cells are never taken away, and arrays, objects and functions never change, so
    whatever is read off them (which keys a value has, what text it turns into)
    stays true however the store goes on.  This needs one invariant: a cell refers
    only to what was there before it (`Grounded`).  Then no reference ever comes to
    stand for a cell that is made later, and following prototypes or nested arrays
    takes no more steps than there were cells.

    Both halves are proved of a single change and carried along runs:
    `Reaches.keeps` and `Reaches.grounded`. -/

namespace StructuralMatch

namespace Store

variable {P : Event → Prop} {σ τ υ : Store}

/-! ## Cells stay -/

/-- What may become of an iterator: exhaustion and closing are final. -/
structure IteratorKeeps (it it' : Iterator) : Prop where
  kind : it'.kind = it.kind
  spent : it.source = none → it'.source = none
  closed : it.closed = true → it'.closed = true

theorem IteratorKeeps.refl (it : Iterator) : IteratorKeeps it it := ⟨rfl, id, id⟩

theorem IteratorKeeps.trans {a b c : Iterator} (h₁ : IteratorKeeps a b)
    (h₂ : IteratorKeeps b c) : IteratorKeeps a c :=
  ⟨h₂.kind.trans h₁.kind, h₂.spent ∘ h₁.spent, h₂.closed ∘ h₁.closed⟩

/-- An iterator that was live keeps its kind and its being open or closed when its
    source is polled. -/
theorem IteratorKeeps.after {it : Iterator} (live : it.source.isSome) (output : Option Value)
    (rest : Source) : IteratorKeeps it (it.after output rest) := by
  have hlive : it.source ≠ none := Option.isSome_iff_ne_none.1 live
  cases output with
  | none => exact ⟨rfl, fun _ => rfl, id⟩
  | some v => exact ⟨rfl, fun h => absurd h hlive, id⟩

/-- Every cell of the one store is a cell of the other, with the same contents as far
    as they cannot change. -/
structure Keeps (σ τ : Store) : Prop where
  arrays : ∀ {a : Nat} {xs : List Value}, σ.arrays[a]? = some xs → τ.arrays[a]? = some xs
  objects : ∀ {o : Nat} {ob : Object}, σ.objects[o]? = some ob → τ.objects[o]? = some ob
  functions : ∀ {f : Nat} {fn : Function},
    σ.functions[f]? = some fn → τ.functions[f]? = some fn
  iterators : ∀ {i : Nat} {it : Iterator}, σ.iterators[i]? = some it →
    ∃ it', τ.iterators[i]? = some it' ∧ IteratorKeeps it it'
  getters : σ.getters.size ≤ τ.getters.size
  factories : σ.factories.size ≤ τ.factories.size

theorem Keeps.refl (σ : Store) : σ.Keeps σ :=
  ⟨id, id, id, fun {_ it} h => ⟨it, h, .refl it⟩, Nat.le_refl _, Nat.le_refl _⟩

theorem Keeps.trans (h₁ : σ.Keeps τ) (h₂ : τ.Keeps υ) : σ.Keeps υ where
  arrays := h₂.arrays ∘ h₁.arrays
  objects := h₂.objects ∘ h₁.objects
  functions := h₂.functions ∘ h₁.functions
  iterators := fun h => by
    obtain ⟨it', h', hk⟩ := h₁.iterators h
    obtain ⟨it'', h'', hk'⟩ := h₂.iterators h'
    exact ⟨it'', h'', hk.trans hk'⟩
  getters := Nat.le_trans h₁.getters h₂.getters
  factories := Nat.le_trans h₁.factories h₂.factories

/-- What was found in an array is found after an element is added. -/
theorem getElem?_push_of_some {α : Type} {xs : Array α} {i : Nat} {x y : α}
    (h : xs[i]? = some x) : (xs.push y)[i]? = some x := by
  have hi : i < xs.size := (Array.getElem?_eq_some_iff.1 h).1
  rw [Array.getElem?_push, if_neg (Nat.ne_of_lt hi), h]

/-- Replacing an iterator by what it may become keeps the cells. -/
theorem keeps_setIterator {i : Nat} {it it' : Iterator} (here : σ.iterators[i]? = some it)
    (hk : IteratorKeeps it it') (e : Event) : σ.Keeps ((σ.setIterator i it').record e) where
  arrays := id
  objects := id
  functions := id
  iterators := fun {j jt} hj => by
    by_cases hij : i = j
    · subst hij
      rw [here, Option.some.injEq] at hj
      subst hj
      have hi : i < σ.iterators.size := (Array.getElem?_eq_some_iff.1 here).1
      exact ⟨it', by simp [setIterator, hi], hk⟩
    · exact ⟨jt, (getElem?_setIterator_of_ne hij it').trans hj, .refl jt⟩
  getters := Nat.le_refl _
  factories := Nat.le_refl _

/-- A change keeps the cells. -/
theorem Change.keeps (h : Change P σ τ) : σ.Keeps τ := by
  have hsame : ∀ {i : Nat} {it : Iterator}, σ.iterators[i]? = some it →
      ∃ it', σ.iterators[i]? = some it' ∧ IteratorKeeps it it' :=
    fun {_ it} h => ⟨it, h, .refl it⟩
  cases h with
  | array items =>
      exact ⟨getElem?_push_of_some, id, id, hsame, Nat.le_refl _, Nat.le_refl _⟩
  | object o =>
      exact ⟨id, getElem?_push_of_some, id, hsame, Nat.le_refl _, Nat.le_refl _⟩
  | function f =>
      exact ⟨id, id, getElem?_push_of_some, hsame, Nat.le_refl _, Nat.le_refl _⟩
  | iterator it fresh =>
      exact ⟨id, id, id, fun {_ jt} h => ⟨jt, getElem?_push_of_some h, .refl jt⟩,
        Nat.le_refl _, Nat.le_refl _⟩
  | getter g => exact ⟨id, id, id, hsame, by simp [newGetter], Nat.le_refl _⟩
  | factory f => exact ⟨id, id, id, hsame, Nat.le_refl _, by simp [newFactory]⟩
  | startGetter cell g allowed =>
      exact ⟨id, id, id, hsame, by simp [Store.startGetter], Nat.le_refl _⟩
  | startFactory cell f iterable allowed =>
      exact ⟨id, id, id, hsame, Nat.le_refl _, by simp [Store.startFactory]⟩
  | poll i it output rest here live allowed =>
      exact keeps_setIterator here (.after live output rest) _
  | close i it here isOpen allowed =>
      have hclosed : IteratorKeeps it { it with source := none, closed := true } :=
        ⟨rfl, fun _ => rfl, fun _ => rfl⟩
      exact keeps_setIterator here hclosed _
  | remark e isRemark allowed => exact ⟨id, id, id, hsame, Nat.le_refl _, Nat.le_refl _⟩

/-- A run keeps the cells. -/
theorem Reaches.keeps (h : σ.Reaches P τ) : σ.Keeps τ := by
  induction h with
  | refl => exact .refl σ
  | tail _ last ih => exact ih.trans last.keeps

/-- What is there stays there. -/
theorem Keeps.holds (hk : σ.Keeps τ) {v : Value} (h : σ.holds v = true) :
    τ.holds v = true := by
  have hsize : ∀ {α β : Type} {xs : Array α} {ys : Array β} {i : Nat},
      (∀ x, xs[i]? = some x → ∃ y, ys[i]? = some y) → i < xs.size → i < ys.size := by
    intro α β xs ys i hget hi
    obtain ⟨y, hy⟩ := hget xs[i] (Array.getElem?_eq_getElem hi)
    exact (Array.getElem?_eq_some_iff.1 hy).1
  cases v with
  | prim p => rfl
  | ref r =>
      cases r <;> simp only [Store.holds, decide_eq_true_eq] at h ⊢
      · exact hsize (fun x hx => ⟨x, hk.arrays hx⟩) h
      · exact hsize (fun x hx => ⟨x, hk.objects hx⟩) h
      · exact hsize (fun x hx => ⟨x, hk.functions hx⟩) h
      · exact hsize (fun x hx => (hk.iterators hx).imp fun _ => And.left) h

/-! ## Cells refer to earlier ones -/

/-- An object all of whose parts are there, and whose prototype lies before `limit`. -/
structure Fits (σ : Store) (limit : Nat) (o : Object) : Prop where
  data : ∀ {k : Key} {v : Value} {e : Bool},
    (k, ⟨.data v, e⟩) ∈ o.properties → σ.holds v = true
  accessor : ∀ {k : Key} {g : Nat} {e : Bool},
    (k, ⟨.accessor g, e⟩) ∈ o.properties → g < σ.getters.size
  proto : ∀ {p : Nat}, o.proto = some p → p < limit
  factory : ∀ {f : Nat}, o.factory = some f → f < σ.factories.size

/-- No cell refers to one that was not there before it. -/
structure Grounded (σ : Store) : Prop where
  arrays : ∀ {a : Nat} {xs : List Value}, σ.arrays[a]? = some xs →
    ∀ x ∈ xs, σ.holds x = true ∧ ∀ b : Nat, x = .ref (.array b) → b < a
  objects : ∀ {o : Nat} {ob : Object}, σ.objects[o]? = some ob → σ.Fits o ob
  functions : ∀ {f : Nat} {fn : Function},
    σ.functions[f]? = some fn → σ.Fits σ.objects.size fn.object

/-- The store in which nothing has been made. -/
theorem grounded_empty : empty.Grounded :=
  ⟨by simp [empty], by simp [empty], by simp [empty]⟩

/-- Where all cells of the one array are in the other, there are as many at least. -/
theorem size_le_of_getElem? {α : Type} {xs ys : Array α}
    (h : ∀ {i : Nat} {x : α}, xs[i]? = some x → ys[i]? = some x) : xs.size ≤ ys.size := by
  refine Nat.le_of_not_lt fun hlt => ?_
  have hlast := h (Array.getElem?_eq_getElem hlt)
  exact Nat.lt_irrefl _ (Array.getElem?_eq_some_iff.1 hlast).1

/-- The number of objects never drops. -/
theorem Keeps.objects_size (hk : σ.Keeps τ) : σ.objects.size ≤ τ.objects.size :=
  size_le_of_getElem? hk.objects

/-- The number of arrays never drops. -/
theorem Keeps.arrays_size (hk : σ.Keeps τ) : σ.arrays.size ≤ τ.arrays.size :=
  size_le_of_getElem? hk.arrays

/-- An object that fits goes on fitting. -/
theorem Fits.keeps {limit limit' : Nat} {o : Object} (h : σ.Fits limit o) (hk : σ.Keeps τ)
    (hlimit : limit ≤ limit') : τ.Fits limit' o where
  data := fun hd => hk.holds (h.data hd)
  accessor := fun ha => Nat.lt_of_lt_of_le (h.accessor ha) hk.getters
  proto := fun hp => Nat.lt_of_lt_of_le (h.proto hp) hlimit
  factory := fun hf => Nat.lt_of_lt_of_le (h.factory hf) hk.factories

/-- A vetted object fits. -/
theorem fits_vetObject (σ : Store) (o : Object) : σ.Fits σ.objects.size (σ.vetObject o) where
  data := by
    intro k v e h
    obtain ⟨⟨k', p⟩, -, hp⟩ := List.mem_map.1 h
    simp only [vetProperty, Prod.mk.injEq] at hp
    obtain ⟨-, hp⟩ := hp
    split at hp
    · simp only [Property.mk.injEq, Slot.data.injEq] at hp
      rw [← hp.1]
      exact holds_vet σ _
    · split at hp
      · simp_all
      · simp only [Property.mk.injEq, Slot.data.injEq] at hp
        rw [← hp.1]
        rfl
  accessor := by
    intro k g e h
    obtain ⟨⟨k', p⟩, -, hp⟩ := List.mem_map.1 h
    simp only [vetProperty, Prod.mk.injEq] at hp
    obtain ⟨-, hp⟩ := hp
    split at hp
    · simp at hp
    · split at hp
      · simp_all
      · simp at hp
  proto := by
    intro p h
    simpa using (Option.filter_eq_some_iff.1 h).2
  factory := by
    intro f h
    simpa using (Option.filter_eq_some_iff.1 h).2

/-- What holds of the cells of an array and of a new one holds of all with the new one. -/
theorem forall_push {α : Type} {xs : Array α} {y : α} {Q : Nat → α → Prop}
    (old : ∀ {i x}, xs[i]? = some x → Q i x) (new : Q xs.size y) {i : Nat} {x : α}
    (h : (xs.push y)[i]? = some x) : Q i x := by
  rw [Array.getElem?_push] at h
  split at h
  · rename_i hi
    cases h
    exact hi ▸ new
  · exact old h

/-- What holds of the cells of an array and of one that replaces another holds of all after
    the replacement. -/
theorem forall_set {α : Type} {xs : Array α} {k : Nat} {y : α} {Q : Nat → α → Prop}
    (old : ∀ {i x}, xs[i]? = some x → Q i x) (new : Q k y) {i : Nat} {x : α}
    (h : (xs.setIfInBounds k y)[i]? = some x) : Q i x := by
  rw [Array.getElem?_setIfInBounds] at h
  split at h
  · rename_i hi
    split at h
    · cases h
      exact hi ▸ new
    · cases h
  · exact old h

/-- A change leaves every cell grounded. -/
theorem Change.grounded (h : Change P σ τ) (hσ : σ.Grounded) : τ.Grounded := by
  have hk := h.keeps
  have harrays : ∀ {a : Nat} {xs : List Value}, σ.arrays[a]? = some xs →
      ∀ x ∈ xs, τ.holds x = true ∧ ∀ b : Nat, x = .ref (.array b) → b < a :=
    fun ha x hx => ⟨hk.holds (hσ.arrays ha x hx).1, (hσ.arrays ha x hx).2⟩
  have hobjects : ∀ {o : Nat} {ob : Object}, σ.objects[o]? = some ob → τ.Fits o ob :=
    fun ho => (hσ.objects ho).keeps hk (Nat.le_refl _)
  have hfunctions : ∀ {f : Nat} {fn : Function},
      σ.functions[f]? = some fn → τ.Fits τ.objects.size fn.object :=
    fun hf => (hσ.functions hf).keeps hk hk.objects_size
  cases h with
  | array items =>
      refine ⟨forall_push harrays ?_, hobjects, hfunctions⟩
      intro x hx
      obtain ⟨y, -, rfl⟩ := List.mem_map.1 hx
      have hy : σ.holds (σ.vet y) = true := holds_vet σ y
      -- a vetted element was there before the array, so if it is an array it is an earlier one
      refine ⟨hk.holds hy, ?_⟩
      intro b hb
      rw [hb] at hy
      simpa [Store.holds] using hy
  | object o =>
      exact ⟨harrays, forall_push hobjects ((fits_vetObject σ o).keeps hk (Nat.le_refl _)),
        hfunctions⟩
  | function f =>
      have hnew : Fits _ _ (σ.vetObject f.object) :=
        (fits_vetObject σ f.object).keeps hk (Nat.le_refl _)
      exact ⟨harrays, hobjects, forall_push (y := { f with object := σ.vetObject f.object })
        (Q := fun _ fn => (σ.newFunction f).2.Fits σ.objects.size fn.object) hfunctions hnew⟩
  | _ => exact ⟨harrays, hobjects, hfunctions⟩

/-- A run leaves every cell grounded. -/
theorem Reaches.grounded (h : σ.Reaches P τ) (hσ : σ.Grounded) : τ.Grounded := by
  induction h with
  | refl => exact hσ
  | tail _ last ih => exact last.grounded ih

/-! ## What is read off the cells stays -/

/-- The elements of an array that is there stay. -/
theorem Keeps.items_eq (hk : σ.Keeps τ) {a : Nat} (ha : σ.holds (.ref (.array a)) = true) :
    τ.items a = σ.items a := by
  simp only [Store.holds, decide_eq_true_eq] at ha
  have hget : σ.arrays[a]? = some σ.arrays[a] := Array.getElem?_eq_getElem ha
  simp [items, Array.getD_eq_getD_getElem?, hget, hk.arrays hget]

/-- The object behind a value that is there stays. -/
theorem Keeps.objectOf?_eq (hk : σ.Keeps τ) {v : Value} (hv : σ.holds v = true) :
    τ.objectOf? v = σ.objectOf? v := by
  cases v with
  | prim p => rfl
  | ref r =>
      cases r <;> simp only [Store.holds, decide_eq_true_eq] at hv <;> simp only [objectOf?]
      · rename_i o
        have hget := Array.getElem?_eq_getElem hv
        rw [hget, hk.objects hget]
      · rename_i f
        have hget := Array.getElem?_eq_getElem hv
        rw [hget, hk.functions hget]

/-- The object of a cell that is there stays. -/
theorem Keeps.object_eq (hk : σ.Keeps τ) {o : Nat} (ho : σ.holds (.ref (.object o)) = true) :
    τ.object o = σ.object o := by
  simp only [Store.holds, decide_eq_true_eq] at ho
  have hget : σ.objects[o]? = some σ.objects[o] := Array.getElem?_eq_getElem ho
  simp [object, Array.getD_eq_getD_getElem?, hget, hk.objects hget]

/-- The object behind a value fits, with a prototype that is there. -/
theorem Grounded.fits (hσ : σ.Grounded) {v : Value} {o : Object}
    (h : σ.objectOf? v = some o) : σ.Fits σ.objects.size o := by
  cases v with
  | prim p => simp [objectOf?] at h
  | ref r =>
      cases r with
      | object n =>
          have hn : n < σ.objects.size := (Array.getElem?_eq_some_iff.1 h).1
          exact (hσ.objects h).keeps (.refl σ) (Nat.le_of_lt hn)
      | function f =>
          obtain ⟨fn, hf, rfl⟩ := Option.map_eq_some_iff.1 h
          exact hσ.functions hf
      | _ => simp [objectOf?] at h

/-- An object with no room for a prototype is a chain of its own. -/
theorem chainWithin_of_proto_none {o : Object} (h : o.proto = none) (depth : Nat) :
    σ.chainWithin depth o = [o] := by
  cases depth <;> simp [chainWithin, h]

/-- Following prototypes takes no more steps than there are objects before them, so it
    finds the same ones at any sufficient depth and in any later store. -/
theorem Keeps.chainWithin_eq (hk : σ.Keeps τ) (hσ : σ.Grounded) :
    ∀ (d e : Nat) {limit : Nat} {o : Object}, σ.Fits limit o → limit ≤ σ.objects.size →
      limit ≤ d → limit ≤ e → τ.chainWithin e o = σ.chainWithin d o := by
  have hnone : ∀ {limit : Nat} {o : Object}, σ.Fits limit o → limit = 0 → o.proto = none := by
    intro limit o ho hzero
    cases hp : o.proto with
    | none => rfl
    | some p =>
        have := ho.proto hp
        omega
  intro d
  induction d with
  | zero =>
      intro e limit o ho _ hd _
      have hp := hnone ho (Nat.le_zero.1 hd)
      rw [chainWithin_of_proto_none hp, chainWithin_of_proto_none hp]
  | succ d ih =>
      intro e limit o ho hsize hd he
      cases e with
      | zero =>
          have hp := hnone ho (Nat.le_zero.1 he)
          rw [chainWithin_of_proto_none hp, chainWithin_of_proto_none hp]
      | succ e =>
          cases hp : o.proto with
          | none => rw [chainWithin_of_proto_none hp, chainWithin_of_proto_none hp]
          | some p =>
              -- the prototype lies before the limit, so one step less is room enough
              have hlt : p < limit := ho.proto hp
              have hget : σ.objects[p]? = some σ.objects[p] :=
                Array.getElem?_eq_getElem (Nat.lt_of_lt_of_le hlt hsize)
              have htail : τ.chainWithin e σ.objects[p] = σ.chainWithin d σ.objects[p] :=
                ih e (hσ.objects hget) (by omega) (by omega) (by omega)
              simp [chainWithin, hp, hget, hk.objects hget, htail]

/-- The prototype chain of an object that fits stays. -/
theorem Keeps.chain_eq (hk : σ.Keeps τ) (hσ : σ.Grounded) {o : Object}
    (ho : σ.Fits σ.objects.size o) : τ.chain o = σ.chain o :=
  hk.chainWithin_eq hσ _ _ ho (Nat.le_refl _) (Nat.le_refl _) hk.objects_size

/-- Which properties a value has stays. -/
theorem Keeps.hasProperty_eq (hk : σ.Keeps τ) (hσ : σ.Grounded) {v : Value}
    (hv : σ.holds v = true) (k : Key) : τ.hasProperty v k = σ.hasProperty v k := by
  have hobject := hk.objectOf?_eq hv
  have hfind : ∀ o, σ.objectOf? v = some o → τ.findProperty o k = σ.findProperty o k := by
    intro o ho
    simp only [findProperty, hk.chain_eq hσ (hσ.fits ho)]
  cases v with
  | prim p => rfl
  | ref r =>
      cases r with
      | array a => simp only [hasProperty, hk.items_eq hv]
      | _ =>
          simp only [hasProperty, hobject]
          split
          · rename_i o ho
            rw [hfind o ho]
          · rfl

/-- Whether a value can be iterated over stays. -/
theorem Keeps.isIterable_eq (hk : σ.Keeps τ) {v : Value} (hv : σ.holds v = true) :
    τ.isIterable v = σ.isIterable v := by
  cases v with
  | prim p => cases p <;> rfl
  | ref r =>
      cases r with
      | object o => simp only [isIterable, hk.object_eq hv]
      | _ => rfl

/-- The text of a value that is not an array stays, at any depth. -/
theorem Keeps.textWithin_leaf (hk : σ.Keeps τ) (d e : Nat) {v : Value}
    (hv : σ.holds v = true) (hleaf : ∀ a : Nat, v ≠ .ref (.array a)) :
    τ.textWithin e v = σ.textWithin d v := by
  cases v with
  | prim p => cases d <;> cases e <;> rfl
  | ref r =>
      cases r with
      | array a => exact absurd rfl (hleaf a)
      | object o => cases d <;> cases e <;> rfl
      | function f =>
          simp only [Store.holds, decide_eq_true_eq] at hv
          have hget : σ.functions[f]? = some σ.functions[f] := Array.getElem?_eq_getElem hv
          have hname : τ.functionName f = σ.functionName f := by
            simp [functionName, hget, hk.functions hget]
          cases d <;> cases e <;> simp only [textWithin, hname]
      | iterator i =>
          simp only [Store.holds, decide_eq_true_eq] at hv
          have hget : σ.iterators[i]? = some σ.iterators[i] := Array.getElem?_eq_getElem hv
          obtain ⟨it, hit, hkeeps⟩ := hk.iterators hget
          have hlabel : τ.iteratorLabel i = σ.iteratorLabel i := by
            simp [iteratorLabel, hget, hit, hkeeps.kind]
          cases d <;> cases e <;> simp only [textWithin, hlabel]

/-- Joining nested arrays takes no more depth than there are arrays before them, so it
    gives the same text at any sufficient depth and in any later store. -/
theorem Keeps.textWithin_eq (hk : σ.Keeps τ) (hσ : σ.Grounded) :
    ∀ (d e : Nat) {v : Value}, σ.holds v = true →
      (∀ a : Nat, v = .ref (.array a) → a < d ∧ a < e) →
      τ.textWithin e v = σ.textWithin d v := by
  intro d
  induction d with
  | zero =>
      intro e v hv hdepth
      exact hk.textWithin_leaf 0 e hv fun a ha => absurd (hdepth a ha).1 (Nat.not_lt_zero a)
  | succ d ih =>
      intro e v hv hdepth
      by_cases harray : ∃ a : Nat, v = .ref (.array a)
      · obtain ⟨a, rfl⟩ := harray
        obtain ⟨hd, he⟩ := hdepth a rfl
        obtain ⟨e, rfl⟩ : ∃ n, e = n + 1 := ⟨e - 1, by omega⟩
        have hitems : τ.items a = σ.items a := hk.items_eq hv
        have hget : σ.arrays[a]? = some (σ.items a) := by
          simp only [Store.holds, decide_eq_true_eq] at hv
          simp [items, Array.getD_eq_getD_getElem?, Array.getElem?_eq_getElem hv]
        -- the elements are older than their array, so one level less is room enough
        simp only [textWithin, hitems]
        refine congrArg _ (List.map_congr_left ?_)
        intro x hx
        obtain ⟨hholds, hbefore⟩ := hσ.arrays hget x hx
        have hx := ih e hholds fun b hb => by
          have := hbefore b hb
          omega
        split <;> first | rfl | exact hx
      · exact hk.textWithin_leaf (d + 1) e hv fun a ha => harray ⟨a, ha⟩

/-- The text of a value stays. -/
theorem Keeps.text_eq (hk : σ.Keeps τ) (hσ : σ.Grounded) {v : Value}
    (hv : σ.holds v = true) : τ.text v = σ.text v := by
  refine hk.textWithin_eq hσ _ _ hv ?_
  intro a ha
  subst ha
  have hτ := hk.holds hv
  simp only [Store.holds, decide_eq_true_eq] at hv hτ
  exact ⟨hv, hτ⟩

end Store

end StructuralMatch
