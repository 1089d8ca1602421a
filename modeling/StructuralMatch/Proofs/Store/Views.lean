import StructuralMatch.Proofs.Sameness
import StructuralMatch.Proofs.Store.Getters
import StructuralMatch.Proofs.Store.Lineage

/-! # The views of a value's properties

    Whether a property is there, what it reads as and whether it is listed are asked of
    a store by three operations, each of which tells apart the kinds of values for
    itself.  They agree (`Grounded.views`): a property is there if it is owned somewhere
    in the lineage, the nearest owner is the one that is read, and what is listed is
    there.

    A position is a key only below `2 ^ 64`, which no array gets beyond
    (`Store.Addressable`). -/

namespace StructuralMatch

namespace Store

variable {σ : Store} {u v w : Value} {k : Key} {p : Property}

/-- Every position of the value is one that a key can stand for, if it is an array. -/
def Addressable (σ : Store) (v : Value) : Prop :=
  ∀ a, v = .ref (.array a) → (σ.items a).length ≤ UInt64.size

/-! ## Resolving keys -/

/-- Without a prototype a lookup comes to what is owned. -/
theorem resolves_iff_own (htop : σ.parent? v = none) :
    σ.Resolves k v p ↔ (σ.own v).get? k = some p := by
  constructor
  · rintro (here | ⟨-, up, -⟩)
    · exact here
    · cases htop.symm.trans up
  · exact .own

/-- A value without properties resolves no key. -/
theorem not_resolves_of_objectOf?_none (hnot : ∀ a, v ≠ .ref (.array a))
    (ho : σ.objectOf? v = none) : ¬ σ.Resolves k v p := by
  have htop : σ.parent? v = none := by
    rw [parent?, ho]
    rfl
  rw [resolves_iff_own htop, own_of_objectOf?_none hnot ho]
  intro h
  cases h

/-- The getter of a property that is found is there. -/
theorem Grounded.getter_lt_of_resolves (hσ : σ.Grounded) (h : σ.Resolves k v p) :
    ∀ g, p.slot = .accessor g → g < σ.getters.size := by
  induction h with
  | own here =>
      intro g hg
      have hvet := hσ.vetProperty_own (Assoc.mem_of_get?_eq_some here)
      by_contra hnot
      simp only [vetProperty, hg, hnot, if_false] at hvet
      rw [← hvet] at hg
      cases hg
  | inherited _ _ _ ih => exact ih

/-! ## Arrays -/

theorem parent?_array (σ : Store) (a : Nat) : σ.parent? (.ref (.array a)) = none := rfl

/-- A key addresses an element if it is the key of its position. -/
theorem element?_eq_some_iff {xs : List Value} (hxs : xs.length ≤ UInt64.size) {x : Value} :
    element? xs k = some x ↔ ∃ i, k = .index i ∧ xs[i]? = some x := by
  rw [element?, Option.bind_eq_some_iff]
  constructor
  · rintro ⟨i, hi, hx⟩
    exact ⟨i, (Key.index?_eq_some_iff.1 hi).1, hx⟩
  · rintro ⟨i, hi, hx⟩
    have hlt : i < xs.length := (List.getElem?_eq_some_iff.1 hx).1
    exact ⟨i, Key.index?_eq_some_iff.2 ⟨hi, Nat.lt_of_lt_of_le hlt hxs⟩, hx⟩

/-- What an array owns under a key: its length, or an element. -/
theorem get?_own_array {a : Nat} (hsize : (σ.items a).length ≤ UInt64.size) :
    (σ.own (.ref (.array a))).get? k = some p ↔
      (k = ⟨"length"⟩ ∧ p = .hidden (.ofNat (σ.items a).length)) ∨
        ∃ x, element? (σ.items a) k = some x ∧ p = .field x := by
  have hmem : (σ.own (.ref (.array a))).get? k = some p ↔ (k, p) ∈ σ.own (.ref (.array a)) :=
    ⟨Assoc.mem_of_get?_eq_some, Assoc.get?_eq_some_of_mem (σ.nodup_own _)⟩
  rw [hmem, own, List.mem_append, or_comm, List.mem_singleton, Prod.mk.injEq]
  simp only [element?_eq_some_iff hsize, List.mem_map, Prod.exists, Prod.mk.injEq,
    List.mk_mem_zipIdx_iff_getElem?]
  constructor
  · rintro (hlength | ⟨x, i, hx, rfl, rfl⟩)
    · exact .inl hlength
    · exact .inr ⟨x, ⟨i, rfl, hx⟩, rfl⟩
  · rintro (hlength | ⟨x, ⟨i, rfl, hx⟩, rfl⟩)
    · exact .inl hlength
    · exact .inr ⟨x, i, hx, rfl, rfl⟩

/-- An array has its length and its positions. -/
theorem hasProperty_array {a : Nat} (hsize : (σ.items a).length ≤ UInt64.size) (k : Key) :
    σ.hasProperty (.ref (.array a)) k = true ↔
      k = ⟨"length"⟩ ∨ ∃ i < (σ.items a).length, k = .index i := by
  have hname : k.name = "length" ↔ k = ⟨"length"⟩ :=
    ⟨fun h => congrArg Key.mk h, fun h => congrArg Key.name h⟩
  simp only [hasProperty, Bool.or_eq_true, beq_iff_eq, hname, Option.isSome_iff_exists,
    element?_eq_some_iff hsize, List.getElem?_eq_some_iff]
  refine or_congr_right ⟨?_, ?_⟩
  · rintro ⟨x, i, hi, hlt, -⟩
    exact ⟨i, hlt, hi⟩
  · rintro ⟨i, hlt, hi⟩
    exact ⟨_, i, hi, hlt, rfl⟩

/-! ## Being there and being read -/

/-- A property is there exactly when a lookup of its key comes to one. -/
theorem Grounded.hasProperty_iff (hσ : σ.Grounded) (hsize : σ.Addressable v) (k : Key) :
    σ.hasProperty v k = true ↔ ∃ p, σ.Resolves k v p := by
  rcases σ.owner_cases v with ⟨a, rfl⟩ | ⟨hnot, ho | ⟨o, ho⟩⟩
  · simp only [resolves_iff_own (parent?_array σ a), ← Option.isSome_iff_exists,
      Assoc.get?_isSome_iff, keys_own_array, List.mem_append, List.mem_map, List.mem_range,
      List.mem_singleton, hasProperty_array (hsize a rfl), @eq_comm Key k]
    exact or_comm
  · simp [hasProperty_of_not_array hnot, ho, not_resolves_of_objectOf?_none hnot ho]
  · rw [hasProperty_of_not_array hnot, ho, Option.bind_some, Option.isSome_iff_exists]
    exact exists_congr fun p => hσ.findProperty_eq_some_iff k p v ho

/-- A read of a property that is there reads the one that a lookup comes to. -/
theorem Grounded.get_of_resolves (hσ : σ.Grounded) (hsize : σ.Addressable v)
    (h : σ.Resolves k v p) : σ.get v k = σ.readProperty p := by
  rcases σ.owner_cases v with ⟨a, rfl⟩ | ⟨hnot, ho | ⟨o, ho⟩⟩
  · rw [resolves_iff_own (parent?_array σ a), get?_own_array (hsize a rfl)] at h
    rcases h with ⟨rfl, rfl⟩ | ⟨x, hx, rfl⟩
    · rfl
    · obtain ⟨i, rfl, -⟩ := (element?_eq_some_iff (hsize a rfl)).1 hx
      have hname : ((Key.index i).name == "length") = false :=
        beq_eq_false_iff_ne.2 fun h => Key.index_ne_length i (congrArg Key.mk h)
      simp only [get, hname, Bool.false_eq_true, if_false, hx, Option.getD_some]
      rfl
  · exact absurd h (not_resolves_of_objectOf?_none hnot ho)
  · have hfind := (hσ.findProperty_eq_some_iff k p v ho).2 h
    rw [get_of_not_array hnot, ho, Option.bind_some, hfind]

/-- A read of a property that is not there gives nothing and does nothing. -/
theorem get_of_not_hasProperty (h : σ.hasProperty v k = false) :
    σ.get v k = (.undefined, σ) := by
  rcases σ.owner_cases v with ⟨a, rfl⟩ | ⟨hnot, -⟩
  · simp only [hasProperty, Bool.or_eq_false_iff, Option.isSome_eq_false_iff,
      Option.isNone_iff_eq_none] at h
    simp only [get, h.1, h.2, Bool.false_eq_true, if_false, Option.getD_none]
  · rw [hasProperty_of_not_array hnot, Option.isSome_eq_false_iff, Option.isNone_iff_eq_none] at h
    rw [get_of_not_array hnot, h]

/-! ## Being listed -/

/-- Reading properties one after another gives plain data as it is. -/
theorem exists_of_mem_readAll {x : Value} : ∀ (ps : Assoc Key Property) (σ : Store),
    (k, x) ∈ (readAll ps σ).1 → ∃ p, (k, p) ∈ ps ∧ ∀ y, p.slot = .data y → x = y
  | [], σ, h => nomatch h
  | (j, q) :: ps, σ, h => by
      rw [readAll] at h
      rcases List.mem_cons.1 h with heq | hrest
      · obtain ⟨rfl, rfl⟩ := Prod.mk.inj heq
        refine ⟨q, List.mem_cons_self .., ?_⟩
        intro y hy
        rw [readProperty, hy]
      · obtain ⟨p, hp, hdata⟩ := exists_of_mem_readAll ps _ hrest
        exact ⟨p, List.mem_cons_of_mem _ hp, hdata⟩

/-- The listed value of plain data is what a read of the key gives. -/
theorem Grounded.get_of_mem_entries (hσ : σ.Grounded) (hsize : σ.Addressable v) {x y : Value}
    {enumerable : Bool} (h : (k, x) ∈ (σ.entries v).1)
    (hown : (σ.own v).get? k = some ⟨.data y, enumerable⟩) : σ.get v k = (x, σ) := by
  rw [entries_eq_readAll] at h
  obtain ⟨p, hp, hdata⟩ := exists_of_mem_readAll _ _ h
  have hfound := Assoc.get?_eq_some_of_mem (σ.nodup_own v) (mem_own_of_mem_listed hp)
  obtain rfl := Option.some.inj (hown.symm.trans hfound)
  rw [hσ.get_of_resolves hsize (.own hown), hdata y rfl]
  rfl

/-! ## The views agree -/

/-- The views of a value's properties agree. -/
structure Views (σ : Store) (v : Value) : Prop where
  /-- A property is missing if neither the value nor one of its prototypes owns the key. -/
  missing : ∀ k, σ.hasProperty v k = false ↔ ∀ w, σ.Lineage v w → k ∉ (σ.own w).keys
  /-- Of an array everything is missing but its length and its positions. -/
  array : ∀ a, v = .ref (.array a) → ∀ k, σ.hasProperty v k = false ↔
    k ≠ ⟨"length"⟩ ∧ ∀ i < (σ.items a).length, k ≠ .index i
  /-- Of primitives and iterators everything is missing. -/
  bare : (∃ p, v = .prim p) ∨ (∃ i, v = .ref (.iterator i)) → ∀ k, σ.hasProperty v k = false
  /-- What is missing reads as undefined, and nothing happens. -/
  absent : ∀ k, σ.hasProperty v k = false → σ.get v k = (.undefined, σ)
  /-- What is there reads as the property of the nearest owner: as its data, and nothing
      happens, or by a run of its getter and of no other. -/
  present : ∀ k, σ.hasProperty v k = true → ∃ p, σ.Resolves k v p ∧
    (∀ x, p.slot = .data x → σ.get v k = (x, σ)) ∧
      ∀ g, p.slot = .accessor g → σ.get v k = σ.runGetter g ∧ σ.Runs (σ.get v k).2 [g]
  /-- The own enumerable keys are listed, in order and each of them once. -/
  listed : Assoc.keys (σ.entries v).1 = (σ.listed v).keys ∧ (σ.listed v).keys.Nodup
  /-- Of an array the positions are listed, in order. -/
  positions : ∀ a, v = .ref (.array a) →
    Assoc.keys (σ.entries v).1 = (List.range (σ.items a).length).map Key.index
  /-- What is listed is own, enumerable and there. -/
  own : ∀ k ∈ Assoc.keys (σ.entries v).1,
    σ.hasProperty v k = true ∧ ∃ p, (σ.own v).get? k = some p ∧ p.enumerable = true
  /-- The listed value of plain data is the same as what the key reads as. -/
  same : ∀ (k : Key) (x y : Value) (enumerable : Bool), (k, x) ∈ (σ.entries v).1 →
    (σ.own v).get? k = some ⟨.data y, enumerable⟩ → x.same (σ.get v k).1 = true

/-- The views of every value agree. -/
theorem Grounded.views (hσ : σ.Grounded) (hsize : σ.Addressable v) : σ.Views v where
  missing := by
    intro k
    rw [← Bool.not_eq_true, hσ.hasProperty_iff hsize, exists_resolves_iff]
    simp only [not_exists, not_and]
  array := by
    rintro a rfl k
    rw [← Bool.not_eq_true, hasProperty_array (hsize a rfl)]
    simp only [not_or, not_exists, not_and, ne_eq]
  bare := by
    rintro (⟨p, rfl⟩ | ⟨i, rfl⟩) k
    · rfl
    · rfl
  absent := fun k => get_of_not_hasProperty
  present := by
    intro k hk
    obtain ⟨p, hp⟩ := (hσ.hasProperty_iff hsize k).1 hk
    -- the property is that of the nearest owner, and reading it runs its getter only
    have hget := hσ.get_of_resolves hsize hp
    refine ⟨p, hp, ?_, ?_⟩
    · intro x hx
      rw [hget, readProperty, hx]
    · intro g hg
      have hruns := readProperty_runs (hσ.getter_lt_of_resolves hp)
      rw [hget]
      simp only [readProperty, hg, Property.getter?, Option.toList_some] at hruns ⊢
      exact ⟨trivial, hruns⟩
  listed := by
    rw [entries_eq_readAll, keys_readAll]
    exact ⟨rfl, σ.nodup_listed v⟩
  positions := by
    rintro a rfl
    rw [entries_eq_readAll, keys_readAll, keys_listed_array]
  own := by
    intro k hk
    rw [entries_eq_readAll, keys_readAll] at hk
    -- what is listed is an own property, and those are present
    obtain ⟨p, hp, henumerable⟩ := get?_own_of_mem_listed hk
    exact ⟨(hσ.hasProperty_iff hsize k).2 ⟨p, .own hp⟩, p, hp, henumerable⟩
  same := by
    intro k x y enumerable hx hown
    rw [hσ.get_of_mem_entries hsize hx hown]
    exact x.same_self

end Store

end StructuralMatch
