import StructuralMatch.Proofs.WriteOnce

/-! # Quiet work

    A match that finds everything in memory still spells texts, which have no
    identity to be remembered under, and still makes arrays of what is left.  Beyond
    that nothing happens: no table of the cache changes, and of the store only the
    arrays (`State.Quiet`).

    `Abreast` is the invariant of a first run and its replay: wherever the replay
    stands, it has been quiet so far. -/

namespace StructuralMatch

namespace Cache

theorem get?_adopt_of_ne {h g : Handle} (hne : h ≠ g) (c : Cache) :
    (c.adopt h).memos.get? g = c.memos.get? g := by
  rw [adopt]
  split
  · rfl
  · exact (Assoc.get?_insert ..).trans (if_neg hne)

theorem get?_learn_of_ne {h g : Handle} (hne : h ≠ g) (c : Cache) (m : Memo) :
    (c.learn h m).memos.get? g = c.memos.get? g :=
  (Assoc.get?_insert ..).trans (if_neg hne)

end Cache

namespace State

variable {o s t : State}

/-- Since a state, only new texts were spelled and only new arrays were made. -/
structure Quiet (o t : State) : Prop where
  properties : t.cache.properties = o.cache.properties
  sources : t.cache.sources = o.cache.sources
  cells : ∀ i : Nat, t.cache.memos.get? (.cell i) = o.cache.memos.get? (.cell i)
  spellings : ∀ n < o.cache.texts.size, t.cache.texts[n]? = o.cache.texts[n]? ∧
    t.cache.memos.get? (.text n) = o.cache.memos.get? (.text n)
  spelled : o.cache.texts.size ≤ t.cache.texts.size
  store : ∃ made : Array (List Value), t.store = { o.store with arrays := o.store.arrays ++ made }

theorem Quiet.refl (s : State) : Quiet s s where
  properties := rfl
  sources := rfl
  cells := fun _ => rfl
  spellings := fun _ _ => ⟨rfl, rfl⟩
  spelled := Nat.le_refl _
  store := ⟨#[], by rw [Array.append_empty]⟩

/-- Nothing that a program could notice has happened. -/
theorem Quiet.trace_eq (h : Quiet o t) : t.store.trace = o.store.trace := by
  obtain ⟨made, hmade⟩ := h.store
  rw [hmade]

/-- What concerns one new text is quiet. -/
theorem Quiet.of_text (h : Quiet o t) {n : Nat} (hn : o.cache.texts.size ≤ n) {c : Cache}
    (hproperties : c.properties = t.cache.properties) (hsources : c.sources = t.cache.sources)
    (hmemos : ∀ g, .text n ≠ g → c.memos.get? g = t.cache.memos.get? g)
    (htexts : ∀ k < n, c.texts[k]? = t.cache.texts[k]?)
    (hsize : t.cache.texts.size ≤ c.texts.size) : Quiet o { t with cache := c } where
  properties := hproperties.trans h.properties
  sources := hsources.trans h.sources
  cells := fun i => (hmemos (.cell i) Handle.noConfusion).trans (h.cells i)
  spellings := by
    intro k hk
    have hlt : k < n := Nat.lt_of_lt_of_le hk hn
    have hne : Handle.text n ≠ .text k := by
      rintro ⟨⟩
      exact Nat.lt_irrefl _ hlt
    obtain ⟨htext, hmemo⟩ := h.spellings k hk
    exact ⟨(htexts k hlt).trans htext, (hmemos _ hne).trans hmemo⟩
  spelled := Nat.le_trans h.spelled hsize
  store := h.store

theorem Quiet.spell (h : Quiet o t) (text : String) : Quiet o (t.spell text).2 := by
  refine h.of_text h.spelled (Cache.properties_adopt _ _) (Cache.sources_adopt _ _) ?_ ?_ ?_
  · intro g hg
    exact Cache.get?_adopt_of_ne hg _
  · intro k hk
    rw [Cache.texts_adopt, Array.getElem?_push_lt hk, Array.getElem?_eq_getElem hk]
  · rw [Cache.texts_adopt, Array.size_push]
    exact Nat.le_succ _

/-- Going on to spell a new text. -/
theorem Quiet.pull_text (h : Quiet o t) {n : Nat} (hn : o.cache.texts.size ≤ n)
    (add : Memo → Step → Memo) : Quiet o (t.pull add (.text n)).2 := by
  refine h.of_text hn rfl rfl ?_ ?_ ?_
  · intro g hg
    exact Cache.get?_learn_of_ne hg _ _
  · intro k hk
    exact Array.getElem?_setIfInBounds_ne (Nat.ne_of_gt hk)
  · exact Nat.le_of_eq (Array.size_setIfInBounds ..).symm

theorem Quiet.adopt_text (h : Quiet o t) {n : Nat} (hn : o.cache.texts.size ≤ n) :
    Quiet o (t.adopt (.text n)) := by
  refine h.of_text hn (Cache.properties_adopt _ _) (Cache.sources_adopt _ _) ?_ ?_ ?_
  · intro g hg
    exact Cache.get?_adopt_of_ne hg _
  · intro k hk
    rw [Cache.texts_adopt]
  · rw [Cache.texts_adopt]

theorem Quiet.step_text (h : Quiet o t) {n : Nat} (hn : o.cache.texts.size ≤ n) (p : Nat) :
    Quiet o (t.step (.text n) p).2 :=
  step_preserves (h.adopt_text hn) (fun _ hu => hu.pull_text hn Memo.addStep) p

theorem Quiet.drainFrom_text (h : Quiet o t) {n : Nat} (hn : o.cache.texts.size ≤ n) (p : Nat) :
    Quiet o (t.drainFrom (.text n) p).2 :=
  drainFrom_preserves (h.adopt_text hn) (fun _ hu => hu.pull_text hn Memo.addTail) p

theorem Quiet.collect (h : Quiet o t) (items : List Value) : Quiet o (t.collect items).2 where
  properties := h.properties
  sources := h.sources
  cells := h.cells
  spellings := h.spellings
  spelled := h.spelled
  store := by
    obtain ⟨made, hmade⟩ := h.store
    refine ⟨made.push (items.map t.store.vet), ?_⟩
    show (t.store.newArray items).2 = _
    rw [Store.newArray, hmade, Array.append_push]

end State

end StructuralMatch
