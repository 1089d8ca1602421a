import StructuralMatch.Proofs.Accesses

/-! # The memory is faithful to the log

    What a cache remembers is what its log shows: of every property the one value
    that was read, for every iterable the one iterator that was opened, and of every
    iterator the values that it gave, at consecutive positions (`Cache.Faithful`).
    Texts being spelled are not in the log; their memos go with the letters that are
    left instead.

    Each operation on caches keeps this, given that what it adds is new. -/

namespace StructuralMatch

/-- Letters as values. -/
def Spelling.letters (cs : List Char) : List Value :=
  cs.map fun c => .text (String.singleton c)

/-- A text has given letters, and while it is still being spelled these are the letters
    before those that are left. -/
structure Spelling.Tells (t : Spelling) (vs : List Value) (ended : Bool) : Prop where
  plain : ∀ v ∈ vs, v.identity = none
  tells : t.closed = false →
    letters t.text.toList = vs ++ letters t.left ∧ (ended = true → t.left = [])

/-- A text goes on telling its letters. -/
theorem Spelling.Tells.next {t : Spelling} {vs : List Value} (h : t.Tells vs false) :
    t.next.2.Tells (vs ++ t.next.1.value?.toList) t.next.1.isDone := by
  rw [Spelling.next]
  cases hleft : t.left with
  | nil => exact ⟨by simpa [Step.value?] using h.plain, by simpa [hleft, Step.value?] using h.tells⟩
  | cons c left =>
      refine ⟨?_, by simpa [hleft, Step.value?, letters] using h.tells⟩
      intro v hv
      rcases List.mem_append.1 hv with hold | hnew
      · exact h.plain v hold
      · rw [List.mem_singleton.1 hnew]
        rfl

namespace Cache

variable {c : Cache}

/-- The memory of a cache agrees with its log. -/
structure Faithful (c : Cache) : Prop where
  readings : ∀ (r : Ref) (k : Key), c.readings r k = (c.property? (.ref r) k).toList
  openings : ∀ r : Ref, c.openings r = (c.sources.get? r).toList
  advances : ∀ i : Nat, ∃ vs ended, (c.memo (.cell i)).Stands vs ended ∧
    c.advances i = (Step.run vs ended).zipIdx
  texts : ∀ (n : Nat) (t : Spelling), c.texts[n]? = some t →
    c.memos.contains (.text n) = true ∧
      ∃ vs ended, (c.memo (.text n)).Stands vs ended ∧ t.Tells vs ended
  fresh : ∀ n : Nat, c.texts.size ≤ n → c.memos.get? (.text n) = none

theorem faithful_empty : empty.Faithful where
  readings := fun _ _ => rfl
  openings := fun _ => rfl
  advances := fun _ => ⟨[], false, Memo.stands_empty, rfl⟩
  texts := by
    intro n t h
    cases h
  fresh := fun _ _ => rfl

/-- The values that an iterator gave are those that its memo stands for. -/
theorem Faithful.filterMap_advances (hc : c.Faithful) {i : Nat} {vs : List Value} {ended : Bool}
    (hm : (c.memo (.cell i)).Stands vs ended) : (c.advances i).filterMap (·.1.value?) = vs := by
  obtain ⟨ws, ended', hstands, hadvances⟩ := hc.advances i
  obtain ⟨rfl, rfl⟩ := hm.unique hstands
  have hmap : (c.advances i).map Prod.fst = Step.run vs ended := by
    rw [hadvances, List.zipIdx_map_fst]
  rw [← Step.filterMap_run vs ended, ← hmap, List.filterMap_map]
  rfl

/-! ## Looking at a changed cache -/

/-- A text that was begun has a state of being spelled. -/
theorem getElem?_texts {n : Nat} (hn : n < c.texts.size) : c.texts[n]? = some (c.spelling n) := by
  simp [spelling, Array.getD_eq_getD_getElem?, hn]

/-- Visiting a value adds nothing to what is known of properties. -/
theorem property?_visit (c : Cache) (r : Ref) (v : Value) (k : Key) :
    (c.visit r).property? v k = c.property? v k := by
  rw [visit]
  split
  · rfl
  · rename_i hnew
    cases v with
    | prim p => rfl
    | ref q =>
        simp only [property?, Value.identity, Option.bind_some, Assoc.get?_insert] at hnew ⊢
        by_cases hq : r = q
        · subst hq
          have : c.properties.get? r = none := by
            simpa [Assoc.contains] using hnew
          simp [this]
        · simp [hq]

/-- A remembered property is known; what is known of others stays. -/
theorem property?_remember (c : Cache) (r : Ref) (k : Key) (x : Value) (q : Ref) (j : Key) :
    (c.remember r k x).property? (.ref q) j =
      if r = q ∧ k = j then some x else c.property? (.ref q) j := by
  simp only [remember, property?, Value.identity, Option.bind_some, Assoc.get?_insert]
  by_cases hr : r = q
  · subst hr
    cases h : c.properties.get? r <;> simp
  · simp [hr]

/-- The memo that was learned is known; the others stay. -/
theorem memo_learn (c : Cache) (h : Handle) (m : Memo) (g : Handle) :
    (c.learn h m).memo g = if h = g then m else c.memo g := by
  simp only [learn, memo, Assoc.get?_insert]
  split <;> rfl

/-- Taking charge of an iterator adds nothing to what is known of it. -/
theorem memo_adopt (c : Cache) (h g : Handle) : (c.adopt h).memo g = c.memo g := by
  rw [adopt]
  split
  · rfl
  · rename_i hnew
    simp only [memo, Assoc.get?_insert]
    by_cases hg : h = g
    · subst hg
      have : c.memos.get? h = none := by
        simpa [Assoc.contains] using hnew
      simp [this]
    · simp [hg]

/-- What the cache is in charge of stays so, and the new one joins. -/
theorem contains_adopt (c : Cache) (h g : Handle) :
    (c.adopt h).memos.contains g = (decide (h = g) || c.memos.contains g) := by
  rw [adopt]
  split
  · rename_i hold
    by_cases hg : h = g
    · subst hg
      simp [hold]
    · simp [hg]
  · simp only [Assoc.contains, Assoc.get?_insert]
    by_cases hg : h = g <;> simp [hg]

/-- An iterator that was taken charge of is known. -/
theorem contains_adopt_self (c : Cache) (h : Handle) : (c.adopt h).memos.contains h = true := by
  simp [contains_adopt]

/-- What the cache is in charge of stays so when something is learned. -/
theorem contains_learn (c : Cache) (h : Handle) (m : Memo) (g : Handle) :
    (c.learn h m).memos.contains g = (decide (h = g) || c.memos.contains g) := by
  by_cases hg : h = g <;> simp [learn, Assoc.contains, hg]

theorem log_visit (c : Cache) (r : Ref) : (c.visit r).log = c.log := by
  rw [visit]
  split <;> rfl

theorem log_adopt (c : Cache) (h : Handle) : (c.adopt h).log = c.log := by
  rw [adopt]
  split <;> rfl

theorem sources_adopt (c : Cache) (h : Handle) : (c.adopt h).sources = c.sources := by
  rw [adopt]
  split <;> rfl

theorem properties_adopt (c : Cache) (h : Handle) : (c.adopt h).properties = c.properties := by
  rw [adopt]
  split <;> rfl

theorem texts_adopt (c : Cache) (h : Handle) : (c.adopt h).texts = c.texts := by
  rw [adopt]
  split <;> rfl

/-! ## Operations keep the memory faithful -/

/-- A cache with the same log, which knows the same of the store, is as faithful about it;
    what it spells may have changed. -/
theorem Faithful.of_log_eq (hc : c.Faithful) {d : Cache} (hlog : d.log = c.log)
    (hproperty : ∀ (r : Ref) (k : Key), d.property? (.ref r) k = c.property? (.ref r) k)
    (hsources : d.sources = c.sources) (hmemo : ∀ i : Nat, d.memo (.cell i) = c.memo (.cell i))
    (htexts : ∀ (n : Nat) (t : Spelling), d.texts[n]? = some t →
      d.memos.contains (.text n) = true ∧
        ∃ vs ended, (d.memo (.text n)).Stands vs ended ∧ t.Tells vs ended)
    (hfresh : ∀ n : Nat, d.texts.size ≤ n → d.memos.get? (.text n) = none) : d.Faithful where
  readings := by
    intro r k
    rw [Cache.readings, hlog, hproperty]
    exact hc.readings r k
  openings := by
    intro r
    rw [Cache.openings, hlog, hsources]
    exact hc.openings r
  advances := by
    intro i
    rw [Cache.advances, hlog, hmemo]
    exact hc.advances i
  texts := htexts
  fresh := hfresh

/-- Visiting a value. -/
theorem Faithful.visit (hc : c.Faithful) (r : Ref) : (c.visit r).Faithful := by
  have hrest : (c.visit r).sources = c.sources ∧ (c.visit r).memos = c.memos ∧
      (c.visit r).texts = c.texts := by
    rw [Cache.visit]
    split <;> exact ⟨rfl, rfl, rfl⟩
  obtain ⟨hsources, hmemos, htexts⟩ := hrest
  have hmemo : ∀ h, (c.visit r).memo h = c.memo h := by
    intro h
    rw [memo, hmemos, memo]
  refine hc.of_log_eq (log_visit c r) (fun q => property?_visit c r (.ref q)) hsources
    (fun i => hmemo (.cell i)) ?_ ?_
  · intro n t ht
    rw [htexts] at ht
    rw [hmemos, hmemo]
    exact hc.texts n t ht
  · intro n hn
    rw [htexts] at hn
    rw [hmemos]
    exact hc.fresh n hn

/-- Reading a property that is not known. -/
theorem Faithful.remember (hc : c.Faithful) {r : Ref} {k : Key}
    (hnew : c.property? (.ref r) k = none) (x : Value) (σ τ : Store) :
    ((c.remember r k x).record (.read r k x) σ τ).Faithful where
  readings := by
    intro q j
    rw [readings_record]
    show c.readings q j ++ _ = ((c.remember r k x).property? (.ref q) j).toList
    rw [hc.readings, property?_remember, Access.value?]
    by_cases hq : r = q ∧ k = j
    · obtain ⟨rfl, rfl⟩ := hq
      simp [hnew]
    · simp [hq]
  openings := by
    intro q
    rw [openings_record]
    exact (List.append_nil _).trans (hc.openings q)
  advances := by
    intro i
    rw [advances_record]
    show ∃ vs ended, (c.memo (.cell i)).Stands vs ended ∧ c.advances i ++ [] = _
    rw [List.append_nil]
    exact hc.advances i
  texts := hc.texts
  fresh := hc.fresh

/-- Opening an iterator for a value that has none. -/
theorem Faithful.assign (hc : c.Faithful) {r : Ref} (hnew : c.sources.get? r = none) (i : Nat)
    (σ τ : Store) : ((c.assign r i).record (.opened r i) σ τ).Faithful where
  readings := by
    intro q k
    rw [readings_record]
    exact (List.append_nil _).trans (hc.readings q k)
  openings := by
    intro q
    rw [openings_record]
    show c.openings q ++ _ = ((c.sources.insert r i).get? q).toList
    rw [hc.openings, Assoc.get?_insert, Access.iterator?]
    by_cases hq : r = q
    · subst hq
      simp [hnew]
    · simp [hq]
  advances := by
    intro j
    rw [advances_record]
    show ∃ vs ended, (c.memo (.cell j)).Stands vs ended ∧ c.advances j ++ [] = _
    rw [List.append_nil]
    exact hc.advances j
  texts := hc.texts
  fresh := hc.fresh

/-- Noting something that the memory does not show. -/
theorem Faithful.record (hc : c.Faithful) {a : Access} (hvalue : ∀ r k, a.value? r k = none)
    (hiterator : ∀ r, a.iterator? r = none) (hstep : ∀ i, a.step? i = none) (σ τ : Store) :
    (c.record a σ τ).Faithful where
  readings := by
    intro r k
    rw [readings_record, hvalue]
    exact (List.append_nil _).trans (hc.readings r k)
  openings := by
    intro r
    rw [openings_record, hiterator]
    exact (List.append_nil _).trans (hc.openings r)
  advances := by
    intro i
    rw [advances_record, hstep]
    show ∃ vs ended, (c.memo (.cell i)).Stands vs ended ∧ c.advances i ++ [] = _
    rw [List.append_nil]
    exact hc.advances i
  texts := hc.texts
  fresh := hc.fresh

/-- Taking charge of an iterator of the store. -/
theorem Faithful.adopt (hc : c.Faithful) (i : Nat) : (c.adopt (.cell i)).Faithful := by
  refine hc.of_log_eq (log_adopt c _) ?_ (sources_adopt c _) (fun j => memo_adopt c _ _) ?_ ?_
  · intro r k
    rw [property?, properties_adopt, property?]
  · intro n t ht
    rw [texts_adopt] at ht
    rw [contains_adopt, memo_adopt, (hc.texts n t ht).1]
    exact ⟨Bool.or_true _, (hc.texts n t ht).2⟩
  · intro n hn
    rw [texts_adopt] at hn
    have hcontains := contains_adopt c (.cell i) (.text n)
    simp only [Assoc.contains, hc.fresh n hn] at hcontains
    simpa using hcontains

/-- Beginning to spell a text. -/
theorem Faithful.spell (hc : c.Faithful) (text : String) :
    ({ c with texts := c.texts.push (.begin text) }.adopt (.text c.texts.size)).Faithful := by
  refine hc.of_log_eq (log_adopt _ _) ?_ (sources_adopt _ _) (fun i => memo_adopt _ _ _) ?_ ?_
  · intro r k
    rw [property?, properties_adopt, property?]
  · intro n t ht
    rw [texts_adopt] at ht
    rw [contains_adopt, memo_adopt]
    by_cases hn : c.texts.size = n
    · -- the new text, of which nothing is known and nothing has been spelled
      subst hn
      have hbegin : t = .begin text := by simpa using ht.symm
      have hmemo : c.memo (.text c.texts.size) = {} := by
        simp [memo, hc.fresh _ (Nat.le_refl _)]
      have htells : t.Tells [] false := by
        rw [hbegin]
        exact ⟨by simp, fun _ => ⟨rfl, by simp⟩⟩
      exact ⟨by simp, [], false, hmemo ▸ Memo.stands_empty, htells⟩
    · have hold : c.texts[n]? = some t := by
        rw [← ht, Array.getElem?_push, if_neg (Ne.symm hn)]
      obtain ⟨hcontains, hstands⟩ := hc.texts n t hold
      exact ⟨by simpa using Or.inr hcontains, hstands⟩
  · intro n hn
    rw [texts_adopt, Array.size_push] at hn
    have hcontains := contains_adopt { c with texts := c.texts.push (.begin text) }
      (.text c.texts.size) (.text n)
    have hne : Handle.text c.texts.size ≠ .text n := by
      intro h
      cases h
      omega
    simp only [Assoc.contains, hc.fresh n (by omega), hne] at hcontains
    simpa using hcontains

/-- Learning a step that an iterator of the store has given. -/
theorem Faithful.learn_cell (hc : c.Faithful) {i : Nat} {vs : List Value}
    (hm : (c.memo (.cell i)).Stands vs false) (step : Step) {m : Memo}
    (hlearned : m.Stands (vs ++ step.value?.toList) step.isDone) (σ τ : Store) :
    ((c.record (.advanced i vs.length step) σ τ).learn (.cell i) m).Faithful where
  readings := by
    intro r k
    show (c.record _ σ τ).readings r k = _
    rw [readings_record]
    exact (List.append_nil _).trans (hc.readings r k)
  openings := by
    intro r
    show (c.record _ σ τ).openings r = _
    rw [openings_record]
    exact (List.append_nil _).trans (hc.openings r)
  advances := by
    intro j
    show ∃ ws ended, _ ∧ (c.record _ σ τ).advances j = _
    rw [advances_record, memo_learn, Access.step?]
    obtain ⟨ws, ended, hstands, hadvances⟩ := hc.advances j
    by_cases hj : i = j
    · subst hj
      obtain ⟨rfl, rfl⟩ := hm.unique hstands
      -- the log shows the step at the position behind all earlier ones
      refine ⟨_, _, by simpa using hlearned, ?_⟩
      rw [← Step.run_concat, List.zipIdx_append, hadvances]
      simp [Step.run_false]
    · refine ⟨ws, ended, ?_, ?_⟩
      · simpa [hj, Cache.record, memo] using hstands
      · simp [hj, hadvances]
  texts := by
    intro n t ht
    rw [memo_learn, if_neg Handle.noConfusion]
    obtain ⟨hcontains, hstands⟩ := hc.texts n t ht
    refine ⟨?_, hstands⟩
    simpa [learn, Assoc.contains] using hcontains
  fresh := by
    intro n hn
    simpa [learn] using hc.fresh n hn

/-- Learning a letter that was spelled, or that there is none. -/
theorem Faithful.learn_text (hc : c.Faithful) {n : Nat} (hn : n < c.texts.size)
    {vs : List Value} (hm : (c.memo (.text n)).Stands vs false) {m : Memo}
    (hlearned : m.Stands (vs ++ (c.spelling n).next.1.value?.toList)
      (c.spelling n).next.1.isDone) :
    ((c.setSpelling n (c.spelling n).next.2).learn (.text n) m).Faithful := by
  obtain ⟨-, ws, ended, hstands, htells⟩ := hc.texts n _ (getElem?_texts hn)
  obtain ⟨rfl, rfl⟩ := hm.unique hstands
  refine hc.of_log_eq rfl (fun _ _ => rfl) rfl ?_ ?_ ?_
  · intro i
    rw [memo_learn, if_neg Handle.noConfusion]
    rfl
  · intro k t ht
    rw [memo_learn]
    by_cases hk : n = k
    · subst hk
      have ht : t = (c.spelling n).next.2 := by
        simpa [learn, setSpelling, hn] using ht.symm
      subst ht
      exact ⟨by simp [learn, Assoc.contains], _, _, by simpa using hlearned, htells.next⟩
    · rw [if_neg (by simpa using hk)]
      have hold : c.texts[k]? = some t := by
        simpa [learn, setSpelling, hk] using ht
      obtain ⟨hcontains, hrest⟩ := hc.texts k t hold
      refine ⟨?_, hrest⟩
      simpa [learn, setSpelling, Assoc.contains, hk] using hcontains
  · intro k hk
    have hsize : c.texts.size ≤ k := by simpa [learn, setSpelling] using hk
    have hne : n ≠ k := by omega
    simpa [learn, setSpelling, hne] using hc.fresh k hsize

end Cache

end StructuralMatch
