import StructuralMatch.Proofs.Closing
import StructuralMatch.Proofs.Quiet
import StructuralMatch.Proofs.Store.Gentle
import StructuralMatch.Proofs.Visits

/-! # What a match consumes

    Where user code is gentle (`Store.Gentle`), only array patterns consume iterators: a
    match advances those that it applies an array pattern to, and the cache is in charge of
    each of them.  It closes none (`matchPattern_consumes`).

    The iterators are read off the visits of the match (`applied`).  Every operation of a
    match draws on some of them and leaves the others alone (`State.Draws`), so a match
    draws on those of its visits, by induction on the pattern. -/

namespace StructuralMatch

/-- The iterator that an array pattern is applied to at a visit. -/
def Visit.handle? (w : Visit) : Option Handle :=
  match w.pattern with
  | .array _ => (w.state.iteratorFor w.value).1
  | _ => none

/-- The iterators that array patterns are applied to, in the order of the visits. -/
def applied (visits : List Visit) : List Handle := visits.filterMap Visit.handle?

/-- What is applied in one part and in another. -/
theorem applied_append (visits more : List Visit) :
    applied (visits ++ more) = applied visits ++ applied more := List.filterMap_append

/-- One visit applies at most one array pattern. -/
theorem applied_cons (w : Visit) (visits : List Visit) :
    applied (w :: visits) = w.handle?.toList ++ applied visits := by
  rw [applied, List.filterMap_cons]
  cases w.handle? <;> rfl

/-! ## Caches -/

namespace Cache

/-- The tables of iterators are the same, and so are the iterators to close. -/
structure SameTables (c d : Cache) : Prop where
  sources : d.sources = c.sources
  memos : d.memos = c.memos
  opened : d.opened = c.opened
  texts : d.texts = c.texts

/-- What a cache goes through when it advances some iterators. -/
structure Draws (hs : List Handle) (c d : Cache) : Prop where
  charged : ∀ h ∈ hs, d.memos.contains h = true
  memos : ∀ h ∉ hs, d.memos.get? h = c.memos.get? h
  texts : ∀ n, .text n ∉ hs → d.texts[n]? = c.texts[n]?
  stopped : ∀ n : Nat, d.texts[n]?.any (·.closed) = c.texts[n]?.any (·.closed)
  idle : hs = [] → c.SameTables d

variable {c d e : Cache} {hs hs' : List Handle} {h : Handle}

/-- Where the tables stay, no iterator is drawn on. -/
theorem SameTables.draws (heq : c.SameTables d) : Draws [] c d where
  charged := by simp
  memos := fun _ _ => by rw [heq.memos]
  texts := fun _ _ => by rw [heq.texts]
  stopped := fun _ => by rw [heq.texts]
  idle := fun _ => heq

/-- Two parts draw on what either draws on. -/
theorem Draws.trans (h₁ : Draws hs c d) (h₂ : Draws hs' d e) : Draws (hs ++ hs') c e where
  charged := by
    intro h hh
    -- the second part is in charge of it, or leaves the first part's memo as it is
    by_cases hlater : h ∈ hs'
    · exact h₂.charged h hlater
    · have hmemo := h₂.memos h hlater
      have hearlier : h ∈ hs := (List.mem_append.1 hh).resolve_right hlater
      rw [Assoc.contains, hmemo]
      exact h₁.charged h hearlier
  memos := by
    intro h hh
    rw [List.mem_append, not_or] at hh
    exact (h₂.memos h hh.2).trans (h₁.memos h hh.1)
  texts := by
    intro n hn
    rw [List.mem_append, not_or] at hn
    exact (h₂.texts n hn.2).trans (h₁.texts n hn.1)
  stopped := fun n => (h₂.stopped n).trans (h₁.stopped n)
  idle := by
    intro hnil
    obtain ⟨hfirst, hsecond⟩ := List.append_eq_nil_iff.1 hnil
    have heq := h₁.idle hfirst
    have heq' := h₂.idle hsecond
    exact ⟨heq'.sources.trans heq.sources, heq'.memos.trans heq.memos,
      heq'.opened.trans heq.opened, heq'.texts.trans heq.texts⟩

/-- It only counts which iterators are listed. -/
theorem Draws.congr (hmem : ∀ h, h ∈ hs ↔ h ∈ hs') (hd : Draws hs c d) : Draws hs' c d where
  charged := fun h hh => hd.charged h ((hmem h).2 hh)
  memos := fun h hh => hd.memos h fun hin => hh ((hmem h).1 hin)
  texts := fun n hn => hd.texts n fun hin => hn ((hmem _).1 hin)
  stopped := hd.stopped
  idle := by
    rintro rfl
    exact hd.idle (List.eq_nil_iff_forall_not_mem.2 fun h hh => nomatch (hmem h).1 hh)

/-- A change that concerns one iterator. -/
theorem Draws.of_one (hcharged : d.memos.contains h = true)
    (hmemos : ∀ g, h ≠ g → d.memos.get? g = c.memos.get? g)
    (htexts : ∀ n, h ≠ .text n → d.texts[n]? = c.texts[n]?)
    (hstopped : ∀ n : Nat, d.texts[n]?.any (·.closed) = c.texts[n]?.any (·.closed)) :
    Draws [h] c d where
  charged := fun _ hg => List.mem_singleton.1 hg ▸ hcharged
  memos := fun g hg => hmemos g (List.ne_of_not_mem_cons hg).symm
  texts := fun n hn => htexts n (List.ne_of_not_mem_cons hn).symm
  stopped := hstopped
  idle := nofun

/-- Taking charge of an iterator in the end. -/
theorem Draws.of_adopt (hmemos : d.memos = c.memos)
    (htexts : ∀ n, h ≠ .text n → d.texts[n]? = c.texts[n]?)
    (hstopped : ∀ n : Nat, d.texts[n]?.any (·.closed) = c.texts[n]?.any (·.closed)) :
    Draws [h] c (d.adopt h) := by
  refine .of_one (contains_adopt_self d h) ?_ ?_ ?_
  · intro g hg
    rw [get?_adopt_of_ne hg, hmemos]
  · rwa [texts_adopt]
  · rwa [texts_adopt]

/-- Learning something of an iterator in the end. -/
theorem Draws.of_learn (m : Memo) (hmemos : d.memos = c.memos)
    (htexts : ∀ n, h ≠ .text n → d.texts[n]? = c.texts[n]?)
    (hstopped : ∀ n : Nat, d.texts[n]?.any (·.closed) = c.texts[n]?.any (·.closed)) :
    Draws [h] c (d.learn h m) := by
  refine .of_one ?_ ?_ htexts hstopped
  · rw [contains_learn, decide_eq_true rfl, Bool.true_or]
  · intro g hg
    rw [get?_learn_of_ne hg, hmemos]

/-- Beginning to spell a text. -/
theorem spell_draws (c : Cache) (text : String) :
    Draws [.text c.texts.size] c
      ({ c with texts := c.texts.push (.begin text) }.adopt (.text c.texts.size)) := by
  refine .of_adopt rfl ?_ ?_ <;> intro n
  · intro hn
    have hne : n ≠ c.texts.size := fun heq => hn (heq ▸ rfl)
    rw [Array.getElem?_push, if_neg hne]
  · rw [Array.getElem?_push]
    split
    · -- a text that is begun is open
      rename_i hn
      rw [hn, Array.getElem?_eq_none (Nat.le_refl _)]
      rfl
    · rfl

/-- Spelling on does not stop a text. -/
theorem stopped_setSpelling (c : Cache) (n k : Nat) :
    (c.setSpelling n (c.spelling n).next.2).texts[k]?.any (·.closed) =
      c.texts[k]?.any (·.closed) := by
  have hnext : (c.spelling n).next.2.closed = (c.spelling n).closed := by
    rw [Spelling.next]
    split <;> rfl
  rw [setSpelling, Array.getElem?_setIfInBounds]
  split
  · rename_i hn
    subst hn
    split
    · rename_i hlt
      rw [getElem?_texts hlt, Option.any_some, Option.any_some, hnext]
    · rename_i hge
      rw [Array.getElem?_eq_none (Nat.le_of_not_lt hge)]
  · rfl

end Cache

/-! ## Operations of a match -/

namespace State

/-- The iterator behind a handle is in the same state: what it has still to give, how many
    values it gave, and whether it is closed. -/
def SameIterator (s t : State) : Handle → Prop
  | .cell i => t.store.iterators[i]? = s.store.iterators[i]?
  | .text n => t.cache.texts[n]? = s.cache.texts[n]?

/-- Some iterators were advanced, and no others. -/
structure Draws (hs : List Handle) (s t : State) : Prop where
  store : Store.PollsOnly (fun i => .cell i ∈ hs) s.store t.store
  cache : Cache.Draws hs s.cache t.cache

variable {s t u : State} {hs hs' : List Handle} {h : Handle}

/-- The cache learned nothing about iterators, and the store only polled them. -/
theorem draws_nil (hstore : Store.PollsOnly (fun _ => False) s.store t.store)
    (hcache : s.cache.SameTables t.cache) : Draws [] s t :=
  ⟨hstore.mono fun _ => False.elim, hcache.draws⟩

theorem Draws.refl (s : State) : Draws [] s s := draws_nil (.refl _) ⟨rfl, rfl, rfl, rfl⟩

theorem Draws.trans (h₁ : Draws hs s t) (h₂ : Draws hs' t u) : Draws (hs ++ hs') s u where
  store :=
    (h₁.store.mono fun _ => List.mem_append_left _).trans
      (h₂.store.mono fun _ => List.mem_append_right _)
  cache := h₁.cache.trans h₂.cache

/-- It only counts which iterators are listed. -/
theorem Draws.congr (hmem : ∀ h, h ∈ hs ↔ h ∈ hs') (hd : Draws hs s t) : Draws hs' s t :=
  ⟨hd.store.mono fun _ hi => (hmem _).1 hi, hd.cache.congr hmem⟩

/-- What draws on listed iterators can be done first. -/
theorem Draws.after (hd : Draws hs' t u) (hfirst : Draws hs s t) (hsub : hs ⊆ hs') :
    Draws hs' s u := by
  refine (hfirst.trans hd).congr fun h => ?_
  rw [List.mem_append]
  exact ⟨fun hh => hh.elim (fun hh => hsub hh) id, .inr⟩

/-- Visiting a value draws on no iterator. -/
theorem register_draws (s : State) (v : Value) : Draws [] s (s.register v).2 := by
  refine draws_nil ?_ ?_
  · rw [register_store]
    exact .refl _
  · cases v with
    | prim p => exact ⟨rfl, rfl, rfl, rfl⟩
    | ref r =>
        simp only [register, Value.identity, Cache.visit]
        split <;> exact ⟨rfl, rfl, rfl, rfl⟩

/-- Reading a property does not either. -/
theorem read_draws (s : State) (v : Value) (k : Key) : Draws [] s (s.read v k).2 := by
  rw [read]
  split
  · exact .refl s
  · split
    · exact .refl s
    · exact draws_nil (Store.inspected_polls.get s.store v k) ⟨rfl, rfl, rfl, rfl⟩

/-- Nor does copying what is left. -/
theorem bindRemainder_draws (marker : Option RestMarker) (keys : List Key) (v : Value)
    (b : Bindings) (s : State) : Draws [] s (bindRemainder marker keys v b s).2 := by
  rw [bindRemainder]
  split
  · exact .refl s
  · exact draws_nil (Store.inspected_polls.without s.store v keys) ⟨rfl, rfl, rfl, rfl⟩

/-- Nor does making an array. -/
theorem bindCollected_draws (name : Option Key) (items : List Value) (b : Bindings)
    (s : State) : Draws [] s (bindCollected name items b s).2 := by
  cases name with
  | none => exact .refl s
  | some name => exact draws_nil (Store.newArray_polls s.store items) ⟨rfl, rfl, rfl, rfl⟩

/-- Taking charge of an iterator counts as drawing on it. -/
theorem adopt_draws (s : State) (h : Handle) : Draws [h] s (s.adopt h) :=
  ⟨.refl _, .of_adopt rfl (fun _ _ => rfl) fun _ => rfl⟩

/-- Looking for the iterator of a value draws on none but the one that is found. -/
theorem iteratorFor_draws (s : State) (v : Value) :
    ∃ hs, hs ⊆ (s.iteratorFor v).1.toList ∧ Draws hs s (s.iteratorFor v).2 := by
  cases v with
  | prim p =>
      cases p with
      | text text => exact ⟨_, List.Subset.refl _, .refl _, s.cache.spell_draws text⟩
      | _ => exact ⟨[], List.nil_subset _, .refl s⟩
  | ref r =>
      simp only [iteratorFor]
      split
      · exact ⟨[], List.nil_subset _, .refl s⟩
      · -- making an iterator polls none, and the cache takes charge of the new one
        have hiterate : Store.PollsOnly (fun _ => False) _ _ := s.store.iterate_polls (.ref r)
        generalize s.store.iterate (.ref r) = iterated at hiterate ⊢
        rcases iterated with ⟨_ | i, σ⟩
        · exact ⟨[], List.nil_subset _, draws_nil hiterate ⟨rfl, rfl, rfl, rfl⟩⟩
        · refine ⟨[.cell i], List.Subset.refl _, hiterate.mono fun _ => False.elim, ?_⟩
          exact .of_adopt rfl (fun _ _ => rfl) fun _ => rfl

/-- An advance draws on its iterator. -/
theorem pull_draws (add : Memo → Step → Memo) (h : Handle) (s : State) :
    Draws [h] s (s.pull add h).2 := by
  cases h with
  | cell i =>
      refine ⟨(s.store.next_polls i).mono ?_, .of_learn _ rfl (fun _ _ => rfl) fun _ => rfl⟩
      rintro j rfl
      exact List.mem_singleton_self _
  | text n =>
      refine ⟨.refl _, .of_learn _ rfl ?_ (s.cache.stopped_setSpelling n)⟩
      intro k hk
      have hne : n ≠ k := fun heq => hk (congrArg _ heq)
      exact Array.getElem?_setIfInBounds_ne hne

/-- An advance more of the same iterator. -/
theorem Draws.pull (hd : Draws [h] s t) (add : Memo → Step → Memo) :
    Draws [h] s (t.pull add h).2 := (t.pull_draws add h).after hd (List.Subset.refl _)

/-- A positional read draws on its iterator. -/
theorem step_draws (s : State) (h : Handle) (position : Nat) :
    Draws [h] s (s.step h position).2 :=
  step_preserves (s.adopt_draws h) (fun _ hd => hd.pull Memo.addStep) position

/-- A drain does, too. -/
theorem drainFrom_draws (s : State) (h : Handle) (position : Nat) :
    Draws [h] s (s.drainFrom h position).2 :=
  drainFrom_preserves (s.adopt_draws h) (fun _ hd => hd.pull Memo.addTail) position

end State

/-! ## Matches -/

open State

section Combining

variable {s t u : State} {visits more : List Visit} {w : Visit} {h : Handle}

/-- A visit that looks for no iterator. -/
theorem draws_leaf (hw : w.handle? = none) : Draws (applied [w]) s s := by
  rw [applied_cons, hw]
  exact .refl s

/-- What an array pattern does with its iterator, and with those that its parts are put
    against. -/
theorem State.Draws.parts (hpart : Draws (applied visits) s t)
    (hmore : Draws (h :: applied more) t u) : Draws (h :: applied (visits ++ more)) s u := by
  refine (hpart.trans hmore).congr fun g => ?_
  rw [applied_append]
  simp only [List.mem_append, List.mem_cons]
  exact or_left_comm

end Combining

mutual

/-- A match draws on the iterators that its array patterns are applied to. -/
theorem matchAt_draws : ∀ (p : Pattern) (place : Option Key) (v : Value) (s : State),
    p.customFree = true → Draws (applied (visitsAt p place v s)) s (matchAt p place v s).2
  | .custom m, place, v, s, hfree => nomatch hfree
  | .identifier name, place, v, s, _ => by
      rw [visitsAt, matchAt]
      exact draws_leaf rfl
  | .rest name, place, v, s, _ => by
      rw [visitsAt, matchAt]
      exact draws_leaf rfl
  | .regex r, place, v, s, _ => by
      rw [visitsAt, matchAt]
      exact draws_leaf rfl
  | .literal q, place, v, s, _ => by
      rw [visitsAt, matchAt]
      exact draws_leaf rfl
  | .array elements, place, v, s, hfree => by
      have hfree : Pattern.everyElement Pattern.asksNoMatcher elements = true := hfree
      obtain ⟨hs, hsub, hopened⟩ := s.iteratorFor_draws v
      have hhandle : (Visit.mk (.array elements) place v s).handle? = (s.iteratorFor v).1 := rfl
      rw [visitsAt, matchAt, applied_cons, hhandle]
      generalize s.iteratorFor v = opened at hsub hopened ⊢
      rcases opened with ⟨_ | h, t⟩
      · -- the value cannot be iterated over
        obtain rfl := List.eq_nil_of_subset_nil hsub
        exact hopened
      · exact (matchElements_draws elements h 0 .empty t hfree).after hopened
          fun _ hh => List.mem_append_left _ (hsub hh)
  | .object entries marker, place, v, s, hfree => by
      have hfree : Pattern.everyEntry Pattern.asksNoMatcher entries = true := hfree
      have hregister := s.register_draws v
      have hhandle : (Visit.mk (.object entries marker) place v s).handle? = none := rfl
      rw [visitsAt, matchAt, applied_cons, hhandle]
      generalize s.register v = registered at hregister ⊢
      rcases registered with ⟨_ | _, t⟩
      · exact hregister
      · have hentries := hregister.trans (matchEntries_draws entries v .empty t hfree)
        dsimp only
        generalize matchEntries entries v .empty t = matched at hentries ⊢
        rcases matched with ⟨b | _ | e, u⟩
        · have hrest := hentries.trans (bindRemainder_draws marker (entries.map Prod.fst) v b u)
          rwa [List.append_nil] at hrest
        · exact hentries
        · exact hentries

/-- And so do the entries of an object pattern. -/
theorem matchEntries_draws : ∀ (entries : List (Key × Pattern)) (v : Value) (b : Bindings)
    (s : State), Pattern.everyEntry Pattern.asksNoMatcher entries = true →
      Draws (applied (visitsEntries entries v s)) s (matchEntries entries v b s).2
  | [], v, b, s, _ => by
      rw [visitsEntries, matchEntries]
      exact .refl s
  | (k, p) :: entries, v, b, s, hfree => by
      rw [Pattern.everyEntry, Bool.and_eq_true] at hfree
      rw [visitsEntries, matchEntries]
      split
      · have hread := s.read_draws v k
        generalize s.read v k = readed at hread ⊢
        obtain ⟨x, t⟩ := readed
        have hp := hread.trans (matchAt_draws p (some k) x t hfree.1)
        dsimp only
        -- only after a match is the next entry visited
        generalize matchAt p (some k) x t = matched at hp ⊢
        rcases matched with ⟨c | _ | e, u⟩
        · rw [applied_append]
          exact hp.trans (matchEntries_draws entries v (b.merge c) u hfree.2)
        · rw [List.append_nil]
          exact hp
        · rw [List.append_nil]
          exact hp
      · exact .refl s

/-- The elements of an array pattern draw on its iterator too. -/
theorem matchElements_draws : ∀ (elements : List (Option Pattern)) (h : Handle)
    (position : Nat) (b : Bindings) (s : State),
      Pattern.everyElement Pattern.asksNoMatcher elements = true →
        Draws (h :: applied (visitsElements elements h position s)) s
          (matchElements elements h position b s).2
  | [], h, position, b, s, _ => by
      rw [visitsElements, matchElements]
      exact s.step_draws h position
  | none :: elements, h, position, b, s, hfree => by
      have hstep := s.step_draws h position
      rw [visitsElements, matchElements]
      generalize s.step h position = stepped at hstep ⊢
      rcases stepped with ⟨x | _, t⟩
      · exact (matchElements_draws elements h (position + 1) b t hfree).after hstep (by simp)
      · exact hstep
  | some p :: elements, h, position, b, s, hfree => by
      rw [Pattern.everyElement, Bool.and_eq_true] at hfree
      rw [visitsElements, matchElements]
      cases p.trailing? elements with
      | some name =>
          exact (s.drainFrom_draws h position).trans (bindCollected_draws name _ b _)
      | none =>
          have hstep := s.step_draws h position
          dsimp only
          generalize s.step h position = stepped at hstep ⊢
          rcases stepped with ⟨x | _, t⟩
          · have hp := matchAt_draws p (some (.index position)) x t hfree.1
            dsimp only
            generalize matchAt p (some (.index position)) x t = matched at hp ⊢
            rcases matched with ⟨c | _ | e, u⟩
            · -- the element was read from the iterator, matched on its own, and the rest draw on
              -- the iterator again
              have hmore := matchElements_draws elements h (position + 1) (b.merge c) u hfree.2
              exact (hp.parts hmore).after hstep (by simp)
            · rw [List.append_nil]
              exact hstep.trans hp
            · rw [List.append_nil]
              exact hstep.trans hp
          · exact hstep

end

/-! ## Patterns without array patterns -/

namespace Pattern

/-- Whether a pattern is not an array pattern. -/
def looksForNoIterator : Pattern → Bool
  | .array _ => false
  | _ => true

/-- Whether there is no array pattern. -/
def arrayFree (p : Pattern) : Bool := p.every looksForNoIterator

end Pattern

mutual

/-- Only parts of the pattern are put against values. -/
theorem visitsAt_every {test : Pattern → Bool} : ∀ (p : Pattern) (place : Option Key)
    (v : Value) (s : State), p.every test = true →
      ∀ w ∈ visitsAt p place v s, test w.pattern = true
  | .custom m, place, v, s, hp => by
      rw [visitsAt]
      exact List.forall_mem_singleton.2 hp
  | .identifier name, place, v, s, hp => by
      rw [visitsAt]
      exact List.forall_mem_singleton.2 hp
  | .rest name, place, v, s, hp => by
      rw [visitsAt]
      exact List.forall_mem_singleton.2 hp
  | .regex r, place, v, s, hp => by
      rw [visitsAt]
      exact List.forall_mem_singleton.2 hp
  | .literal q, place, v, s, hp => by
      rw [visitsAt]
      exact List.forall_mem_singleton.2 hp
  | .array elements, place, v, s, hp => by
      rw [Pattern.every, Bool.and_eq_true] at hp
      rw [visitsAt]
      refine List.forall_mem_cons.2 ⟨hp.1, ?_⟩
      split
      · simp
      · exact visitsElements_every elements _ 0 _ hp.2
  | .object entries marker, place, v, s, hp => by
      rw [Pattern.every, Bool.and_eq_true] at hp
      rw [visitsAt]
      refine List.forall_mem_cons.2 ⟨hp.1, ?_⟩
      split
      · simp
      · exact visitsEntries_every entries v _ hp.2

/-- So for the entries of an object pattern. -/
theorem visitsEntries_every {test : Pattern → Bool} : ∀ (entries : List (Key × Pattern))
    (v : Value) (s : State), Pattern.everyEntry test entries = true →
      ∀ w ∈ visitsEntries entries v s, test w.pattern = true
  | [], v, s, _ => by simp [visitsEntries]
  | (k, p) :: entries, v, s, hp => by
      rw [Pattern.everyEntry, Bool.and_eq_true] at hp
      rw [visitsEntries]
      split
      · refine List.forall_mem_append.2 ⟨visitsAt_every p _ _ _ hp.1, ?_⟩
        split
        · exact visitsEntries_every entries v _ hp.2
        · simp
      · simp

/-- And for the elements of an array pattern. -/
theorem visitsElements_every {test : Pattern → Bool} : ∀ (elements : List (Option Pattern))
    (h : Handle) (position : Nat) (s : State), Pattern.everyElement test elements = true →
      ∀ w ∈ visitsElements elements h position s, test w.pattern = true
  | [], h, position, s, _ => by simp [visitsElements]
  | none :: elements, h, position, s, hp => by
      rw [visitsElements]
      split
      · simp
      · exact visitsElements_every elements h _ _ hp
  | some p :: elements, h, position, s, hp => by
      rw [Pattern.everyElement, Bool.and_eq_true] at hp
      rw [visitsElements]
      split
      · simp
      · split
        · simp
        · refine List.forall_mem_append.2 ⟨visitsAt_every p _ _ _ hp.1, ?_⟩
          split
          · exact visitsElements_every elements h _ _ hp.2
          · simp

end

/-- Without array patterns no iterator is looked for. -/
theorem applied_eq_nil {p : Pattern} (hp : p.arrayFree = true) (place : Option Key) (v : Value)
    (s : State) : applied (visitsAt p place v s) = [] := by
  refine List.filterMap_eq_nil_iff.2 fun w hw => ?_
  have hpattern := visitsAt_every p place v s hp w hw
  rw [Visit.handle?]
  split
  · rename_i elements harray
    rw [harray] at hpattern
    cases hpattern
  · rfl

/-! ## What is left alone -/

/-- Of all iterators a run of a match consumes only these. -/
structure Consumes (hs : List Handle) (s t : State) : Prop where
  /-- The cache is in charge of them. -/
  charged : ∀ h ∈ hs, t.cache.memos.contains h = true
  /-- Every other iterator is as it was. -/
  same : ∀ h, s.Usable h → h ∉ hs → s.SameIterator t h
  /-- Every other iterator that was made meanwhile is as it was made. -/
  unused : ∀ (i : Nat) (it : Iterator), s.store.iterators.size ≤ i →
    t.store.iterators[i]? = some it → .cell i ∉ hs → it.pulled = 0 ∧ it.closed = false
  /-- None is closed. -/
  closed : ∀ h, t.isClosed h = s.isClosed h
  /-- What happened to iterators were polls of these. -/
  events : ∃ new, t.store.events = s.store.events ++ new ∧
    ∀ e ∈ new, e.Polls fun i => .cell i ∈ hs
  /-- User code is still gentle. -/
  gentle : t.store.Gentle

namespace State

variable {s t : State} {hs : List Handle}

/-- What draws on some iterators consumes no others. -/
theorem Draws.consumes (hd : Draws hs s t) (hgentle : s.store.Gentle) : Consumes hs s t := by
  obtain ⟨hstore, hrun⟩ := hd.store hgentle
  refine ⟨hd.cache.charged, ?_, ?_, ?_, hrun.events, hstore⟩
  · intro h hu hnot
    cases h with
    | cell i =>
        -- the iterator was there before, so only polls of it could change it
        have hi : i < s.store.iterators.size := by simpa [Usable, Store.holds] using hu
        exact hrun.iterator_eq_of_polls hnot hi
    | text n => exact hd.cache.texts n hnot
  · intro i it hi here hnot
    exact hrun.fresh_of_polls hnot hi here
  · intro h
    cases h with
    | cell i => exact hrun.closed_of_polls i
    | text n => exact hd.cache.stopped n

end State

/-- **A match consumes only what its array patterns are applied to.**  Where user code is
    gentle and no custom matcher is asked, every other iterator stays as it is, none is
    closed, and without array patterns the tables of the cache do not change either. -/
theorem matchPattern_consumes {p : Pattern} (hfree : p.customFree = true) (v : Value)
    {s : State} (hgentle : s.store.Gentle) :
    Consumes (applied (visitsAt p none v s)) s (matchPattern p v s).2 ∧
      (p.arrayFree = true → (∀ h, s.Usable h → s.SameIterator (matchPattern p v s).2 h) ∧
        s.cache.SameTables (matchPattern p v s).2.cache) := by
  have hdraws : Draws _ s (matchPattern p v s).2 := matchAt_draws p none v s hfree
  have hconsumes := hdraws.consumes hgentle
  refine ⟨hconsumes, fun hp => ?_⟩
  have hnil := applied_eq_nil hp none v s
  refine ⟨fun h hu => hconsumes.same h hu ?_, hdraws.cache.idle hnil⟩
  rw [hnil]
  exact List.not_mem_nil

namespace Picking

/-- Numbers that come one by one. -/
def numbers : Blueprint := .iterator (.mk .generator (.range 0 3) none)

/-- Two iterators, and a getter that makes another one on every run. -/
def plan : Blueprint :=
  .object (.mk none none
    [(⟨"kept"⟩, .field numbers), (⟨"eaten"⟩, .field numbers),
      (⟨"made"⟩, .getter none (.fresh numbers))]
    none)

def value : Value := (plan.build {}).1

def start : State := { store := (plan.build {}).2 }

theorem gentle_start : start.store.Gentle :=
  plan.build_gentle (by simp [plan, numbers, Blueprint.Gentle, Shape.Gentle,
    PropertyPlan.AllGentle, PropertyPlan.Gentle, GetterPlan.Gentle, IteratorPlan.Gentle,
    SourcePlan.Gentle, Blueprint.OptionGentle, IteratorPlan.OptionGentle]) Store.gentle_empty

/-- One iterator is bound, the other one spread, and the getter runs for what is left. -/
def spreading : Pattern :=
  .object
    [(⟨"kept"⟩, .identifier none),
      (⟨"eaten"⟩, .array [some (.identifier none), some (.rest (some ⟨"more"⟩))])]
    (some ⟨some ⟨"left"⟩⟩)

/-- One iterator is matched as an object, the other one stays among what is left. -/
def glancing : Pattern := .object [(⟨"kept"⟩, .object [] (some ⟨none⟩))] (some ⟨some ⟨"left"⟩⟩)

end Picking

/-- The iterator that is spread is used up, and the other two have not been touched. -/
theorem matchPattern_consumes_picking :
    Picking.spreading.customFree = true ∧ Picking.start.store.Gentle ∧
      applied (visitsAt Picking.spreading none Picking.value Picking.start) = [.cell 1] ∧
      Consumes [.cell 1] Picking.start
        (matchPattern Picking.spreading Picking.value Picking.start).2 ∧
      (matchPattern Picking.spreading Picking.value Picking.start).1.isMatched = true ∧
      (matchPattern Picking.spreading Picking.value Picking.start).2.store.iterators.toList.map
        (·.pulled) = [0, 3, 0] ∧
      Picking.glancing.arrayFree = true ∧
      (matchPattern Picking.glancing Picking.value Picking.start).1.isMatched = true ∧
      Picking.start.cache.SameTables
        (matchPattern Picking.glancing Picking.value Picking.start).2.cache := by
  have hfree : Picking.spreading.customFree = true := rfl
  -- only the second iterator is put against an array pattern
  have happlied : applied (visitsAt Picking.spreading none Picking.value Picking.start) =
      [.cell 1] := by decide
  obtain ⟨hconsumes, -⟩ := matchPattern_consumes hfree Picking.value Picking.gentle_start
  rw [happlied] at hconsumes
  have hglancing : Picking.glancing.customFree = true := rfl
  obtain ⟨-, hidle⟩ := matchPattern_consumes hglancing Picking.value Picking.gentle_start
  exact ⟨hfree, Picking.gentle_start, happlied, hconsumes, by decide +kernel,
    by decide +kernel, rfl, by decide +kernel, (hidle rfl).2⟩

end StructuralMatch
