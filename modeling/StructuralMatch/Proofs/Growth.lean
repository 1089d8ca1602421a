import StructuralMatch.Proofs.Session

/-! # The memory only grows

    Whatever goes on, calls of the engine, closing, other code on the store
    (`Onward`), a cache forgets nothing: properties and positional steps are added
    at the end (`Cache.Grows`), and what a memo stands for is extended
    (`Onward.run_extends`). -/

namespace StructuralMatch

/-! ## Growing tables -/

namespace Cache

variable {c d e : Cache}

/-- Everything in the tables of one cache is in those of another, with what is new behind it. -/
structure Grows (c d : Cache) : Prop where
  properties : ∀ (r : Ref) (known : Assoc Key Value), c.properties.get? r = some known →
    ∃ more, d.properties.get? r = some (known ++ more)
  sources : ∀ (r : Ref) (i : Nat), c.sources.get? r = some i → d.sources.get? r = some i
  memos : ∀ (h : Handle) (m : Memo), c.memos.get? h = some m →
    ∃ m', d.memos.get? h = some m' ∧ m.steps <+: m'.steps

/-- Nothing is added. -/
theorem Grows.refl (c : Cache) : Grows c c where
  properties := by
    intro r known hknown
    exact ⟨[], by rw [List.append_nil, hknown]⟩
  sources := fun _ _ h => h
  memos := fun _ m h => ⟨m, h, List.prefix_refl _⟩

/-- What is added later goes behind what was added first. -/
theorem Grows.trans (h₁ : Grows c d) (h₂ : Grows d e) : Grows c e where
  properties := by
    intro r known hknown
    obtain ⟨more, hmore⟩ := h₁.properties r known hknown
    obtain ⟨rest, hrest⟩ := h₂.properties r _ hmore
    exact ⟨more ++ rest, by rw [hrest, List.append_assoc]⟩
  sources := fun r i h => h₂.sources r i (h₁.sources r i h)
  memos := by
    intro h m hm
    obtain ⟨m', hm', hsteps⟩ := h₁.memos h m hm
    obtain ⟨m'', hm'', hsteps'⟩ := h₂.memos h m' hm'
    exact ⟨m'', hm'', hsteps.trans hsteps'⟩

/-- The tables are all that counts. -/
theorem Grows.of_tables_eq (hproperties : d.properties = c.properties)
    (hsources : d.sources = c.sources) (hmemos : d.memos = c.memos) : Grows c d where
  properties := by
    rw [hproperties]
    exact (Grows.refl c).properties
  sources := by
    rw [hsources]
    exact (Grows.refl c).sources
  memos := by
    rw [hmemos]
    exact (Grows.refl c).memos

/-- A visit leaves a table for the value. -/
theorem contains_visit (c : Cache) (r : Ref) : (c.visit r).properties.contains r = true := by
  rw [visit]
  split
  · assumption
  · rw [Assoc.contains, Assoc.get?_insert, if_pos rfl]
    rfl

/-- A table that is opened is empty. -/
theorem grows_visit (c : Cache) (r : Ref) : Grows c (c.visit r) := by
  rw [visit]
  split
  · exact .refl c
  · rename_i hnew
    refine ⟨?_, (Grows.refl c).sources, (Grows.refl c).memos⟩
    intro q known hknown
    have hne : r ≠ q := by
      rintro rfl
      rw [Assoc.contains, hknown] at hnew
      exact hnew rfl
    exact ⟨[], by rw [Assoc.get?_insert, if_neg hne, List.append_nil, hknown]⟩

/-- A property that was not known goes behind the others of its owner. -/
theorem grows_remember {r : Ref} {k : Key} (hnew : c.property? (.ref r) k = none) (x : Value) :
    Grows c (c.remember r k x) := by
  refine ⟨?_, (Grows.refl c).sources, (Grows.refl c).memos⟩
  intro q known hknown
  rw [remember, Assoc.get?_insert]
  by_cases hq : r = q
  · subst hq
    -- an insert under a new key goes to the end
    have hk : k ∉ known.keys := by
      rw [← Assoc.get?_eq_none_iff]
      simpa [property?, Value.identity, hknown] using hnew
    exact ⟨[(k, x)], by rw [if_pos rfl, hknown, Option.getD_some, Assoc.insert_of_not_mem hk]⟩
  · exact ⟨[], by rw [if_neg hq, List.append_nil, hknown]⟩

/-- An iterator is assigned to a value that has none. -/
theorem grows_assign {r : Ref} (hnew : c.sources.get? r = none) (i : Nat) :
    Grows c (c.assign r i) := by
  refine ⟨(Grows.refl c).properties, ?_, (Grows.refl c).memos⟩
  intro q j hj
  have hne : r ≠ q := by
    rintro rfl
    rw [hnew] at hj
    cases hj
  rw [assign, Assoc.get?_insert, if_neg hne, hj]

/-- A memo is begun where there is none. -/
theorem grows_adopt (c : Cache) (h : Handle) : Grows c (c.adopt h) := by
  rw [adopt]
  split
  · exact .refl c
  · rename_i hnew
    refine ⟨(Grows.refl c).properties, (Grows.refl c).sources, ?_⟩
    intro g m hm
    have hne : h ≠ g := by
      rintro rfl
      rw [Assoc.contains, hm] at hnew
      exact hnew rfl
    exact ⟨m, by rw [Assoc.get?_insert, if_neg hne, hm], List.prefix_refl _⟩

/-- A memo that is replaced goes on in its successor. -/
theorem grows_learn {h : Handle} {m : Memo} (hsteps : (c.memo h).steps <+: m.steps) :
    Grows c (c.learn h m) := by
  refine ⟨(Grows.refl c).properties, (Grows.refl c).sources, ?_⟩
  intro g m' hm'
  rw [learn, Assoc.get?_insert]
  by_cases hg : h = g
  · subst hg
    rw [memo, hm', Option.getD_some] at hsteps
    exact ⟨m, if_pos rfl, hsteps⟩
  · exact ⟨m', by rw [if_neg hg, hm'], List.prefix_refl _⟩

end Cache

/-! ## Operations -/

namespace State

variable {s t u : State}

open Cache (Grows)

/-- Advancing an iterator, when what is learned adds to the steps. -/
theorem grows_pull {add : Memo → Step → Memo}
    (hadd : ∀ (m : Memo) (step : Step), m.steps <+: (add m step).steps) (h : Handle) (s : State) :
    Grows s.cache (s.pull add h).2.cache := by
  have hnext : ∀ p, (s.next h p).2.cache.properties = s.cache.properties ∧
      (s.next h p).2.cache.sources = s.cache.sources ∧
        (s.next h p).2.cache.memos = s.cache.memos := by
    intro p
    cases h <;> exact ⟨rfl, rfl, rfl⟩
  rw [pull]
  dsimp only
  -- advancing touches the log and the texts, and then one memo is written
  generalize (s.cache.memo h).steps.length + (s.cache.memo h).tail.length = p
  obtain ⟨hproperties, hsources, hmemos⟩ := hnext p
  generalize s.next h p = advanced at hproperties hsources hmemos ⊢
  obtain ⟨step, t⟩ := advanced
  have hgrows : Grows s.cache t.cache := .of_tables_eq hproperties hsources hmemos
  have hmemo : t.cache.memo h = s.cache.memo h := by rw [Cache.memo, hmemos, Cache.memo]
  exact hgrows.trans (Cache.grows_learn (hmemo ▸ hadd _ _))

/-- A positional read adds to the steps. -/
theorem grows_step (s : State) (h : Handle) (p : Nat) : Grows s.cache (s.step h p).2.cache := by
  have hadd : ∀ (m : Memo) (step : Step), m.steps <+: (m.addStep step).steps :=
    fun _ _ => List.prefix_append _ _
  exact step_preserves (P := fun t => Grows s.cache t.cache) (Cache.grows_adopt _ _)
    (fun t ht => ht.trans (grows_pull hadd h t)) p

/-- A drain leaves the steps and adds to the tail. -/
theorem grows_drainFrom (s : State) (h : Handle) (p : Nat) :
    Grows s.cache (s.drainFrom h p).2.cache := by
  have hadd : ∀ (m : Memo) (step : Step), m.steps <+: (m.addTail step).steps :=
    fun m step => Memo.addTail_steps m step ▸ List.prefix_refl _
  exact drainFrom_preserves (P := fun t => Grows s.cache t.cache) (Cache.grows_adopt _ _)
    (fun t ht => ht.trans (grows_pull hadd h t)) p

/-- A read adds the property, if it is new. -/
theorem grows_read (s : State) (v : Value) (k : Key) : Grows s.cache (s.read v k).2.cache := by
  cases v with
  | prim p => exact .refl _
  | ref r =>
      cases hknown : s.cache.property? (.ref r) k with
      | some x =>
          simp only [State.read, Value.identity, hknown]
          exact .refl _
      | none =>
          simp only [State.read, Value.identity, hknown]
          exact (Cache.grows_remember hknown _).trans (.of_tables_eq rfl rfl rfl)

/-- An iterator is added for a value that had none, or for a text. -/
theorem grows_iteratorFor (s : State) (v : Value) :
    Grows s.cache (s.iteratorFor v).2.cache := by
  cases v with
  | prim p =>
      cases p with
      | text text =>
          -- a text has a handle of its own, so no table is touched
          have hpush : Grows s.cache
              { s.cache with texts := s.cache.texts.push (.begin text) } :=
            .of_tables_eq rfl rfl rfl
          exact hpush.trans (Cache.grows_adopt _ _)
      | _ => exact .refl _
  | ref r =>
      cases hknown : s.cache.sources.get? r with
      | some i =>
          simp only [iteratorFor, hknown]
          exact .refl _
      | none =>
          simp only [iteratorFor, hknown]
          split
          · exact .refl _
          · rename_i i σ heffect
            -- the opening is logged before the cache takes charge of the iterator
            have hrecord : Grows (s.cache.assign r i)
                ((s.cache.assign r i).record (.opened r i) s.store σ) := .of_tables_eq rfl rfl rfl
            exact ((Cache.grows_assign hknown i).trans hrecord).trans (Cache.grows_adopt _ _)

/-- Every operation of a match lets the tables grow. -/
theorem Act.grows (h : Act s t) : Grows s.cache t.cache := by
  cases h with
  | register v =>
      cases v with
      | prim p => exact .refl _
      | ref r => exact Cache.grows_visit _ _
  | read held k => exact grows_read s _ k
  | iteratorFor held => exact grows_iteratorFor s _
  | step usable p => exact grows_step s _ p
  | drainFrom usable reached => exact grows_drainFrom s _ _
  | collect items => exact .of_tables_eq rfl rfl rfl
  | remainder held keys => exact .of_tables_eq rfl rfl rfl
  | consult m v => exact .of_tables_eq rfl rfl rfl

theorem grows_closeHandle (s : State) (h : Handle) :
    Grows s.cache (s.closeHandle h).2.cache := by
  cases h with
  | cell i => exact .refl _
  | text n => exact .of_tables_eq rfl rfl rfl

/-- Closing forgets nothing. -/
theorem grows_closeAll : ∀ (hs : List Handle) (s : State),
    Grows s.cache (closeAll hs s).2.cache
  | [], _ => .refl _
  | h :: hs, s => (grows_closeHandle s h).trans (grows_closeAll hs _)

theorem grows_close (s : State) : Grows s.cache s.close.2.cache := by
  have hempty : Grows s.cache { s.cache with opened := [] } := .of_tables_eq rfl rfl rfl
  exact hempty.trans
    (grows_closeAll s.cache.opened { s with cache := { s.cache with opened := [] } })

/-! ## Whatever goes on -/

/-- The life of a cache goes on: operations of matches, closing, and other code. -/
inductive Onward : State → State → Prop where
  | refl (s : State) : Onward s s
  | act {s t u : State} (before : Onward s t) (last : Act t u) : Onward s u
  | close {s t : State} (before : Onward s t) : Onward s t.close.2
  | outside {s t : State} (before : Onward s t) {σ : Store} (done : t.store.Leads σ) :
      Onward s { t with store := σ }

/-- A life goes on after it went on. -/
theorem Onward.trans (h₁ : Onward s t) (h₂ : Onward t u) : Onward s u := by
  induction h₂ with
  | refl => exact h₁
  | act _ last ih => exact .act ih last
  | close _ ih => exact .close ih
  | outside _ done ih => exact .outside ih done

/-- Operations of a match are part of it. -/
theorem Acts.onward (h : Acts s t) : Onward s t := by
  induction h with
  | refl => exact .refl s
  | tail _ last ih => exact .act ih last

/-- Closing leaves the memos. -/
theorem Settled.close (hset : s.Settled) : s.close.2.Settled := by
  intro h
  rw [Cache.memo, (close_remembers s).memos]
  exact hset h

/-- The log stays true, and no drain is left unfinished. -/
theorem Onward.sound_settled (h : Onward s t) (hs : s.Sound) (hset : s.Settled) :
    t.Sound ∧ t.Settled := by
  induction h with
  | refl => exact ⟨hs, hset⟩
  | act _ last ih =>
      have hproceeds := last.proceeds ih.1 ih.2
      exact ⟨hproceeds.works.sound ih.1, hproceeds.settled⟩
  | close _ ih => exact ⟨(close_remembers _).sound ih.1, ih.2.close⟩
  | outside _ done ih => exact ⟨ih.1.outside done, ih.2⟩

/-- Along a whole life the tables grow. -/
theorem Onward.grows (h : Onward s t) : Grows s.cache t.cache := by
  induction h with
  | refl => exact .refl _
  | act _ last ih => exact ih.trans last.grows
  | close _ ih => exact ih.trans (grows_close _)
  | outside _ done ih => exact ih

section Sound

variable (hs : s.Sound) (hset : s.Settled)

include hs hset

/-- The store changes by what programs can do. -/
theorem Onward.leads (h : Onward s t) : s.store.Leads t.store := by
  induction h with
  | refl => exact .refl _
  | act before last ih =>
      obtain ⟨ht, htset⟩ := before.sound_settled hs hset
      exact ih.trans (last.proceeds ht htset).works.leads
  | close _ ih => exact ih.trans (close_leads _)
  | outside _ done ih => exact ih.trans done

/-- What a memo stands for is extended, if it changes at all. -/
theorem Onward.run_extends (h : Onward s t) (g : Handle) {vs : List Value} {ended : Bool}
    (hm : (s.cache.memo g).Stands vs ended) :
    ∃ ws ended', (t.cache.memo g).Stands ws ended' ∧ Step.run vs ended <+: Step.run ws ended' := by
  induction h with
  | refl => exact ⟨vs, ended, hm, List.prefix_refl _⟩
  | act before last ih =>
      obtain ⟨ht, htset⟩ := before.sound_settled hs hset
      obtain ⟨ws, ended', hws, hextends⟩ := ih
      obtain ⟨us, ended'', hus, hextends'⟩ := (last.proceeds ht htset).works.run_extends g hws
      exact ⟨us, ended'', hus, hextends.trans hextends'⟩
  | close _ ih =>
      rw [Cache.memo, (close_remembers _).memos]
      exact ih
  | outside _ done ih => exact ih

/-- Values that are all stay all. -/
theorem Onward.stands_ended (h : Onward s t) {g : Handle} {vs : List Value}
    (hm : (s.cache.memo g).Stands vs true) : (t.cache.memo g).Stands vs true := by
  obtain ⟨ws, ended, hws, hextends⟩ := h.run_extends hs hset g hm
  obtain ⟨rfl, rfl⟩ := Step.eq_of_extends hextends
  exact hws

end Sound

end State

/-- An engine call goes on with the life of its cache. -/
theorem Call.perform_acts (c : Call) {s : State} (hs : s.Sound) (hset : s.Settled)
    (held : s.store.holds c.subject = true) : State.Acts s (c.perform s).2 := by
  cases c with
  | pattern p v => exact matchAt_acts p none v s hs hset held
  | object o v => exact matchAt_acts o.toPattern none v s hs hset held
  | array a i =>
      exact matchElements_acts a.elements (.cell i) 0 .empty s hs hset held
        (hs.reached_zero held)

end StructuralMatch
