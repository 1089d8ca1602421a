import StructuralMatch.Proofs.Abreast
import StructuralMatch.Proofs.Presence
import StructuralMatch.Proofs.Store.Still

/-! # Looking at what keeps still

    A match that looks at a part of a store that keeps still comes upon the same values
    wherever it stands, whatever it has looked at before: a property reads the same from
    memory and from the store, and what is known of an iterator and what it has still to
    give are together always the same list.  `Still.Keeping` is that invariant, and each
    operation of a match keeps it and gives what the part says (`Steady.read`,
    `Steady.iteratorFor`, `Steady.step`, `Steady.drainFrom`). -/

namespace StructuralMatch

namespace State

variable {s : State}

/-- Of an iterator that is not there nothing is known. -/
theorem Sound.stands_unborn (hs : s.Sound) {i : Nat} (hi : s.store.iterators.size ≤ i) :
    (s.cache.memo (.cell i)).Stands [] false := by
  obtain ⟨vs, ended, hm, hadvances⟩ := hs.faithful.advances i
  -- whatever was advanced was there
  have hnone : s.cache.advances i = [] := by
    refine List.filterMap_eq_nil_iff.2 fun e he => ?_
    have held := hs.held e he
    cases hstep : e.access with
    | advanced j position step =>
        rw [hstep] at held
        have hj : j < s.store.iterators.size := by simpa [Store.holds] using held.1
        exact if_neg (Nat.ne_of_lt (Nat.lt_of_lt_of_le hj hi))
    | _ => rfl
  have hrun : Step.run vs ended = [] := by simpa [hnone] using hadvances.symm
  cases ended with
  | true => simp [Step.run_true] at hrun
  | false =>
      obtain rfl : vs = [] := by simpa [Step.run_false] using hrun
      exact hm

end State

namespace Store

namespace Still

variable {σ : Store} (S : σ.Still)

/-- The values behind a value that can be iterated over. -/
def listed : Value → Option (List Value)
  | .prim (.text text) => some (Spelling.letters text.toList)
  | .prim _ => none
  | .ref r => S.values r

/-- These are the values of the iterator: it belongs to the part, or it was opened for
    something in it. -/
inductive Known (sources : Assoc Ref Nat) (i : Nat) (xs : List Value) : Prop
  | own (here : S.part (.iterator i)) (all : xs = S.yields i)
  | opened {r : Ref} (source : sources.get? r = some i) (values : S.values r = some xs)

/-- What is known of the iterator are the first of its values, and it has the others still to
    give, from cells that are there. -/
structure Fed (s : State) (cells : Nat → Prop) (i : Nat) (xs : List Value) : Prop where
  own : cells i
  there : ∀ c, cells c → c < s.store.iterators.size
  feeds : ∃ vs ended zs, (s.cache.memo (.cell i)).Stands vs ended ∧ xs = vs ++ zs ∧
    (ended = true → zs = []) ∧ s.store.Feeds cells i zs

/-- A match has looked at nothing but the part, and each of its iterators uses these cells. -/
structure Kept (cells : Nat → Nat → Prop) (s : State) : Prop where
  keeps : σ.Keeps s.store
  factories : σ.SameFactories s.store
  read : ∀ {r : Ref} {k : Key} {x : Value}, s.cache.property? (.ref r) k = some x →
    x = S.property r k
  opened : ∀ {r : Ref} {i : Nat}, s.cache.sources.get? r = some i →
    ∃ xs, S.values r = some xs
  fed : ∀ {i : Nat} {xs : List Value}, S.Known s.cache.sources i xs → Fed s (cells i) i xs
  apart : ∀ {i j : Nat} {xs ys : List Value}, S.Known s.cache.sources i xs →
    S.Known s.cache.sources j ys → i ≠ j → ∀ c, cells i c → ¬cells j c

/-- A match has looked at nothing but the part. -/
def Keeping (s : State) : Prop := ∃ cells, S.Kept cells s

/-- An iterator of the store is advanced only if its values are known. -/
def Serving (sources : Assoc Ref Nat) (h : Handle) : Prop :=
  ∀ i, h = .cell i → ∃ xs, S.Known sources i xs

/-- The values behind a handle. -/
inductive Behind (s : State) : Handle → List Value → Prop
  | cell {i : Nat} {all : List Value} (known : S.Known s.cache.sources i all) :
      Behind s (.cell i) all
  | text {n : Nat} {text : String} (spells : s.Spells n text) :
      Behind s (.text n) (Spelling.letters text.toList)

/-- From a position on, a handle gives these values and is done then. -/
structure Serves (s : State) (h : Handle) (p : Nat) (xs : List Value) : Prop where
  usable : s.Usable h
  reached : s.Reached h p
  behind : ∃ all, S.Behind s h all ∧ xs = all.drop p

variable {S} {s t : State} {cells : Nat → Nat → Prop} {i p : Nat} {xs : List Value} {h : Handle}

/-! ## The invariant -/

/-- At first nothing is known. -/
theorem keeping_start : S.Keeping { store := σ } := by
  have hown : ∀ {i xs}, S.Known [] i xs → S.part (.iterator i) ∧ xs = S.yields i := by
    rintro i xs (⟨here, all⟩ | ⟨source, -⟩)
    · exact ⟨here, all⟩
    · cases source
  refine ⟨S.cells, .refl σ, .refl σ, nofun, nofun, fun hi => ?_, fun hi hj hne => ?_⟩
  · obtain ⟨here, rfl⟩ := hown hi
    exact ⟨(S.own here).1, (S.own here).2, [], false, _, .going [] [], rfl, nofun, S.feeds here⟩
  · exact S.apart (hown hi).1 (hown hj).1 hne

/-- The store goes on without iterators, and nothing is learned of them. -/
theorem Kept.after (hk : S.Kept cells s) (hstore : s.store.Reaches (fun _ => False) t.store)
    (hread : ∀ {r : Ref} {k : Key} {x : Value}, t.cache.property? (.ref r) k = some x →
      x = S.property r k)
    (hsources : t.cache.sources = s.cache.sources)
    (hmemo : ∀ i, t.cache.memo (.cell i) = s.cache.memo (.cell i)) : S.Kept cells t := by
  refine ⟨hk.keeps.trans hstore.keeps, hk.factories.trans (hstore.sameFactories fun _ => id),
    hread, hsources ▸ hk.opened, fun hi => ?_, hsources ▸ hk.apart⟩
  obtain ⟨own, there, vs, ended, zs, hm, hall, hended, hfeeds⟩ := hk.fed (hsources ▸ hi)
  refine ⟨own, fun c hc => Nat.lt_of_lt_of_le (there c hc) hstore.iterators_size,
    vs, ended, zs, hmemo _ ▸ hm, hall, hended, hfeeds.after (hstore.mono fun _ => False.elim)⟩

/-- Nothing is learned at all. -/
theorem Kept.idle (hk : S.Kept cells s) (hstore : s.store.Reaches (fun _ => False) t.store)
    (hproperties : t.cache.properties = s.cache.properties)
    (hsources : t.cache.sources = s.cache.sources)
    (hmemo : ∀ i, t.cache.memo (.cell i) = s.cache.memo (.cell i)) : S.Kept cells t := by
  refine hk.after hstore (fun {r k x} hx => hk.read (?_ : s.cache.property? (.ref r) k = some x))
    hsources hmemo
  rwa [Cache.property?, ← hproperties]

theorem Kept.adopt (hk : S.Kept cells s) (h : Handle) : S.Kept cells (s.adopt h) :=
  hk.idle (.refl _) (Cache.properties_adopt _ _) (Cache.sources_adopt _ _) fun _ =>
    Cache.memo_adopt _ _ _

/-! ## Advancing -/

/-- What advancing an iterator whose memo waits leaves behind. -/
theorem Kept.pull (hk : S.Kept cells s) (hserving : S.Serving s.cache.sources h)
    (hknown : s.cache.memos.contains h = true) (hu : s.Usable h) {vs : List Value}
    (waits : (s.cache.memo h).Stands vs false) {add : Memo → Step → Memo}
    (hadd : ∀ step : Step,
      (add (s.cache.memo h) step).Stands (vs ++ step.value?.toList) step.isDone) :
    S.Kept cells (s.pull add h).2 := by
  have hmemo := (State.pull_pulls hu hknown waits hadd).memo
  cases h with
  | text n =>
      exact hk.idle (.refl _) rfl rfl fun i => (hmemo (.cell i)).trans (if_neg Handle.noConfusion)
  | cell j =>
      obtain ⟨ys, hj⟩ := hserving j rfl
      have hfed := hk.fed hj
      have hjthere := hfed.there j hfed.own
      obtain ⟨-, -, us, ended, zs, hus, -, -, hfeeds⟩ := hfed
      obtain ⟨rfl, rfl⟩ := waits.unique hus
      obtain ⟨hstep, hwithin, -⟩ := hfeeds.next hjthere
      have hstore : (s.pull add (.cell j)).2.store = (s.store.next j).2 := rfl
      have hone : (s.pull add (.cell j)).1 = (s.store.next j).1 := rfl
      refine ⟨hk.keeps.trans hwithin.keeps, hk.factories.trans
        (hwithin.sameFactories Event.Within.not_opened), hk.read, hk.opened, fun {i xs} hi => ?_,
        hk.apart⟩
      have hfedi := hk.fed hi
      obtain ⟨own, there, ws, ended, zs', hm, rfl, hended, hfeedsi⟩ := hfedi
      refine ⟨own, fun c hc => Nat.lt_of_lt_of_le (there c hc) hwithin.iterators_size, ?_⟩
      rw [hmemo (.cell i)]
      by_cases hij : j = i
      · -- the iterator itself has one value less to give
        subst hij
        obtain ⟨rfl, rfl⟩ := waits.unique hm
        obtain ⟨hnext, -, hrest⟩ := hfeedsi.next hjthere
        rw [if_pos rfl]
        refine ⟨_, _, zs'.tail, hadd _, ?_, ?_, hrest⟩
        · rw [hone, hnext]
          cases zs' <;> simp [Step.ofOption, Step.value?]
        · rw [hone, hnext]
          cases zs' <;> simp [Step.ofOption, Step.isDone]
      · -- the others use other cells
        have hne : ¬(Handle.cell j = Handle.cell i) := fun e => hij (Handle.cell.inj e)
        rw [if_neg hne]
        exact ⟨ws, ended, zs', hm, rfl, hended,
          hfeedsi.after_next hfeeds hjthere (hk.apart hj hi hij)⟩

/-- Advancing an iterator several times, up to its end. -/
theorem Kept.repeatedly {add : Memo → Step → Memo} {Q : Memo → Prop}
    (hadd : ∀ {m : Memo} {vs : List Value} (step : Step), Q m → m.Stands vs false →
      (add m step).Stands (vs ++ step.value?.toList) step.isDone ∧ Q (add m step))
    (count : Nat) : ∀ {s : State} {vs : List Value}, S.Kept cells s →
      S.Serving s.cache.sources h → s.cache.memos.contains h = true → s.Usable h →
        Q (s.cache.memo h) → (s.cache.memo h).Stands vs false →
          S.Kept cells (State.repeatedly (State.pull add h) count s) := by
  induction count with
  | zero => exact fun hk _ _ _ _ _ => hk
  | succ count ih =>
      intro s vs hk hserving hknown hu hQ waits
      have hpulls := State.pull_pulls hu hknown waits fun step => (hadd step hQ waits).1
      have hpulled := hk.pull hserving hknown hu waits fun step => (hadd step hQ waits).1
      have hserving' : S.Serving (s.pull add h).2.cache.sources h := by
        cases h <;> exact hserving
      have hfound := hpulls.memo h
      rw [if_pos rfl] at hfound
      rw [State.repeatedly]
      generalize s.pull add h = pulled at hpulls hpulled hserving' hfound ⊢
      obtain ⟨step, t⟩ := pulled
      cases step with
      | done => exact hpulled
      | yielded x =>
          obtain ⟨hstands, hQ'⟩ := hadd (.yielded x) hQ waits
          exact ih hpulled hserving' hpulls.known (hpulls.works.usable hu) (hfound ▸ hQ')
            (hfound ▸ hstands)

/-- A positional read. -/
theorem Kept.step (hk : S.Kept cells s) (hs : s.Sound) (hset : s.Settled)
    (hserving : S.Serving s.cache.sources h) (hu : s.Usable h) (p : Nat) :
    S.Kept cells (s.step h p).2 := by
  have hadopt := State.adopt_leaves hs hset hu
  obtain ⟨vs, ended, hm⟩ := (hadopt.works.sound hs).stands (hadopt.works.usable hu)
  rw [State.step]
  dsimp only
  split
  · exact hk.adopt h
  · rename_i hat
    -- the read goes beyond what is known, so the memo waits for more
    rw [hm.at?_eq_told (hadopt.settled h)] at hat
    obtain ⟨rfl, -⟩ := Step.told_eq_none hat
    refine (hk.adopt h).repeatedly (Q := Memo.Settled) (fun step hset' waits => ?_) _ ?_
      (Cache.contains_adopt_self _ _) (hadopt.works.usable hu) (hadopt.settled h) hm
    · exact ⟨waits.addStep hset' step, hset'.addStep step⟩
    · exact (Cache.sources_adopt s.cache h).symm ▸ hserving

/-- A drain. -/
theorem Kept.drainFrom (hk : S.Kept cells s) (hs : s.Sound) (hset : s.Settled)
    (hserving : S.Serving s.cache.sources h) (hu : s.Usable h) (hr : s.Reached h p) :
    S.Kept cells (s.drainFrom h p).2 := by
  have hadopt := State.adopt_leaves hs hset hu
  obtain ⟨vs, ended, hm, hp⟩ := hadopt.works.reached hr
  rw [State.drainFrom]
  dsimp only
  split
  · exact hk.adopt h
  · rename_i hknown
    rw [State.drain]
    split
    · exact hk.adopt h
    · rename_i hdrained
      obtain rfl := hm.waits_of_any_isDone hp (Bool.eq_false_iff.2 hknown)
        (Bool.eq_false_iff.2 hdrained)
      refine (hk.adopt h).repeatedly (Q := fun _ => True) (fun step _ waits => ?_) _ ?_
        (Cache.contains_adopt_self _ _) (hadopt.works.usable hu) trivial hm
      · exact ⟨waits.addTail step, trivial⟩
      · exact (Cache.sources_adopt s.cache h).symm ▸ hserving

/-! ## Opening -/

/-- What is known once an iterator has been opened was known before, but for that iterator. -/
theorem Known.of_insert {sources : Assoc Ref Nat} {r : Ref} {j : Nat} {ys : List Value}
    (hvalues : S.values r = some xs) (hj : S.Known (sources.insert r i) j ys) :
    (j = i ∧ ys = xs) ∨ S.Known sources j ys := by
  cases hj with
  | own here all => exact .inr (.own here all)
  | @opened q source values =>
      rw [Assoc.get?_insert] at source
      split at source
      · rename_i hq
        subst hq
        exact .inl ⟨(Option.some.inj source).symm, Option.some.inj (values.symm.trans hvalues)⟩
      · exact .inr (.opened source values)

/-- What is fed goes on being fed where the iterators that were there are spared. -/
theorem Fed.after (hf : Fed s (cells i) i xs)
    (hspares : s.store.Reaches (Event.Spares (· < s.store.iterators.size)) t.store)
    (hmemo : t.cache.memo (.cell i) = s.cache.memo (.cell i)) : Fed t (cells i) i xs := by
  obtain ⟨own, there, vs, ended, zs, hm, hall, hended, hfeeds⟩ := hf
  refine ⟨own, fun c hc => Nat.lt_of_lt_of_le (there c hc) hspares.iterators_size,
    vs, ended, zs, hmemo ▸ hm, hall, hended, hfeeds.after (hspares.mono ?_)⟩
  exact fun e he j hj => he j (there j hj)

/-- What opening an iterator does to the tables. -/
structure Opened (s t : State) (r : Ref) (i : Nat) : Prop where
  factories : s.store.SameFactories t.store
  spares : s.store.Reaches (Event.Spares (· < s.store.iterators.size)) t.store
  properties : t.cache.properties = s.cache.properties
  sources : t.cache.sources = s.cache.sources.insert r i
  memo : ∀ j, t.cache.memo (.cell j) = s.cache.memo (.cell j)

/-- Once an iterator has been opened, everything is fed if it is. -/
theorem Kept.opening (hk : S.Kept cells s) {r : Ref} (hopened : Opened s t r i)
    (hvalues : S.values r = some xs) {cells' : Nat → Nat → Prop}
    (hfed : ∀ {j ys}, S.Known t.cache.sources j ys → Fed t (cells' j) j ys)
    (hapart : ∀ {j k ys zs}, S.Known t.cache.sources j ys → S.Known t.cache.sources k zs →
      j ≠ k → ∀ c, cells' j c → ¬cells' k c) : S.Kept cells' t := by
  refine ⟨hk.keeps.trans hopened.spares.keeps, hk.factories.trans hopened.factories,
    fun {q j x} hx => hk.read (?_ : s.cache.property? (.ref q) j = some x), ?_, hfed, hapart⟩
  · rwa [Cache.property?, ← hopened.properties]
  · intro q j hq
    rw [hopened.sources, Assoc.get?_insert] at hq
    split at hq
    · rename_i hrq
      exact ⟨xs, hrq ▸ hvalues⟩
    · exact hk.opened hq

/-- An iterator of the part is opened. -/
theorem Kept.opened_known (hk : S.Kept cells s) {r : Ref} (hopened : Opened s t r i)
    (hvalues : S.values r = some xs) (hgives : S.part (.iterator i) ∧ xs = S.yields i) :
    S.Kept cells t := by
  have hknown : ∀ {j ys}, S.Known t.cache.sources j ys → S.Known s.cache.sources j ys := by
    intro j ys hj
    rcases Known.of_insert hvalues (hopened.sources ▸ hj) with ⟨rfl, rfl⟩ | hold
    · exact .own hgives.1 hgives.2
    · exact hold
  exact hk.opening hopened hvalues
    (fun hj => (hk.fed (hknown hj)).after hopened.spares (hopened.memo _))
    fun hj hl => hk.apart (hknown hj) (hknown hl)

/-- A new iterator is opened, which has cells of its own. -/
theorem Kept.opened_new (hk : S.Kept cells s) (hs : s.Sound) {r : Ref} (hopened : Opened s t r i)
    (hvalues : S.values r = some xs) {new : Nat → Prop} (own : new i)
    (fresh : ∀ c, new c → s.store.iterators.size ≤ c ∧ c < t.store.iterators.size)
    (feeds : t.store.Feeds new i xs) : S.Keeping t := by
  have hknown : ∀ {j ys}, S.Known t.cache.sources j ys →
      (j = i ∧ ys = xs) ∨ (j ≠ i ∧ S.Known s.cache.sources j ys) := by
    intro j ys hj
    rcases Known.of_insert hvalues (hopened.sources ▸ hj) with hnew | hold
    · exact .inl hnew
    · refine .inr ⟨?_, hold⟩
      rintro rfl
      exact absurd ((hk.fed hold).there j (hk.fed hold).own) (Nat.not_lt.2 (fresh j own).1)
  -- the cells of the others were there before
  have hold : ∀ {j ys}, S.Known s.cache.sources j ys → ∀ c, cells j c → ¬new c :=
    fun hj c hc hnew => absurd ((hk.fed hj).there c hc) (Nat.not_lt.2 (fresh c hnew).1)
  refine ⟨fun j => if j = i then new else cells j, hk.opening hopened hvalues ?_ ?_⟩
  · intro j ys hj
    rcases hknown hj with ⟨rfl, rfl⟩ | ⟨hne, hj⟩
    · rw [if_pos rfl]
      refine ⟨own, fun c hc => (fresh c hc).2, [], false, ys, ?_, rfl, nofun, feeds⟩
      rw [hopened.memo]
      exact hs.stands_unborn (fresh j own).1
    · rw [if_neg hne]
      exact (hk.fed hj).after hopened.spares (hopened.memo j)
  · intro j k ys zs hj hl hjk c
    rcases hknown hj with ⟨rfl, rfl⟩ | ⟨hnej, hj⟩ <;> rcases hknown hl with ⟨rfl, rfl⟩ | ⟨hnek, hl⟩
    · exact absurd rfl hjk
    · rw [if_pos rfl, if_neg hnek]
      exact fun hnew hc => hold hl c hc hnew
    · rw [if_neg hnej, if_pos rfl]
      exact hold hj c
    · rw [if_neg hnej, if_neg hnek]
      exact hk.apart hj hl hjk c

/-- Opening an iterator for something in the part. -/
theorem Kept.open (hk : S.Kept cells s) (hs : s.Sound) {r : Ref} (hr : S.part r)
    (hvalues : S.values r = some xs) (hnew : s.cache.sources.get? r = none) :
    ∃ i t, s.iteratorFor (.ref r) = (some (.cell i), t) ∧
      t.cache.sources.get? r = some i ∧ S.Keeping t := by
  have hfactories := s.store.sameFactories_iterate (.ref r)
  -- in whatever way the iterator is opened, the tables change in this way
  have hfor : ∀ {i υ}, s.store.iterate (.ref r) = (some i, υ) →
      s.store.Reaches (Event.Spares (· < s.store.iterators.size)) υ →
        ∃ t, s.iteratorFor (.ref r) = (some (.cell i), t) ∧ t.store = υ ∧
          t.cache.sources.get? r = some i ∧ Opened s t r i := by
    intro i υ heffect hspares
    rw [heffect] at hfactories
    refine ⟨⟨((s.cache.assign r i).record (.opened r i) s.store υ).adopt (.cell i), υ⟩, ?_, rfl, ?_,
      hfactories, hspares, Cache.properties_adopt _ _, Cache.sources_adopt _ _,
      fun _ => Cache.memo_adopt _ _ _⟩
    · simp only [State.iteratorFor, hnew, heffect]
    · rw [Cache.sources_adopt]
      exact (Assoc.get?_insert ..).trans (if_pos rfl)
  cases S.opens_values hr hvalues hk.keeps hk.factories with
  | known heffect hspares hgives =>
      obtain ⟨t, hfor, -, hsource, hopened⟩ := hfor heffect hspares
      exact ⟨_, t, hfor, hsource, cells, hk.opened_known hopened hvalues hgives⟩
  | new heffect hspares feeds own fresh =>
      obtain ⟨t, hfor, rfl, hsource, hopened⟩ := hfor heffect hspares
      exact ⟨_, t, hfor, hsource, hk.opened_new hs hopened hvalues own fresh feeds⟩

/-! ## Giving -/

theorem Behind.serving {all : List Value} (hb : S.Behind s h all) :
    S.Serving s.cache.sources h := by
  rintro i rfl
  cases hb with
  | cell known => exact ⟨all, known⟩

/-- What stands behind a handle stays. -/
theorem Behind.later {all : List Value} (hb : S.Behind s h all) (hacts : State.Acts s t)
    (hs : s.Sound) (hset : s.Settled) : S.Behind t h all := by
  cases hb with
  | text spells => exact .text (spells.later (hacts.proceeds hs hset).works)
  | cell known =>
      cases known with
      | own here values => exact .cell (.own here values)
      | opened source values => exact .cell (.opened (hacts.onward.grows.sources _ _ source) values)

theorem Serves.later (hserves : S.Serves s h p xs) (hacts : State.Acts s t) (hs : s.Sound)
    (hset : s.Settled) : S.Serves t h p xs := by
  obtain ⟨all, hb, hxs⟩ := hserves.behind
  have hworks := (hacts.proceeds hs hset).works
  exact ⟨hworks.usable hserves.usable, hworks.reached hserves.reached,
    all, hb.later hacts hs hset, hxs⟩

/-- What is known of a handle are the first of the values behind it, or all. -/
theorem Behind.values {all vs : List Value} {ended : Bool} (hb : S.Behind s h all)
    (hk : S.Keeping s) (hs : s.Sound) (hm : (s.cache.memo h).Stands vs ended) :
    vs <+: all ∧ (ended = true → vs = all) := by
  obtain ⟨cells, hk⟩ := hk
  cases hb with
  | text spells => exact spells.values hs hm
  | cell known =>
      obtain ⟨-, -, ws, ended', zs, hm', rfl, hended, -⟩ := hk.fed known
      obtain ⟨rfl, rfl⟩ := hm.unique hm'
      exact ⟨List.prefix_append _ _, fun h => by rw [hended h, List.append_nil]⟩

/-- A match that has looked at nothing but the part stands between two operations. -/
structure Steady (S : σ.Still) (s : State) : Prop where
  sound : s.Sound
  settled : s.Settled
  keeping : S.Keeping s

namespace Steady

theorem keeps (hs : S.Steady s) : σ.Keeps s.store := by
  obtain ⟨cells, hk⟩ := hs.keeping
  exact hk.keeps

/-- What belongs to the part is still there. -/
theorem held (hs : S.Steady s) {v : Value} (hv : v.Within S.part) : s.store.holds v = true :=
  hs.keeps.holds (S.holds hv)

theorem acts (hs : S.Steady s) (hacts : State.Acts s t) (hkeeping : S.Keeping t) : S.Steady t := by
  have hproceeds := hacts.proceeds hs.sound hs.settled
  exact ⟨hproceeds.works.sound hs.sound, hproceeds.settled, hkeeping⟩

theorem keeps_acts (hs : S.Steady s) (hacts : State.Acts s t) : s.store.Keeps t.store :=
  (hacts.proceeds hs.sound hs.settled).works.leads.keeps

/-- A positional read gives the next value, if there is one, and the others are left. -/
theorem step (hs : S.Steady s) (hserves : S.Serves s h p xs) :
    ∃ t, s.step h p = (.ofOption xs.head?, t) ∧ S.Steady t ∧ s.store.Keeps t.store ∧
      (xs ≠ [] → S.Serves t h (p + 1) xs.tail) := by
  obtain ⟨hu, hr, all, hb, rfl⟩ := hserves
  have hacts := (State.Act.step s hu p).acts
  have hsteady : S.Steady (s.step h p).2 := by
    obtain ⟨cells, hk⟩ := hs.keeping
    exact hs.acts hacts ⟨cells, hk.step hs.sound hs.settled hb.serving hu p⟩
  have hb' := hb.later hacts hs.sound hs.settled
  have hyielded := (State.step_reached hs.sound hs.settled hu hr).2
  obtain ⟨vs, ended, hm, hp⟩ := hr
  obtain ⟨-, ws, ended', hm', hfound⟩ := State.step_leaves hs.sound hs.settled hu hm hp
  obtain ⟨hextends, hall⟩ := hb'.values hsteady.keeping hsteady.sound hm'
  have hstep : (s.step h p).1 = .ofOption (all.drop p).head? := by
    rw [List.head?_drop]
    exact Step.eq_ofOption_of_run hfound hextends hall
  refine ⟨_, Prod.ext hstep rfl, hsteady, hs.keeps_acts hacts, fun hne =>
    ⟨(hacts.proceeds hs.sound hs.settled).works.usable hu, ?_, all, hb', List.tail_drop⟩⟩
  obtain ⟨x, rest, hxs⟩ := List.exists_cons_of_ne_nil hne
  exact (hyielded x (by rw [hstep, hxs]; rfl)).1

/-- A drain gives all values that are left. -/
theorem drainFrom (hs : S.Steady s) (hserves : S.Serves s h p xs) :
    ∃ t, s.drainFrom h p = (xs, t) ∧ S.Steady t ∧ s.store.Keeps t.store := by
  obtain ⟨hu, hr, all, hb, rfl⟩ := hserves
  have hacts := (State.Act.drainFrom s hu hr).acts
  have hsteady : S.Steady (s.drainFrom h p).2 := by
    obtain ⟨cells, hk⟩ := hs.keeping
    exact hs.acts hacts ⟨cells, hk.drainFrom hs.sound hs.settled hb.serving hu hr⟩
  have hb' := hb.later hacts hs.sound hs.settled
  obtain ⟨vs, ended, hm, hp⟩ := hr
  obtain ⟨ws, hm', hitems, -⟩ := State.drainFrom_leaves hs.sound hs.settled hu hm hp
  obtain ⟨-, hall⟩ := hb'.values hsteady.keeping hsteady.sound hm'
  exact ⟨_, Prod.ext (by rw [hitems, hall rfl]) rfl, hsteady, hs.keeps_acts hacts⟩

/-- A text is spelled; anything else is given the iterator that its values are known of. -/
theorem iteratorFor (hs : S.Steady s) {v : Value} (hv : v.Within S.part)
    (hlisted : S.listed v = some xs) :
    ∃ h t, s.iteratorFor v = (some h, t) ∧ S.Steady t ∧ S.Serves t h 0 xs := by
  obtain ⟨cells, hk⟩ := hs.keeping
  have hacts := (State.Act.iteratorFor s (hs.held hv)).acts
  have husable := (State.iteratorFor_proceeds hs.sound hs.settled (hs.held hv)).2
  -- it is enough to say what stands behind the handle
  suffices hbehind : ∃ h, (s.iteratorFor v).1 = some h ∧ S.Keeping (s.iteratorFor v).2 ∧
      S.Behind (s.iteratorFor v).2 h xs by
    obtain ⟨h, hh, hkeeping, hb⟩ := hbehind
    have hsteady := hs.acts hacts hkeeping
    have hu := husable h hh
    exact ⟨h, _, Prod.ext hh rfl, hsteady, hu, hsteady.sound.reached_zero hu, xs, hb, rfl⟩
  cases v with
  | prim q =>
      cases q with
      | text text =>
          obtain rfl := Option.some.inj hlisted
          obtain ⟨n, hn, -, hspells⟩ := State.iteratorFor_text hs.settled text
          refine ⟨_, hn, ⟨cells, hk.idle (.refl _) (Cache.properties_adopt _ _)
            (Cache.sources_adopt _ _) fun i => Cache.memo_adopt _ _ _⟩, .text hspells⟩
      | _ => cases hlisted
  | ref r =>
      cases hknown : s.cache.sources.get? r with
      | some i =>
          have hfor : s.iteratorFor (.ref r) = (some (.cell i), s) := by
            simp only [State.iteratorFor, hknown]
          rw [hfor]
          exact ⟨_, rfl, ⟨cells, hk⟩, .cell (.opened hknown hlisted)⟩
      | none =>
          obtain ⟨i, t, hfor, hsource, hkeeping⟩ := hk.open hs.sound (hv r rfl) hlisted hknown
          rw [hfor]
          exact ⟨_, rfl, hkeeping, .cell (.opened hsource hlisted)⟩

/-- What cannot be iterated over is given no iterator. -/
theorem iteratorFor_barren (hs : S.Steady s) {v : Value} (hv : v.Within S.part)
    (hlisted : S.listed v = none) : (s.iteratorFor v).1 = none := by
  obtain ⟨cells, hk⟩ := hs.keeping
  cases v with
  | prim q =>
      cases q with
      | text text => cases hlisted
      | _ => rfl
  | ref r =>
      have hiterable : s.store.isIterable (.ref r) = false :=
        (hk.keeps.isIterable_eq (S.there (hv r rfl))).trans (S.not_iterable hlisted)
      cases hknown : s.cache.sources.get? r with
      | some i =>
          obtain ⟨xs, hxs⟩ := hk.opened hknown
          exact absurd (hlisted.symm.trans hxs) nofun
      | none =>
          have hnone := hs.sound.grounded.isSome_iterate (.ref r)
          rw [hiterable] at hnone
          simp only [State.iteratorFor, hknown]
          generalize s.store.iterate (.ref r) = iterated at hnone ⊢
          rcases iterated with ⟨_ | i, υ⟩
          · rfl
          · cases hnone

/-- A property reads the same from memory and from the store. -/
theorem read (hs : S.Steady s) (hσ : σ.Grounded) {r : Ref} (hr : S.part r) (k : Key) :
    ∃ t, s.read (.ref r) k = (S.property r k, t) ∧ S.Steady t ∧ s.store.Keeps t.store := by
  have hacts := (State.Act.read s (hs.held (Value.within_ref hr)) k).acts
  suffices hread : (s.read (.ref r) k).1 = S.property r k ∧ S.Keeping (s.read (.ref r) k).2 from
    ⟨_, Prod.ext hread.1 rfl, hs.acts hacts hread.2, hs.keeps_acts hacts⟩
  obtain ⟨cells, hk⟩ := hs.keeping
  have hget := (S.get_eq hr hσ hk.keeps k).1
  cases hknown : s.cache.property? (.ref r) k with
  | some x =>
      have hread : s.read (.ref r) k = (x, s) := by
        simp only [State.read, Value.identity, hknown]
      rw [hread]
      exact ⟨hk.read hknown, cells, hk⟩
  | none =>
      have hread : s.read (.ref r) k = (S.property r k,
          ⟨(s.cache.remember r k (S.property r k)).record (.read r k (S.property r k)) s.store
            s.store, s.store⟩) := by
        simp only [State.read, Value.identity, hknown, hget]
      rw [hread]
      refine ⟨rfl, cells, hk.after (.refl _) (fun {q j x} hx => ?_) rfl fun _ => rfl⟩
      replace hx : (s.cache.remember r k (S.property r k)).property? (.ref q) j = some x := hx
      rw [Cache.property?_remember] at hx
      split at hx
      · rename_i hsame
        obtain ⟨rfl, rfl⟩ := hsame
        exact (Option.some.inj hx).symm
      · exact hk.read hx

/-- The remainder of an object is a new copy of its properties. -/
theorem remainder (hs : S.Steady s) {r : Ref} (hr : S.part r)
    (excluded : List Key) :
    ∃ o t, s.remainder (.ref r) excluded = (.ref (.object o), t) ∧ S.Steady t ∧
      s.store.Keeps t.store ∧ σ.objects.size ≤ o ∧
        t.store.objects[o]? = some (S.copy r excluded) := by
  have hacts := (State.Act.remainder s (hs.held (Value.within_ref hr)) excluded).acts
  obtain ⟨cells, hk⟩ := hs.keeping
  have hwithout := S.without_eq hr hk.keeps excluded
  have hvalue : (s.remainder (.ref r) excluded).1 = .ref (.object s.store.objects.size) :=
    congrArg Prod.fst hwithout
  have hstore : (s.remainder (.ref r) excluded).2.store =
      (s.store.newObject (S.copy r excluded)).2 := congrArg Prod.snd hwithout
  have hkeeping : S.Keeping (s.remainder (.ref r) excluded).2 :=
    ⟨cells, hk.idle (hstore ▸ (Change.object _ _).reaches)
      rfl rfl fun _ => rfl⟩
  refine ⟨_, _, Prod.ext hvalue rfl, hs.acts hacts hkeeping, hs.keeps_acts hacts,
    hk.keeps.objects_size, ?_⟩
  rw [hstore, newObject, S.vetObject_copy hr hk.keeps]
  exact Array.getElem?_push_size

/-- Visiting a value. -/
theorem register (hs : S.Steady s) (r : Ref) : S.Steady (s.register (.ref r)).2 := by
  refine hs.acts (State.Act.register s (.ref r)).acts ?_
  obtain ⟨cells, hk⟩ := hs.keeping
  have htables : (s.cache.visit r).sources = s.cache.sources ∧
      (s.cache.visit r).memos = s.cache.memos := by
    rw [Cache.visit]
    split <;> exact ⟨rfl, rfl⟩
  refine ⟨cells, hk.after (.refl _) (fun {q j x} hx => hk.read ?_) htables.1 fun i => ?_⟩
  · exact (Cache.property?_visit s.cache r (.ref q) j).symm.trans hx
  · exact congrArg (fun memos => (Assoc.get? memos (.cell i)).getD {}) htables.2

/-- Putting elements into an array. -/
theorem collect (hs : S.Steady s) (items : List Value) : S.Steady (s.collect items).2 := by
  refine hs.acts (State.Act.collect s items).acts ?_
  obtain ⟨cells, hk⟩ := hs.keeping
  exact ⟨cells, hk.idle (Change.array s.store items).reaches rfl rfl fun _ => rfl⟩

end Steady

end Still

end Store

end StructuralMatch
