import StructuralMatch.Proofs.Guarding

/-! # Caches in parallel

    Two caches at work on alike stores are in parallel when they know the same, except
    which iterator was opened for what is set aside (`State.Parallel`).  Every operation on
    what is apart gives the same in both and leaves them in parallel, and so does every
    match (`matchAt_joint`): by induction over the pattern, it never comes upon what is set
    aside. -/

namespace StructuralMatch

open Store

namespace State

variable {n : Nat} {hidden : Hidden} {s t : State} {α β : Type}

/-- The stores are alike, and the caches know the same, except what iterators were opened
    for what is set aside, which the first state leads to nowhere else. -/
structure Parallel (n : Nat) (hidden : Hidden) (s t : State) : Prop where
  guards : s.Guards n hidden
  store : Alike n s.store t.store
  properties : t.cache.properties = s.cache.properties
  memos : t.cache.memos = s.cache.memos
  texts : t.cache.texts = s.cache.texts
  sources : ∀ {r : Ref}, ¬ hidden.refs r → t.cache.sources.get? r = s.cache.sources.get? r

/-- Two runs that give the same and end in parallel. -/
structure Joint (n : Nat) (hidden : Hidden) {α : Type} (x y : α × State) : Prop where
  result : y.1 = x.1
  parallel : Parallel n hidden x.2 y.2

/-- Both runs go on with what they have got. -/
theorem Joint.bind {x y : α × State} (h : Joint n hidden x y) (f : α → State → β × State)
    (hf : ∀ (a : α) {s t : State}, Parallel n hidden s t → Joint n hidden (f a s) (f a t)) :
    Joint n hidden (f x.1 x.2) (f y.1 y.2) := by
  rw [h.result]
  exact hf x.1 h.parallel

/-- Both runs give something that depends on what they have got. -/
theorem Joint.map {x y : α × State} (h : Joint n hidden x y) (f : α → β) :
    Joint n hidden (f x.1, x.2) (f y.1, y.2) := ⟨congrArg f h.result, h.parallel⟩

/-- Both runs, written out. -/
theorem Joint.split {x y : α × State} (h : Joint n hidden x y) {a : α} (hx : x = (a, s)) :
    ∃ t, y = (a, t) ∧ Parallel n hidden s t := by
  subst hx
  exact ⟨y.2, Prod.ext h.result rfl, h.parallel⟩

/-! ## Operations on the cache -/

/-- Iterators have the same memos. -/
theorem Parallel.memo_eq (h : Parallel n hidden s t) (g : Handle) :
    t.cache.memo g = s.cache.memo g := by
  rw [Cache.memo, h.memos, Cache.memo]

/-- The same properties are known. -/
theorem Parallel.property?_eq (h : Parallel n hidden s t) (v : Value) (k : Key) :
    t.cache.property? v k = s.cache.property? v k := by
  rw [Cache.property?, h.properties, Cache.property?]

/-- Both caches take charge of the iterator, or have it in charge. -/
theorem Parallel.adopt (h : Parallel n hidden s t) (g : Handle) :
    Parallel n hidden (s.adopt g) (t.adopt g) where
  guards := h.guards.adopt g
  store := h.store
  properties := by
    rw [State.adopt, Cache.properties_adopt, h.properties, State.adopt, Cache.properties_adopt]
  memos := by
    show (t.cache.adopt g).memos = (s.cache.adopt g).memos
    rw [Cache.adopt, Cache.adopt, h.memos]
    split
    · exact h.memos
    · rfl
  texts := by rw [State.adopt, Cache.texts_adopt, h.texts, State.adopt, Cache.texts_adopt]
  sources := by
    rw [State.adopt, Cache.sources_adopt, State.adopt, Cache.sources_adopt]
    exact h.sources

/-- Both caches learn the same of an iterator. -/
theorem Parallel.learn (h : Parallel n hidden s t) (g : Handle) (m : Memo) :
    Parallel n hidden (s.learn g m) (t.learn g m) where
  guards := h.guards.learn g m
  store := h.store
  properties := h.properties
  memos := congrArg (fun memos => memos.insert g m) h.memos
  texts := h.texts
  sources := h.sources

/-- A value is visited in both, or has been. -/
theorem register_joint (v : Value) (h : Parallel n hidden s t) :
    Joint n hidden (s.register v) (t.register v) := by
  cases v with
  | prim p => exact ⟨rfl, h⟩
  | ref r =>
      simp only [register, Value.identity]
      rw [Cache.visit, Cache.visit, h.properties]
      split
      · exact ⟨rfl, h⟩
      · exact ⟨rfl, ⟨h.guards.given, h.guards.sources, h.guards.store⟩, h.store, rfl, h.memos,
          h.texts, h.sources⟩

/-- A property is read, or known, in both. -/
theorem read_joint {v : Value} (hv : v.Apart hidden) (k : Key) (h : Parallel n hidden s t) :
    Joint n hidden (s.read v k) (t.read v k) := by
  cases v with
  | prim p => exact ⟨rfl, h⟩
  | ref r =>
      have hguards := h.guards.read hv k
      simp only [State.read, Value.identity, h.property?_eq] at hguards ⊢
      cases hknown : s.cache.property? (.ref r) k with
      | some x => exact ⟨rfl, h⟩
      | none =>
          rw [hknown] at hguards
          obtain ⟨hx, hstore⟩ := get_together (.ref r) k h.store
          refine ⟨hx, ⟨hguards, hstore, ?_, h.memos, h.texts, h.sources⟩⟩
          show (t.cache.remember r k _).properties = (s.cache.remember r k _).properties
          rw [Cache.remember, Cache.remember, h.properties, hx]

/-- An iterator that may be followed gives the same step, a text the same letter. -/
theorem next_joint {g : Handle} (hg : g.Followed n hidden) (position : Nat)
    (h : Parallel n hidden s t) : Joint n hidden (s.next g position) (t.next g position) := by
  have hguards := h.guards.next hg position
  cases g with
  | cell i =>
      obtain ⟨hstep, hstore⟩ := next_together i h.store
      exact ⟨hstep, ⟨hguards, hstore, h.properties, h.memos, h.texts, h.sources⟩⟩
  | text m =>
      have hspelling : t.cache.spelling m = s.cache.spelling m := by
        rw [Cache.spelling, h.texts, Cache.spelling]
      simp only [State.next, hspelling]
      refine ⟨rfl, ⟨hguards, h.store, h.properties, h.memos, ?_, h.sources⟩⟩
      show t.cache.texts.setIfInBounds m _ = s.cache.texts.setIfInBounds m _
      rw [h.texts]

/-- The same handles can be used. -/
theorem Parallel.usable (h : Parallel n hidden s t) {g : Handle} (hu : s.Usable g) :
    t.Usable g := by
  cases g with
  | cell i => exact (h.store.holds_eq _).trans hu
  | text m =>
      show m < t.cache.texts.size
      rw [h.texts]
      exact hu

/-- An advance is memoized as the same step. -/
theorem pull_joint (add : Memo → Step → Memo) {g : Handle} (hg : g.Followed n hidden)
    (h : Parallel n hidden s t) : Joint n hidden (s.pull add g) (t.pull add g) := by
  simp only [pull, h.memo_eq]
  exact (next_joint hg _ h).bind (fun step u => (step, u.learn g (add (s.cache.memo g) step)))
    fun step _ _ h => ⟨rfl, h.learn g _⟩

/-- Advancing stops in both when the iterator reports its end. -/
theorem repeatedly_parallel (add : Memo → Step → Memo) {g : Handle} (hg : g.Followed n hidden)
    (count : Nat) :
    ∀ {s t : State}, Parallel n hidden s t →
      Parallel n hidden (repeatedly (pull add g) count s) (repeatedly (pull add g) count t) := by
  induction count with
  | zero => exact fun h => h
  | succ count ih =>
      intro s t h
      have hpull := pull_joint add hg h
      rw [repeatedly, repeatedly]
      rcases hfirst : s.pull add g with ⟨step, s₁⟩
      obtain ⟨t₁, hsecond, h₁⟩ := hpull.split hfirst
      rw [hsecond]
      cases step with
      | done => exact h₁
      | yielded x => exact ih h₁

/-- A positional read knows the step in both, or advances equally often. -/
theorem step_joint {g : Handle} (hg : g.Followed n hidden) (position : Nat)
    (h : Parallel n hidden s t) : Joint n hidden (s.step g position) (t.step g position) := by
  have hadopt := h.adopt g
  rw [State.step, State.step]
  dsimp only
  rw [hadopt.memo_eq]
  cases ((s.adopt g).cache.memo g).at? position with
  | some step => exact ⟨rfl, hadopt⟩
  | none =>
      have hpulled := repeatedly_parallel Memo.addStep hg
        (position + 1 - ((s.adopt g).cache.memo g).steps.length) hadopt
      exact ⟨by rw [hpulled.memo_eq], hpulled⟩

theorem adopt_usable {g : Handle} (hu : s.Usable g) (k : Handle) : (s.adopt k).Usable g := by
  cases g with
  | cell i => exact hu
  | text m =>
      show m < (s.cache.adopt k).texts.size
      rw [Cache.texts_adopt]
      exact hu

theorem pull_usable {g : Handle} (hu : s.Usable g) (add : Memo → Step → Memo) :
    (s.pull add g).2.Usable g := by
  cases g with
  | cell i => exact (Store.next_reaches s.store i).keeps.holds hu
  | text m =>
      show m < (s.cache.texts.setIfInBounds m _).size
      rw [Array.size_setIfInBounds]
      exact hu

/-- Iterators that give the same are exhausted together, whatever the bounds on what they
    can still give. -/
theorem exhaust_parallel {g : Handle} (hg : g.Followed n hidden) (count : Nat) :
    ∀ {count' : Nat} {s t : State}, s.Usable g → s.remaining g < count →
      t.remaining g < count' → Parallel n hidden s t →
        Parallel n hidden (repeatedly (pull Memo.addTail g) count s)
          (repeatedly (pull Memo.addTail g) count' t) := by
  induction count with
  | zero => exact fun _ hlt => absurd hlt (Nat.not_lt_zero _)
  | succ count ih =>
      intro count' s t hu hlt hlt' h
      -- the bounds differ, but as long as one iterator yields so does the other, and both shrink
      obtain ⟨count', rfl⟩ : ∃ k, count' = k + 1 := ⟨count' - 1, by omega⟩
      have hpull := pull_joint Memo.addTail hg h
      have hless := fun v => remaining_pull_lt hu Memo.addTail (v := v)
      have hless' := fun v => remaining_pull_lt (h.usable hu) Memo.addTail (v := v)
      have hu₁ := pull_usable hu Memo.addTail
      rw [repeatedly, repeatedly]
      rcases hfirst : s.pull Memo.addTail g with ⟨step, s₁⟩
      obtain ⟨t₁, hsecond, h₁⟩ := hpull.split hfirst
      rw [hfirst] at hless hu₁
      rw [hsecond] at hless'
      rw [hsecond]
      cases step with
      | done => exact h₁
      | yielded x =>
          have hfewer := hless x rfl
          have hfewer' := hless' x rfl
          dsimp only at hfewer hfewer'
          exact ih hu₁ (by omega) (by omega) h₁

/-- A drain is done with in both, or exhausts the iterator in both. -/
theorem drain_parallel {g : Handle} (hg : g.Followed n hidden) (hu : s.Usable g)
    (h : Parallel n hidden s t) :
    Parallel n hidden (s.drain g) (t.drain g) := by
  rw [drain, drain, h.memo_eq]
  split
  · exact h
  · exact exhaust_parallel hg _ hu (Nat.lt_succ_self _) (Nat.lt_succ_self _) h

/-- What a drain gives is read off the same memo. -/
theorem drainFrom_joint {g : Handle} (hg : g.Followed n hidden) (hu : s.Usable g)
    (position : Nat) (h : Parallel n hidden s t) :
    Joint n hidden (s.drainFrom g position) (t.drainFrom g position) := by
  have hadopt := h.adopt g
  have hdrain := drain_parallel hg (adopt_usable hu g) hadopt
  rw [drainFrom, drainFrom]
  dsimp only
  rw [hadopt.memo_eq]
  split
  · exact ⟨rfl, hadopt⟩
  · exact ⟨by rw [hdrain.memo_eq], hdrain⟩

/-- An iterator over something that is apart. -/
theorem iteratorFor_joint {v : Value} (hv : v.Apart hidden)
    (h : Parallel n hidden s t) : Joint n hidden (s.iteratorFor v) (t.iteratorFor v) := by
  cases v with
  | prim p =>
      cases p with
      | text text =>
          -- spelling begins in both, under the same handle
          have hbegun : Parallel n hidden
              { s with cache := { s.cache with texts := s.cache.texts.push (.begin text) } }
              { t with cache := { t.cache with texts := t.cache.texts.push (.begin text) } } :=
            ⟨⟨h.guards.given, h.guards.sources, h.guards.store⟩, h.store, h.properties, h.memos,
              congrArg (·.push (.begin text)) h.texts, h.sources⟩
          have hadopt := hbegun.adopt (.text s.cache.texts.size)
          simp only [iteratorFor, spell, h.texts] at hadopt ⊢
          exact ⟨rfl, hadopt⟩
      | _ => exact ⟨rfl, h⟩
  | ref r =>
      simp only [iteratorFor]
      rw [h.sources hv]
      cases s.cache.sources.get? r with
      | some i => exact ⟨rfl, h⟩
      | none =>
          have hiterate := iterate_together (.ref r) h.store
          have hguarded := iterate_guarded hv h.guards.store
          generalize s.store.iterate (.ref r) = iterated at hiterate hguarded ⊢
          generalize t.store.iterate (.ref r) = iterated' at hiterate ⊢
          obtain ⟨opened, σ⟩ := iterated
          obtain ⟨opened', τ⟩ := iterated'
          obtain ⟨rfl, hστ⟩ := hiterate
          cases opened' with
          | none =>
              have hguards : Guards n hidden { s with store := σ } :=
                ⟨h.guards.given, h.guards.sources, hguarded.guards⟩
              exact ⟨rfl, ⟨hguards, hστ, h.properties, h.memos, h.texts, h.sources⟩⟩
          | some i =>
              -- both open the reference, and what is opened for one that is set aside is never
              -- looked up
              have hassigned : Parallel n hidden
                  ⟨(s.cache.assign r i).record (.opened r i) s.store σ, σ⟩
                  ⟨(t.cache.assign r i).record (.opened r i) t.store τ, τ⟩ := by
                have hi : Followed n hidden i := .inr (hguarded.result i rfl)
                refine ⟨h.guards.opened hguarded.guards hi, hστ, h.properties, h.memos, h.texts,
                  fun {q} hq => ?_⟩
                show (t.cache.sources.insert r i).get? q = (s.cache.sources.insert r i).get? q
                rw [Assoc.get?_insert, Assoc.get?_insert, h.sources hq]
              exact ⟨rfl, hassigned.adopt (.cell i)⟩

/-- The array of what was collected has the same elements. -/
theorem collect_joint {items : List Value} (hitems : ∀ x ∈ items, x.Apart hidden)
    (h : Parallel n hidden s t) : Joint n hidden (s.collect items) (t.collect items) := by
  obtain ⟨harray, hstore⟩ := newArray_together items h.store
  exact ⟨harray, ⟨h.guards.collect hitems, hstore, h.properties, h.memos, h.texts, h.sources⟩⟩

/-- What is left of an object is copied in the same way. -/
theorem remainder_joint {v : Value} (hv : v.Apart hidden) (excluded : List Key)
    (h : Parallel n hidden s t) :
    Joint n hidden (s.remainder v excluded) (t.remainder v excluded) := by
  obtain ⟨hobject, hstore⟩ := without_together v excluded h.store
  exact ⟨hobject, ⟨h.guards.remainder hv excluded, hstore, h.properties, h.memos, h.texts,
    h.sources⟩⟩

/-- A custom matcher that acts on the value only is asked. -/
theorem consult_joint {m : Matcher} (hm : m.ActsOnValue) (hn : hidden.refs (.iterator n))
    {v : Value} (hv : v.Apart hidden) (h : Parallel n hidden s t) :
    Joint n hidden (s.consult m v) (t.consult m v) := by
  have halike := h.store.record (.consulted m.name) (.consulted m.name)
  obtain ⟨hverdict, hstore⟩ := hm.together halike hn (h.guards.store.retrace _) hv
  exact ⟨hverdict, ⟨h.guards.consult hm hv, hstore, h.properties, h.memos, h.texts, h.sources⟩⟩

/-- The array has the same name, and is bound to it if there is one. -/
theorem bindCollected_joint (name : Option Key) {items : List Value}
    (hitems : ∀ x ∈ items, x.Apart hidden) (b : Bindings) (h : Parallel n hidden s t) :
    Joint n hidden (bindCollected name items b s) (bindCollected name items b t) := by
  cases name with
  | none => exact ⟨rfl, h⟩
  | some name => exact (collect_joint hitems h).map (b.insert name)

theorem bindRemainder_joint (marker : Option RestMarker) (keys : List Key) {v : Value}
    (hv : v.Apart hidden) (b : Bindings) (h : Parallel n hidden s t) :
    Joint n hidden (bindRemainder marker keys v b s) (bindRemainder marker keys v b t) := by
  rw [bindRemainder, bindRemainder]
  cases marker.bind (·.name) with
  | none => exact ⟨rfl, h⟩
  | some name => exact (remainder_joint hv keys h).map (b.insert name)

end State

open State

section Joint

variable {n : Nat} {hidden : Hidden}

mutual

/-- A pattern is matched in parallel against what is apart. -/
theorem matchAt_joint (hn : hidden.refs (.iterator n)) : ∀ (p : Pattern) (place : Option Key)
    (v : Value) (s t : State), (∀ m ∈ p.matchers, m.ActsOnValue) → s.Sound → s.Settled →
      s.store.holds v = true → v.Apart hidden → Parallel n hidden s t →
        Joint n hidden (matchAt p place v s) (matchAt p place v t)
  | .custom m, place, v, s, t, hm, hs, hset, held, hv, h => by
      rw [matchAt, matchAt]
      exact (consult_joint (hm m (List.mem_singleton_self m)) hn hv h).map fun verdict =>
        (verdict.map fun _ => Bindings.empty).mapError (·.blame m.name)
  | .identifier name, place, v, s, t, hm, hs, hset, held, hv, h => by
      rw [matchAt, matchAt]
      exact ⟨rfl, h⟩
  | .rest name, place, v, s, t, hm, hs, hset, held, hv, h => by
      rw [matchAt, matchAt]
      exact ⟨rfl, h⟩
  | .regex r, place, v, s, t, hm, hs, hset, held, hv, h => by
      rw [matchAt, matchAt, matchRegex, matchRegex, h.store.text_eq hn h.guards.store hv]
      exact ⟨rfl, h⟩
  | .literal q, place, v, s, t, hm, hs, hset, held, hv, h => by
      rw [matchAt, matchAt]
      exact ⟨rfl, h⟩
  | .array elements, place, v, s, t, hm, hs, hset, held, hv, h => by
      have hfor := iteratorFor_joint hv h
      have hfollowed := fun g => h.guards.iteratorFor_followed hv (g := g)
      obtain ⟨hopen, husable⟩ := iteratorFor_proceeds hs hset held
      have hs₁ := hopen.works.sound hs
      rw [matchAt, matchAt]
      rcases hfirst : s.iteratorFor v with ⟨opened, s₁⟩
      obtain ⟨t₁, hsecond, h₁⟩ := hfor.split hfirst
      rw [hfirst] at hfollowed hopen husable hs₁
      rw [hsecond]
      cases opened with
      | none => exact ⟨rfl, h₁⟩
      | some g =>
          have hu := husable g rfl
          exact matchElements_joint hn elements g 0 .empty s₁ t₁ hm hs₁ hopen.settled hu
            (hs₁.reached_zero hu) (hfollowed g rfl) h₁
  | .object entries marker, place, v, s, t, hm, hs, hset, held, hv, h => by
      have hregister := register_joint v h
      have hvisit := (Act.register s v).proceeds hs hset
      have hs₁ := hvisit.works.sound hs
      have held₁ := hvisit.works.leads.keeps.holds held
      rw [matchAt, matchAt]
      rcases hfirst : s.register v with ⟨objectLike, s₁⟩
      obtain ⟨t₁, hsecond, h₁⟩ := hregister.split hfirst
      rw [hfirst] at hvisit hs₁ held₁
      rw [hsecond]
      cases objectLike with
      | false => exact ⟨rfl, h₁⟩
      | true =>
          have hentries := matchEntries_joint hn entries v .empty s₁ t₁ hm hs₁ hvisit.settled
            held₁ hv h₁
          dsimp only
          rcases hmatch : matchEntries entries v .empty s₁ with ⟨verdict, s₂⟩
          obtain ⟨t₂, hagain, h₂⟩ := hentries.split hmatch
          rw [hagain]
          cases verdict with
          | matched b => exact (bindRemainder_joint marker _ hv b h₂).map Verdict.matched
          | unmatched => exact ⟨rfl, h₂⟩
          | failed e => exact ⟨rfl, h₂⟩

/-- Entries are matched in parallel. -/
theorem matchEntries_joint (hn : hidden.refs (.iterator n)) : ∀ (entries : List (Key × Pattern))
    (v : Value) (b : Bindings) (s t : State),
    (∀ m ∈ Pattern.entryMatchers entries, m.ActsOnValue) → s.Sound → s.Settled →
      s.store.holds v = true → v.Apart hidden → Parallel n hidden s t →
        Joint n hidden (matchEntries entries v b s) (matchEntries entries v b t)
  | [], v, b, s, t, hm, hs, hset, held, hv, h => by
      rw [matchEntries, matchEntries]
      exact ⟨rfl, h⟩
  | (k, p) :: entries, v, b, s, t, hm, hs, hset, held, hv, h => by
      rw [matchEntries, matchEntries, h.store.hasProperty_eq]
      split
      · have hread := read_joint hv k h
        have hfound := h.guards.read_apart hs hset held hv k
        obtain ⟨hlook, hx⟩ := read_proceeds hs hset held k
        have hs₁ := hlook.works.sound hs
        have held₁ := hlook.works.leads.keeps.holds held
        rcases hfirst : s.read v k with ⟨x, s₁⟩
        obtain ⟨t₁, hsecond, h₁⟩ := hread.split hfirst
        rw [hfirst] at hfound hlook hx hs₁ held₁
        rw [hsecond]
        dsimp only at hfound hx ⊢
        have hpart := matchAt_proceeds p (some k) x s₁ hs₁ hlook.settled hx
        -- the value is apart, so the part is matched in parallel as well
        have hjoint := matchAt_joint hn p (some k) x s₁ t₁
          (fun m hmem => hm m (List.mem_append_left _ hmem)) hs₁ hlook.settled hx hfound h₁
        rcases hmatch : matchAt p (some k) x s₁ with ⟨verdict, s₂⟩
        rw [hmatch] at hpart
        obtain ⟨t₂, hagain, h₂⟩ := hjoint.split hmatch
        rw [hagain]
        cases verdict with
        | matched c =>
            exact matchEntries_joint hn entries v (b.merge c) s₂ t₂
              (fun m hmem => hm m (List.mem_append_right _ hmem)) (hpart.works.sound hs₁)
              hpart.settled (hpart.works.leads.keeps.holds held₁) hv h₂
        | unmatched => exact ⟨rfl, h₂⟩
        | failed e => exact ⟨rfl, h₂⟩
      · exact ⟨rfl, h⟩

/-- Elements are matched in parallel. -/
theorem matchElements_joint (hn : hidden.refs (.iterator n)) : ∀ (elements : List (Option Pattern))
    (g : Handle) (position : Nat) (b : Bindings) (s t : State),
    (∀ m ∈ Pattern.elementMatchers elements, m.ActsOnValue) → s.Sound → s.Settled → s.Usable g →
      s.Reached g position → g.Followed n hidden → Parallel n hidden s t →
        Joint n hidden (matchElements elements g position b s)
          (matchElements elements g position b t)
  | [], g, position, b, s, t, hm, hs, hset, hu, hr, hg, h => by
      rw [matchElements, matchElements]
      exact (step_joint hg position h).map fun step =>
        if step.isDone then Verdict.matched b else .unmatched
  | none :: elements, g, position, b, s, t, hm, hs, hset, hu, hr, hg, h => by
      have hstep := step_joint hg position h
      obtain ⟨hlook, hyielded⟩ := step_reached hs hset hu hr
      have hs₁ := hlook.works.sound hs
      have hu₁ := hlook.works.usable hu
      rw [matchElements, matchElements]
      rcases hfirst : s.step g position with ⟨step, s₁⟩
      obtain ⟨t₁, hsecond, h₁⟩ := hstep.split hfirst
      rw [hfirst] at hlook hyielded hs₁ hu₁
      rw [hsecond]
      cases step with
      | done => exact ⟨rfl, h₁⟩
      | yielded x =>
          exact matchElements_joint hn elements g (position + 1) b s₁ t₁ hm hs₁ hlook.settled hu₁
            (hyielded x rfl).1 hg h₁
  | some p :: elements, g, position, b, s, t, hm, hs, hset, hu, hr, hg, h => by
      rw [matchElements, matchElements]
      cases htrailing : p.trailing? elements with
      | some name =>
          have hdrain := drainFrom_joint hg hu position h
          -- a trailing rest drains, and what it collects is apart
          have hitems := Guards.drainFrom_apart hs hset hu hr hdrain.parallel.guards
          rcases hfirst : s.drainFrom g position with ⟨items, s₁⟩
          obtain ⟨t₁, hsecond, h₁⟩ := hdrain.split hfirst
          rw [hfirst] at hitems
          dsimp only
          rw [hsecond]
          exact (bindCollected_joint name hitems b h₁).map Verdict.matched
      | none =>
          have hstep := step_joint hg position h
          obtain ⟨hlook, hyielded⟩ := step_reached hs hset hu hr
          have hfound := fun x => Guards.step_apart hs hset hu hr hstep.parallel.guards (x := x)
          have hs₁ := hlook.works.sound hs
          have hu₁ := hlook.works.usable hu
          dsimp only
          rcases hfirst : s.step g position with ⟨step, s₁⟩
          obtain ⟨t₁, hsecond, h₁⟩ := hstep.split hfirst
          rw [hfirst] at hlook hyielded hfound hs₁ hu₁
          rw [hsecond]
          cases step with
          | done => exact ⟨rfl, h₁⟩
          | yielded x =>
              obtain ⟨hr₁, hx⟩ := hyielded x rfl
              dsimp only at hx ⊢
              have hpart := matchAt_proceeds p (some (.index position)) x s₁ hs₁ hlook.settled hx
              have hjoint := matchAt_joint hn p (some (.index position)) x s₁ t₁
                (fun m hmem => hm m (List.mem_append_left _ hmem)) hs₁ hlook.settled hx
                (hfound x rfl) h₁
              rcases hmatch : matchAt p (some (.index position)) x s₁ with ⟨verdict, s₂⟩
              rw [hmatch] at hpart
              obtain ⟨t₂, hagain, h₂⟩ := hjoint.split hmatch
              rw [hagain]
              cases verdict with
              | matched c =>
                  exact matchElements_joint hn elements g (position + 1) (b.merge c) s₂ t₂
                    (fun m hmem => hm m (List.mem_append_right _ hmem)) (hpart.works.sound hs₁)
                    hpart.settled (hpart.works.usable hu₁) (hpart.works.reached hr₁) hg h₂
              | unmatched => exact ⟨rfl, h₂⟩
              | failed e => exact ⟨rfl, h₂⟩

end

end Joint

end StructuralMatch
