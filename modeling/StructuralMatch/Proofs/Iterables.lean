import StructuralMatch.Proofs.Letters
import StructuralMatch.Proofs.Parallel

/-! # Iterables of every kind

    An array, an iterator over its elements, an object whose factory hands out such an
    iterator: for a new cache they are all the same (`iterables_match_alike`).  Once the
    iterator is opened the stores are alike and the caches in parallel, so the match goes the
    same way.  A text opens no iterator of the store; it is compared by its letters.

    The iterable is laid on top of its values: nothing that can be reached from them leads
    back to it (`Store.OutOfReach`).  User code that gets hold of the iterator could advance
    it behind the back of the match, and an iterable that is come upon again is known already
    where the other one has still to be opened. -/

namespace StructuralMatch

open Store

open State

/-! ## What offers the same values -/

/-- A plan for an iterator over these values, for which nothing else is made. -/
def IteratorPlan.Lists (plan : IteratorPlan) (xs : List Value) : Prop :=
  ∀ σ : Store, ∃ it source, plan.build σ = σ.newIterator it ∧ it.source = some source ∧
    source.Lists xs ∧ it.closed = false

/-- The plan that lists existing values makes an iterator over them. -/
theorem IteratorPlan.lists_existing (kind : IteratorKind) (label : Option String)
    (xs : List Value) :
    (IteratorPlan.mk kind (.items (xs.map fun x => some (.existing x))) label).Lists xs := by
  have hvalues : ∀ σ : Store,
      Blueprint.buildOptions (xs.map fun x => some (.existing x)) σ = (xs.map some, σ) := by
    intro σ
    induction xs with
    | nil => rfl
    | cons x xs ih => simp only [List.map_cons, Blueprint.buildOptions, Blueprint.buildOption,
        Blueprint.build, ih]
  intro σ
  refine ⟨⟨kind, some (.items ((xs.map some).map .give)), label, 0, false⟩, _, ?_, rfl, ?_, rfl⟩
  · simp only [IteratorPlan.build, SourcePlan.build, hvalues]
  · rw [List.map_map]
    exact Source.lists_ofValues xs

namespace Store

/-- To whoever iterates over it this offers these values: an array that holds them, a new
    iterator of whatever kind over them, or an object whose factory hands out such an
    iterator.  A new iterator is made on top of the store. -/
inductive Offers (σ : Store) (xs : List Value) : Ref → Store → Prop where
  | array {a : Nat} (here : σ.arrays[a]? = some xs) : Offers σ xs (.array a) σ
  | iterator {it : Iterator} {source : Source} (new : it.pulled = 0 ∧ it.closed = false)
      (live : it.source = some source) (lists : source.Lists xs) :
      Offers σ xs (.iterator σ.iterators.size) (σ.newIterator it).2
  | object {o f : Nat} {object : Object} {factory : Factory} {plan : IteratorPlan}
      (here : σ.objects[o]? = some object) (made : object.factory = some f)
      (there : σ.factories[f]? = some factory) (steady : factory.Steady (.fresh plan))
      (lists : plan.Lists xs) : Offers σ xs (.object o) σ

/-- Nothing that can be reached from the values leads to one of these: they can be set aside,
    along with other cells that are there, so that nothing else leads to what is set aside. -/
def OutOfReach (σ : Store) (xs : List Value) (rs : List Ref) : Prop :=
  ∃ hidden : Hidden, (∀ r ∈ rs, hidden.refs r) ∧ (∀ it, hidden.Within (σ.newIterator it).2) ∧
    (∀ x ∈ xs, x.Apart hidden) ∧ σ.Apart hidden

/-- A store with a new iterator over these values; but for the runs of a factory that hands
    out the same on every run it is the same otherwise. -/
structure Opened (σ : Store) (xs : List Value) (τ : Store) : Prop where
  arrays : τ.arrays = σ.arrays
  objects : τ.objects = σ.objects
  functions : τ.functions = σ.functions
  getters : τ.getters = σ.getters
  iterators : ∃ it source, τ.iterators = σ.iterators.push it ∧ it.source = some source ∧
    source.Lists xs ∧ it.closed = false
  factories : Entrywise (fun _ f f' => f.Like f') σ.factories τ.factories

section Offers

variable {σ σ₁ τ τ' : Store} {xs : List Value} {r : Ref}

/-- A factory that hands out the same on every run has run once more. -/
theorem Alike.startFactory {f : Nat} {factory : Factory} {handed : Supply}
    (there : σ.factories[f]? = some factory) (steady : factory.Steady handed) (n : Nat)
    (iterable : Ref) : Alike n σ (σ.startFactory f factory iterable) := by
  refine ⟨rfl, rfl, rfl, rfl, (Alike.refl n σ).iterators, ?_, ?_⟩
  · exact Array.size_setIfInBounds ..
  · intro k g g' hg hg'
    have hset : (σ.startFactory f factory iterable).factories =
        σ.factories.setIfInBounds f { factory with runs := factory.runs + 1 } := rfl
    rw [hset, Array.getElem?_setIfInBounds] at hg'
    by_cases hk : f = k
    · subst hk
      rw [if_pos rfl, if_pos (Array.getElem?_eq_some_iff.1 there).1] at hg'
      cases there.symm.trans hg
      cases hg'
      exact ⟨rfl, .inr ⟨handed, steady⟩⟩
    · rw [if_neg hk] at hg'
      cases hg.symm.trans hg'
      exact .refl g

/-- A new iterator over the values. -/
theorem Alike.opened {n : Nat} (h : Alike n σ τ) (hiterators : τ.iterators = σ.iterators)
    (it : Iterator) {source : Source} (live : it.source = some source) (lists : source.Lists xs)
    (isOpen : it.closed = false) : Opened σ xs (τ.newIterator it).2 := by
  refine ⟨h.arrays, h.objects, h.functions, h.getters, ⟨it, source, ?_, live, lists, isOpen⟩,
    h.factories⟩
  show τ.iterators.push it = σ.iterators.push it
  rw [hiterators]

/-- Iterating over what offers values opens a new iterator over them. -/
theorem Offers.opens (h : Offers σ xs r σ₁) :
    ∃ τ, σ₁.iterate (.ref r) = (some σ.iterators.size, τ) ∧ Opened σ xs τ := by
  cases h with
  | @array a here =>
      have hitems : σ.items a = xs := by rw [items, Array.getD_eq_getD_getElem?, here]; rfl
      refine ⟨_, rfl, ?_⟩
      rw [hitems]
      have hrecord : Alike 0 σ (σ.record (.opened (.array a))) :=
        (Alike.refl 0 σ).retrace σ.trace _
      exact hrecord.opened rfl (.overArray xs) rfl (Source.lists_ofValues xs) rfl
  | @iterator it source new live lists =>
      exact ⟨_, rfl, (Alike.refl 0 σ).opened rfl it live lists new.2⟩
  | @object o f object factory plan here made there steady lists =>
      have hobject : σ.object o = object := by
        rw [Store.object, Array.getD_eq_getD_getElem?, here]
        rfl
      -- the run is counted and leaves messages, and then the iterator is made
      obtain ⟨trace, hrun⟩ := (steady factory.runs).run (fun i σ => σ.next i)
        (fun i σ => σ.close i) (σ.startFactory f factory (.object o))
      obtain ⟨it, source, hbuild, live, hlists, isOpen⟩ :=
        lists { σ.startFactory f factory (.object o) with trace }
      have hstart := (Alike.startFactory there steady 0 (.object o)).retrace σ.trace trace
      refine ⟨_, ?_, hstart.opened rfl it live hlists isOpen⟩
      simp only [iterate, hobject, made, runFactory, there, runScript, hrun, supply, hbuild]
      rfl

/-- Two stores that were opened from one differ in the iterator over the values only. -/
theorem Opened.alike (h : Opened σ xs τ) (h' : Opened σ xs τ') :
    Alike σ.iterators.size τ τ' where
  arrays := h'.arrays.trans h.arrays.symm
  objects := h'.objects.trans h.objects.symm
  functions := h'.functions.trans h.functions.symm
  getters := h'.getters.trans h.getters.symm
  iterators := by
    obtain ⟨it, source, hpush, live, hlists, isOpen⟩ := h.iterators
    obtain ⟨it', source', hpush', live', hlists', isOpen'⟩ := h'.iterators
    rw [hpush, hpush']
    refine (Alike.refl σ.iterators.size σ).iterators.push ⟨?_, isOpen'.trans isOpen.symm, ?_⟩
    · rw [live, live']
      exact .some (.lists hlists hlists')
    · exact fun hne => absurd rfl hne
  factories := by
    refine ⟨h'.factories.size.trans h.factories.size.symm, ?_⟩
    intro k g g' hg hg'
    rcases h.factories.cases k with ⟨-, hnone⟩ | ⟨f, f₁, hf, hf₁, hlike⟩
    · cases hnone.symm.trans hg
    · cases hf₁.symm.trans hg
      have hlike' := h'.factories.related hf hg'
      refine ⟨hlike'.body.trans hlike.body.symm, ?_⟩
      -- a factory that ran more often in one store hands out the same on every run
      have hsteady : (∃ handed, f.Steady handed) → ∃ handed, g.Steady handed := by
        rintro ⟨handed, hsteady⟩
        refine ⟨handed, fun run => ?_⟩
        rw [hlike.body]
        exact hsteady run
      rcases hlike.runs with hruns | hruns
      · rw [hruns]
        exact hlike'.runs.imp_right hsteady
      · exact .inr (hsteady hruns)

/-- Where nothing led to what is set aside nothing does once the iterator is opened, and the
    iterator gives what is apart. -/
theorem Opened.guards {hidden : Hidden} (h : Opened σ xs τ)
    (hwithin : ∀ it, hidden.Within (σ.newIterator it).2) (hxs : ∀ x ∈ xs, x.Apart hidden)
    (hσ : σ.Apart hidden) : τ.Guards σ.iterators.size hidden := by
  obtain ⟨it, source, hpush, live, hlists, -⟩ := h.iterators
  have hit : it.Apart hidden := by
    intro source' hsource
    cases live.symm.trans hsource
    exact .lists hlists hxs
  constructor
  · constructor
    · exact fun hget => hσ.arrays (h.arrays ▸ hget)
    · exact fun hget => hσ.objects (h.objects ▸ hget)
    · exact fun hget => hσ.functions (h.functions ▸ hget)
    · rw [hpush]
      exact forall_push hσ.iterators fun _ => hit
    · exact fun hget => hσ.getters (h.getters ▸ hget)
    · intro k f' hget hk
      rcases h.factories.cases k with ⟨-, hnone⟩ | ⟨f, f₁, hf, hf₁, hlike⟩
      · cases hnone.symm.trans hget
      · cases hf₁.symm.trans hget
        intro run
        rw [hlike.body]
        exact hσ.factories hf hk run
  · intro jt hjt
    rw [hpush, Array.getElem?_push_size] at hjt
    exact Option.some.inj hjt ▸ hit
  · refine ⟨fun {r} hr => ?_, fun hg => ?_, fun hf => ?_⟩
    · -- opening made one iterator and nothing else
      have hsame : τ.holds (.ref r) = (σ.newIterator it).2.holds (.ref r) := by
        rw [holds.eq_def, holds.eq_def, h.arrays, h.objects, h.functions, hpush]
        rfl
      exact hsame.trans ((hwithin it).refs hr)
    · rw [h.getters]
      exact (hwithin it).getters hg
    · rw [h.factories.size]
      exact (hwithin it).factories hf

/-- What offers values is there, in a store that programs make from the first one. -/
theorem Offers.leads (h : Offers σ xs r σ₁) : σ.Leads σ₁ ∧ σ₁.holds (.ref r) = true := by
  cases h with
  | array here => exact ⟨.refl σ, by simpa [holds] using (Array.getElem?_eq_some_iff.1 here).1⟩
  | iterator new live lists => exact ⟨newIterator_reaches σ new, by simp [holds, newIterator]⟩
  | object here made there steady lists =>
      exact ⟨.refl σ, by simpa [holds] using (Array.getElem?_eq_some_iff.1 here).1⟩

end Offers

end Store

namespace State

variable {σ σ₁ σ₂ τ τ' : Store} {xs : List Value} {r r' : Ref}

/-- A new cache with an iterator that was opened for a value. -/
def opening (r : Ref) (i : Nat) (σ τ : Store) : State where
  cache := (((Cache.empty.assign r i).record (.opened r i) σ τ).adopt (.cell i))
  store := τ

/-- A new cache opens an iterator for what offers values. -/
theorem iteratorFor_offers (h : Offers σ xs r σ₁) :
    ∃ τ, Opened σ xs τ ∧ ({ store := σ₁ } : State).iteratorFor (.ref r) =
      (some (.cell σ.iterators.size), opening r σ.iterators.size σ₁ τ) := by
  obtain ⟨τ, hiterate, hopened⟩ := h.opens
  refine ⟨τ, hopened, ?_⟩
  simp only [iteratorFor, hiterate]
  rfl

/-- Nothing is known yet of an iterator that was just opened. -/
theorem memo_opening (r : Ref) (i : Nat) (σ τ : Store) :
    (opening r i σ τ).cache.memo (.cell i) = .reads [] false :=
  Cache.memo_adopt _ _ _

/-- Caches that have opened their iterators are in parallel. -/
theorem opening_parallel {hidden : Hidden} (hr : hidden.refs r) (hr' : hidden.refs r')
    (hτ : τ.Guards σ.iterators.size hidden) (h : Opened σ xs τ) (h' : Opened σ xs τ') :
    Parallel σ.iterators.size hidden (opening r σ.iterators.size σ₁ τ)
      (opening r' σ.iterators.size σ₂ τ') where
  guards := ((Guards.start hτ).opened hτ (.inl rfl)).adopt (.cell σ.iterators.size)
  store := h.alike h'
  properties := rfl
  memos := rfl
  texts := rfl
  sources := by
    intro q hq
    show (Assoc.insert [] r' σ.iterators.size).get? q = (Assoc.insert [] r σ.iterators.size).get? q
    have hne : r ≠ q := fun e => hq (e ▸ hr)
    have hne' : r' ≠ q := fun e => hq (e ▸ hr')
    rw [Assoc.get?_insert, Assoc.get?_insert, if_neg hne, if_neg hne']

end State

/-! ## Iterables of every kind -/

/-- Two matches come out the same, with the same arrays and objects behind what they bind. -/
structure SameOutcome (x y : Verdict Bindings × State) : Prop where
  outcome : y.1 = x.1
  arrays : y.2.store.arrays = x.2.store.arrays
  objects : y.2.store.objects = x.2.store.objects

section Kinds

variable {σ σ₁ σ₂ : Store} {xs : List Value} {r r' : Ref} {elements : List (Option Pattern)}

/-- Whatever offers the same values is matched alike. -/
theorem Store.Offers.same_outcome (made : Store.empty.Leads σ)
    (hm : ∀ m ∈ Pattern.elementMatchers elements, m.ActsOnValue) (hv : Offers σ xs r σ₁)
    (hw : Offers σ xs r' σ₂)
    (hreach : σ.OutOfReach xs [r, r', .iterator σ.iterators.size]) :
    SameOutcome (matchPattern (.array elements) (.ref r) { store := σ₁ })
      (matchPattern (.array elements) (.ref r') { store := σ₂ }) := by
  obtain ⟨hidden, hrefs, hwithin, hxs, hσ⟩ := hreach
  obtain ⟨hleads, held⟩ := hv.leads
  have hstart := Session.start (made.trans hleads)
  obtain ⟨hopen, husable⟩ := iteratorFor_proceeds hstart.sound hstart.settled held
  obtain ⟨τ, hopened, hfor⟩ := iteratorFor_offers hv
  obtain ⟨τ', hopened', hfor'⟩ := iteratorFor_offers hw
  have hs := hopen.works.sound hstart.sound
  rw [hfor] at hopen husable hs
  have hu := husable _ rfl
  rw [matchPattern, matchPattern, matchAt, matchAt, hfor, hfor']
  have hparallel : Parallel σ.iterators.size hidden (opening r σ.iterators.size σ₁ τ)
      (opening r' σ.iterators.size σ₂ τ') :=
    opening_parallel (hrefs r (by simp)) (hrefs r' (by simp)) (hopened.guards hwithin hxs hσ)
      hopened hopened'
  obtain ⟨houtcome, hparallel⟩ := matchElements_joint (hrefs _ (by simp)) elements _ 0 .empty _ _
    hm hs hopen.settled hu (hs.reached_zero hu) (.inl rfl) hparallel
  exact ⟨houtcome, hparallel.store.arrays, hparallel.store.objects⟩

/-- The letters of a text are matched as the elements demand, whatever offers them. -/
theorem Store.Offers.agrees_letters (made : Store.empty.Leads σ)
    (hm : ∀ m ∈ Pattern.elementMatchers elements, m.ActsOnValue) {letters : List Char}
    (hv : Offers σ (Spelling.letters letters) r σ₁) :
    (matchPattern (.array elements) (.ref r) { store := σ₁ }).1.Agrees
      (matchPattern (.array elements) (.ref r) { store := σ₁ }).2.store
      (Pattern.onLetters elements letters 0 []) := by
  obtain ⟨hleads, held⟩ := hv.leads
  have hstart := Session.start (made.trans hleads)
  obtain ⟨hopen, husable⟩ := iteratorFor_proceeds hstart.sound hstart.settled held
  obtain ⟨τ, hopened, hfor⟩ := iteratorFor_offers hv
  obtain ⟨it, source, hpush, live, hlists, -⟩ := hopened.iterators
  have hs := hopen.works.sound hstart.sound
  rw [hfor] at hopen husable hs
  have hheld : ∀ x ∈ Spelling.letters letters, τ.holds x = true := by
    intro x hx
    obtain ⟨c, -, rfl⟩ := List.mem_map.1 hx
    rfl
  have hsupplies := supplies_of_lists (· = σ.iterators.size) rfl _
    (hpush ▸ Array.getElem?_push_size) live hlists hheld
  have hdeals : Deals (opening r σ.iterators.size σ₁ τ) (.cell σ.iterators.size) 0 letters :=
    .cell (husable _ rfl) (memo_opening ..) hsupplies
  rw [matchPattern, matchAt, hfor]
  exact (matchElements_letters elements _ 0 letters .empty [] _ hm hs hopen.settled hdeals
    (Bindings.realise_empty _)).1

/-- What cannot be iterated over does not match, and the cache stays as it is. -/
theorem Session.not_iterable {turns : List Turn} {s : State} (h : Session turns s)
    (elements : List (Option Pattern)) {v : Value} (held : s.store.holds v = true)
    (hv : s.store.isIterable v = false) :
    matchPattern (.array elements) v s = (.unmatched, s) := by
  rw [matchPattern, matchAt]
  cases v with
  | prim p =>
      cases p with
      | text text => cases hv
      | _ => rfl
  | ref r =>
      have hiterate := h.sound.grounded.isSome_iterate (.ref r)
      rw [hv] at hiterate
      have hnone : (s.iteratorFor (.ref r)).1 = none := by
        simp only [iteratorFor, h.sound.sources_eq_none held hv]
        generalize s.store.iterate (.ref r) = iterated at hiterate ⊢
        rcases iterated with ⟨_ | i, τ⟩
        · rfl
        · cases hiterate
      have hsame := (State.iteratorFor_none h.sound hnone).2
      generalize s.iteratorFor (.ref r) = opened at hnone hsame ⊢
      obtain ⟨opened, t⟩ := opened
      subst hnone hsame
      rfl

/-- **Iterables of every kind match alike**, on a new cache, if custom matchers act on the
    value that they are given only. -/
theorem iterables_match_alike (made : Store.empty.Leads σ)
    (hm : ∀ m ∈ Pattern.elementMatchers elements, m.ActsOnValue) :
    -- whatever offers the same values, laid on top of what can be reached from them
    (∀ {xs r r' σ₁ σ₂}, Offers σ xs r σ₁ → Offers σ xs r' σ₂ →
      σ.OutOfReach xs [r, r', .iterator σ.iterators.size] →
        SameOutcome (matchPattern (.array elements) (.ref r) { store := σ₁ })
          (matchPattern (.array elements) (.ref r') { store := σ₂ })) ∧
    -- what offers the letters of a text, and the text
    (∀ {text r σ₁}, Offers σ (Spelling.letters text.toList) r σ₁ → ∃ y,
      (matchPattern (.array elements) (.ref r) { store := σ₁ }).1.Agrees
          (matchPattern (.array elements) (.ref r) { store := σ₁ }).2.store y ∧
        (matchPattern (.array elements) (.text text) { store := σ }).1.Agrees
          (matchPattern (.array elements) (.text text) { store := σ }).2.store y) ∧
    -- and what cannot be iterated over
    ∀ {turns s v}, Session turns s → s.store.holds v = true → s.store.isIterable v = false →
      matchPattern (.array elements) v s = (.unmatched, s) := by
  refine ⟨fun hv hw hreach => hv.same_outcome made hm hw hreach, ?_, ?_⟩
  · intro text r σ₁ hv
    have hstart := Session.start made
    exact ⟨_, hv.agrees_letters made hm, (matchAt_primitive (.array elements) none (.text text)
      { store := σ } hm hstart.sound hstart.settled).agrees⟩
  · intro turns s v hsession held hv
    exact hsession.not_iterable elements held hv

end Kinds

namespace Letters

/-- The letters of a text, one by one. -/
def letters : List Value := [.text "a", .text "b", .text "c"]

/-- An object with an array of letters, whose factory hands out generators over the letters. -/
def blueprint : Blueprint :=
  .object (.mk none none [(⟨"letters"⟩, .field (.array (letters.map .existing)))]
    (some (.mk .generator (.items (letters.map fun x => some (.existing x))) none)))

def store : Store := (blueprint.build .empty).2

/-- A new generator over the letters. -/
def generator : Iterator := ⟨.generator, some (.ofValues letters), none, 0, false⟩

/-- A letter is named, another one passes a test, and the rest is collected. -/
def elements : List (Option Pattern) :=
  [some (.identifier (some ⟨"x"⟩)),
    some (.custom (.scripted "string" none (.typed "string") .accept .refuse)),
    some (.rest (some ⟨"rest"⟩))]

theorem offers_array : Offers store letters (.array 0) store := .array rfl

theorem offers_generator :
    Offers store letters (.iterator 0) (store.newIterator generator).2 :=
  .iterator ⟨rfl, rfl⟩ rfl (Source.lists_ofValues _)

theorem offers_object : Offers store letters (.object 0) store :=
  .object rfl rfl rfl (fun _ => .give _) (IteratorPlan.lists_existing .generator none letters)

theorem actsOnValue : ∀ m ∈ Pattern.elementMatchers elements, m.ActsOnValue := by
  intro m hm
  rw [List.mem_singleton.1 hm]
  exact Matcher.scripted_actsOnValue _ _ _ trivial trivial

/-- The array, the object that holds it, and the next iterator. -/
def hidden : Hidden :=
  ⟨fun r => r ∈ [.array 0, .object 0, .iterator 0], fun _ => False, fun _ => False⟩

theorem store_apart : store.Apart hidden where
  arrays := by
    rintro (_ | a) items hget hnot
    · exact absurd (by simp [hidden]) hnot
    · cases hget
  objects := by
    rintro (_ | o) object hget hnot
    · exact absurd (by simp [hidden]) hnot
    · cases hget
  functions := fun hget => by cases hget
  iterators := fun hget => by cases hget
  getters := fun hget => by cases hget
  factories := by
    rintro (_ | f) factory hget -
    · cases hget
      exact fun _ => ⟨trivial, trivial, trivial, trivial⟩
    · cases hget

/-- No letter leads to what offers the letters. -/
theorem outOfReach {rs : List Ref} (hrs : ∀ r ∈ rs, r ∈ [Ref.array 0, .object 0, .iterator 0]) :
    store.OutOfReach letters rs := by
  refine ⟨hidden, hrs, fun it => ⟨fun {r} hr => ?_, nofun, nofun⟩, ?_, store_apart⟩
  · rcases List.mem_cons.1 hr with rfl | hr
    · rfl
    · rcases List.mem_cons.1 hr with rfl | hr
      · rfl
      · rw [List.mem_singleton.1 hr]
        rfl
  · intro x hx
    obtain ⟨c, -, rfl⟩ := List.mem_map.1 (show x ∈ ["a", "b", "c"].map Value.text from hx)
    trivial

/-- The outcome of the match, and the state after it. -/
def matched (v : Value) (σ : Store) : Verdict Bindings × State :=
  matchPattern (.array elements) v { store := σ }

/-- What the match binds: the first letter, and a new array of those after the second. -/
def bindings : Bindings :=
  (Bindings.single ⟨"x"⟩ (.text "a")).insert ⟨"rest"⟩ (.ref (.array 1))

/-- The letters in the array are matched. -/
theorem matched_array : (matched (.ref (.array 0)) store).1 = .matched bindings ∧
    (matched (.ref (.array 0)) store).2.store.items 1 = [.text "c"] := by decide

end Letters

/-- An array of letters, a generator over them, an object that hands out such generators, and
    the text all match and bind the same; a number cannot be iterated over. -/
theorem iterables_match_alike_letters :
    ((Letters.matched (.ref (.array 0)) Letters.store).1 = .matched Letters.bindings ∧
        (Letters.matched (.ref (.array 0)) Letters.store).2.store.items 1 = [.text "c"]) ∧
      (SameOutcome (Letters.matched (.ref (.array 0)) Letters.store)
          (Letters.matched (.ref (.iterator 0)) (Letters.store.newIterator Letters.generator).2) ∧
        (Letters.matched (.ref (.iterator 0)) (Letters.store.newIterator Letters.generator).2).1 =
          .matched Letters.bindings) ∧
      (SameOutcome (Letters.matched (.ref (.array 0)) Letters.store)
          (Letters.matched (.ref (.object 0)) Letters.store) ∧
        (Letters.matched (.ref (.object 0)) Letters.store).1 = .matched Letters.bindings) ∧
      ((∃ y, (Letters.matched (.ref (.array 0)) Letters.store).1.Agrees
            (Letters.matched (.ref (.array 0)) Letters.store).2.store y ∧
          (Letters.matched (.text "abc") Letters.store).1.Agrees
            (Letters.matched (.text "abc") Letters.store).2.store y) ∧
        (Letters.matched (.text "abc") Letters.store).1 = .matched Letters.bindings) ∧
      Letters.matched (.ofNat 1) Letters.store = (.unmatched, { store := Letters.store }) := by
  have made : Store.empty.Leads Letters.store := Letters.blueprint.build_reaches .empty
  obtain ⟨hsame, hletters, hnot⟩ := iterables_match_alike made Letters.actsOnValue
  have hgenerator := hsame Letters.offers_array Letters.offers_generator
    (Letters.outOfReach (by decide))
  have hobject := hsame Letters.offers_array Letters.offers_object
    (Letters.outOfReach (by decide))
  refine ⟨Letters.matched_array, ⟨hgenerator, ?_⟩, ⟨hobject, ?_⟩,
    ⟨@hletters "abc" _ _ Letters.offers_array, by decide⟩, hnot (.start made) rfl rfl⟩
  · exact hgenerator.outcome.trans Letters.matched_array.1
  · exact hobject.outcome.trans Letters.matched_array.1

end StructuralMatch
