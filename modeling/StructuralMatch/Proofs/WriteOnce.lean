import StructuralMatch.Proofs.Growth

/-! # Answers stand for good

    Once a question has been answered, asking it again at any later time gives the
    same answer and does nothing (`Session.write_once`), however the answer is kept
    by then, as a positional step or in the tail of a drain, and whether or not the
    iterator has been closed in between.

    The link between asking and growing is `State.Knows`: asking makes the cache
    know the answer, what it knows it knows for good, and asking for what it knows
    is free. -/

namespace StructuralMatch

/-! ## Answers -/

/-- What a cache answers to a question. -/
inductive Answer where
  | value (x : Value)
  | iterator (h : Option Handle)
  | step (step : Step)
deriving DecidableEq

/-- The value that a question is about. -/
def Question.subject : Question → Value
  | .property r _ => .ref r
  | .iterator r => .ref r
  | .position i _ => .ref (.iterator i)

namespace State

/-- Ask the cache, which looks at the store only for what it does not know. -/
def ask (s : State) : Question → Answer × State
  | .property r k => (s.read (.ref r) k).map .value id
  | .iterator r => (s.iteratorFor (.ref r)).map .iterator id
  | .position i p => (s.step (.cell i) p).map .step id

/-- The cache knows the answer, or it is plain from the value. -/
inductive Knows (s : State) : Question → Answer → Prop where
  | value {r : Ref} {k : Key} {x : Value} (known : s.cache.property? (.ref r) k = some x) :
      Knows s (.property r k) (.value x)
  | iterator {r : Ref} {i : Nat} (known : s.cache.sources.get? r = some i) :
      Knows s (.iterator r) (.iterator (some (.cell i)))
  | barren {r : Ref} (held : s.store.holds (.ref r) = true)
      (barren : s.store.isIterable (.ref r) = false) : Knows s (.iterator r) (.iterator none)
  | step {i p : Nat} {step : Step} (known : (s.cache.memo (.cell i)).at? p = some step) :
      Knows s (.position i p) (.step step)

variable {s t : State} {q : Question} {a : Answer}

theorem ask_act (held : s.store.holds q.subject = true) : Act s (s.ask q).2 := by
  cases q with
  | property r k => exact .read s held k
  | iterator r => exact .iteratorFor s held
  | position i p =>
      have hu : s.Usable (.cell i) := held
      exact .step s hu p

/-- Once a question was asked, the cache knows the answer. -/
theorem ask_knows (hs : s.Sound) (hset : s.Settled) (held : s.store.holds q.subject = true) :
    (s.ask q).2.Knows q (s.ask q).1 := by
  cases q with
  | property r k =>
      obtain ⟨hleaves, hreadings⟩ := read_leaves hs hset held k
      have ht := hleaves.works.sound hs
      rw [ht.faithful.readings] at hreadings
      exact .value (Option.toList_eq_singleton_iff.1 hreadings)
  | iterator r =>
      have hnone := @iteratorFor_none s hs r
      have hsome := @iteratorFor_some s hs hset r held
      show (s.iteratorFor (.ref r)).2.Knows _ (.iterator (s.iteratorFor (.ref r)).1)
      generalize s.iteratorFor (.ref r) = opened at hnone hsome ⊢
      rcases opened with ⟨_ | h, t⟩
      · obtain ⟨hbarren, hsame⟩ := hnone rfl
        dsimp only at hsame ⊢
        subst hsame
        exact .barren held hbarren
      · obtain ⟨i, rfl, hleaves, hopenings, -⟩ := hsome rfl
        have ht := hleaves.works.sound hs
        rw [ht.faithful.openings] at hopenings
        exact .iterator (Option.toList_eq_singleton_iff.1 hopenings)
  | position i p =>
      have hu : s.Usable (.cell i) := held
      exact .step (step_answers hs hset hu p).2.2

/-- What has an iterator can be iterated over. -/
theorem Sound.sources_eq_none (hs : s.Sound) {r : Ref} (held : s.store.holds (.ref r) = true)
    (hbarren : s.store.isIterable (.ref r) = false) : s.cache.sources.get? r = none := by
  have hiterator := hs.covers_snapshot.barren r held hbarren
  rw [State.snapshot, List.head?_eq_none_iff, hs.faithful.openings] at hiterator
  exact Option.toList_eq_nil_iff.1 hiterator

theorem contains_of_at? {c : Cache} {h : Handle} {p : Nat} {step : Step}
    (hknown : (c.memo h).at? p = some step) : c.memos.contains h = true := by
  rw [Assoc.contains, Option.isSome_iff_ne_none]
  intro hnone
  rw [Cache.memo, hnone] at hknown
  cases hknown

/-- Asking for what the cache knows gives the answer and does nothing. -/
theorem Knows.ask_eq (h : s.Knows q a) (hs : s.Sound) : s.ask q = (a, s) := by
  cases h with
  | value known => simp only [ask, State.read, Value.identity, known, Prod.map, id]
  | iterator known => simp only [ask, iteratorFor, known, Prod.map, id]
  | @barren r held hbarren =>
      have hunopened := hs.sources_eq_none held hbarren
      have hiterable := hs.grounded.isSome_iterate (.ref r)
      have hsame := @Store.iterate_eq_of_none s.store (.ref r)
      rw [hbarren] at hiterable
      simp only [ask, iteratorFor, hunopened]
      generalize s.store.iterate (.ref r) = iterated at hiterable hsame ⊢
      rcases iterated with ⟨_ | i, σ⟩
      · have hσ : σ = s.store := hsame rfl
        rw [hσ]
        rfl
      · cases hiterable
  | step known =>
      rw [ask, step_of_known known, adopt_of_contains (contains_of_at? known)]
      rfl

/-- What the cache knows it knows for good. -/
theorem Knows.onward (h : s.Knows q a) (hs : s.Sound) (hset : s.Settled) (ht : Onward s t) :
    t.Knows q a := by
  have hgrows := ht.grows
  cases h with
  | @value r k x known =>
      rw [Cache.property?, Value.identity, Option.bind_some, Option.bind_eq_some_iff] at known
      obtain ⟨known, hknown, hx⟩ := known
      obtain ⟨more, hmore⟩ := hgrows.properties r known hknown
      refine .value ?_
      rw [Cache.property?, Value.identity, Option.bind_some, hmore, Option.bind_some]
      exact Assoc.get?_append_of_some hx more
  | iterator known => exact .iterator (hgrows.sources _ _ known)
  | barren held hbarren =>
      have hkeeps := (ht.leads hs hset).keeps
      exact .barren (hkeeps.holds held) ((hkeeps.isIterable_eq held).trans hbarren)
  | @step i p step known =>
      -- the step may have moved from the steps to the tail, so it is told by the list behind both
      obtain ⟨vs, ended, hm, -⟩ := hs.faithful.advances i
      obtain ⟨ws, ended', hm', hextends⟩ := ht.run_extends hs hset (.cell i) hm
      rw [hm.at?_eq_told (hset _)] at known
      refine .step ?_
      rw [hm'.at?_eq_told ((ht.sound_settled hs hset).2 _)]
      exact Step.told_extends hextends known

/-- Once a question was asked, it is answered the same for good, and at no cost. -/
theorem ask_again (hs : s.Sound) (hset : s.Settled) (held : s.store.holds q.subject = true)
    (ht : Onward (s.ask q).2 t) : t.ask q = ((s.ask q).1, t) := by
  have hproceeds := (ask_act held).proceeds hs hset
  have hsound := hproceeds.works.sound hs
  have hknows := (ask_knows hs hset held).onward hsound hproceeds.settled ht
  exact hknows.ask_eq (ht.sound_settled hsound hproceeds.settled).1

/-- Once an iterator was drained, draining it again and reading its positions give the same
    values for good, and at no cost. -/
theorem drainFrom_again (hs : s.Sound) (hset : s.Settled) {h : Handle} (hu : s.Usable h) {p : Nat}
    (hr : s.Reached h p) (ht : Onward (s.drainFrom h p).2 t) :
    t.drainFrom h p = ((s.drainFrom h p).1, t) ∧
      ∀ j, t.step h (p + j) = (.ofOption (s.drainFrom h p).1[j]?, t) := by
  have hproceeds := (Act.drainFrom s hu hr).proceeds hs hset
  have hsound := hproceeds.works.sound hs
  obtain ⟨vs, ended, hm, hp⟩ := hr
  obtain ⟨ws, hall, hitems, hleaves⟩ := drainFrom_leaves hs hset hu hm hp
  -- a drained list is final
  have hall' := ht.stands_ended hsound hproceeds.settled hall
  have htold : ∀ k, (t.cache.memo h).at? k = some (.ofOption ws[k]?) := by
    intro k
    rw [hall'.at?_eq_told ((ht.sound_settled hsound hproceeds.settled).2 h), Step.told]
    cases ws[k]? <;> rfl
  have hadopt : t.adopt h = t := adopt_of_contains (contains_of_at? (htold 0))
  have hlength : p ≤ ws.length := by
    obtain ⟨us, ended', hus, hextends⟩ := hproceeds.works.run_extends h hm
    obtain ⟨rfl, -⟩ := hall.unique hus
    exact Nat.le_trans hp (Step.values_extend hextends).length_le
  rw [hitems]
  refine ⟨by rw [drainFrom_of_ended hall' hlength, hadopt], ?_⟩
  intro j
  rw [step_of_known (htold (p + j)), hadopt, List.getElem?_drop]

end State

/-! ## What can be seen of a cache -/

/-- What can be looked up in a cache can be looked up later on, and the steps of an iterator
    get longer at the end, up to the first completion. -/
structure Cache.Extends (c d : Cache) : Prop where
  visited : ∀ v : Value, c.contains v = true → d.contains v = true
  property : ∀ (v : Value) (k : Key) (x : Value), c.property? v k = some x →
    d.property? v k = some x
  count : ∀ (v : Value) (n : Nat), c.propertyCount? v = some n →
    ∃ m, d.propertyCount? v = some m ∧ n ≤ m
  steps : ∀ (i : Nat) (steps : List Step), c.steps? i = some steps →
    ∃ more, d.steps? i = some (steps ++ more) ∧ (.done ∈ steps → more = [])

namespace Cache

variable {c d : Cache}

theorem Grows.properties_contains (h : Grows c d) {r : Ref} (hr : c.properties.contains r = true) :
    d.properties.contains r = true := by
  obtain ⟨known, hknown⟩ := Option.isSome_iff_exists.1 hr
  obtain ⟨more, hmore⟩ := h.properties r known hknown
  exact Option.isSome_of_eq_some hmore

theorem Grows.sources_contains (h : Grows c d) {r : Ref} (hr : c.sources.contains r = true) :
    d.sources.contains r = true := by
  obtain ⟨i, hi⟩ := Option.isSome_iff_exists.1 hr
  exact Option.isSome_of_eq_some (h.sources r i hi)

theorem Grows.memos_contains (h : Grows c d) {g : Handle} (hg : c.memos.contains g = true) :
    d.memos.contains g = true := by
  obtain ⟨m, hm⟩ := Option.isSome_iff_exists.1 hg
  obtain ⟨m', hm', -⟩ := h.memos g m hm
  exact Option.isSome_of_eq_some hm'

theorem Grows.contains (h : Grows c d) {v : Value} (hv : c.contains v = true) :
    d.contains v = true := by
  cases v with
  | prim p => cases hv
  | ref r =>
      simp only [Cache.contains, Value.identity, Bool.or_eq_true] at hv ⊢
      rcases hv with (hv | hv) | hv
      · exact .inl (.inl (h.properties_contains hv))
      · exact .inl (.inr (h.sources_contains hv))
      · cases r with
        | iterator i => exact .inr (h.memos_contains hv)
        | _ => cases hv

/-- What an iterator has told by steps is told by more steps, and no step follows completion. -/
theorem Grows.steps (h : Grows c d) (hd : d.Faithful) {i : Nat} {steps : List Step}
    (hsteps : c.steps? i = some steps) :
    ∃ more, d.steps? i = some (steps ++ more) ∧ (.done ∈ steps → more = []) := by
  rw [steps?, Option.map_eq_some_iff] at hsteps
  obtain ⟨m, hm, rfl⟩ := hsteps
  obtain ⟨m', hm', more, hmore⟩ := h.memos (.cell i) m hm
  refine ⟨more, by rw [steps?, hm', Option.map_some, hmore], ?_⟩
  intro hdone
  obtain ⟨vs, ended, hstands, -⟩ := hd.advances i
  rw [memo, hm', Option.getD_some] at hstands
  obtain ⟨ws, ended', hrun⟩ := hstands.steps_eq
  rw [← hmore] at hrun
  exact Step.eq_nil_of_run_append hrun hdone

end Cache

/-- Whatever goes on, what can be seen of the cache is extended. -/
theorem State.Onward.extends {s t : State} (h : Onward s t) (hs : s.Sound) (hset : s.Settled) :
    s.cache.Extends t.cache where
  visited := fun _ hv => h.grows.contains hv
  property := by
    intro v k x hx
    cases v with
    | prim p => cases hx
    | ref r =>
        have hknows := (Knows.value hx).onward hs hset h
        cases hknows with
        | value known => exact known
  count := by
    intro v n hn
    cases v with
    | prim p => cases hn
    | ref r =>
        rw [Cache.propertyCount?, Value.identity, Option.bind_some, Option.map_eq_some_iff] at hn
        obtain ⟨known, hknown, rfl⟩ := hn
        obtain ⟨more, hmore⟩ := h.grows.properties r known hknown
        refine ⟨(known ++ more).length, ?_, by simp⟩
        rw [Cache.propertyCount?, Value.identity, Option.bind_some, hmore]
        rfl
  steps := fun i _ hsteps => h.grows.steps (h.sound_settled hs hset).1.faithful hsteps

/-! ## Sessions -/

open State

/-- **The cache is write-once**: in whatever state a session or a call in its course is,
    once a question has been answered, it is answered the same ever after, at no cost; so are
    the positions that a drain went through; and what can be seen of the cache only grows.
    Calls of the engine count as going on, like closing and other code. -/
theorem Session.write_once {turns : List Turn} {s t : State} (h : Session turns s)
    (ht : Onward s t) :
    (∀ q : Question, t.store.holds q.subject = true → ∀ u, Onward (t.ask q).2 u →
        u.ask q = ((t.ask q).1, u)) ∧
      (∀ (g : Handle) (p : Nat), t.Usable g → t.Reached g p → ∀ u, Onward (t.drainFrom g p).2 u →
        u.drainFrom g p = ((t.drainFrom g p).1, u) ∧
          ∀ j, u.step g (p + j) = (.ofOption (t.drainFrom g p).1[j]?, u)) ∧
        (∀ u, Onward t u → t.cache.Extends u.cache) ∧
          ∀ c : Call, t.store.holds c.subject = true → Onward t (c.perform t).2 := by
  obtain ⟨hsound, hset⟩ := ht.sound_settled h.sound h.settled
  refine ⟨?_, ?_, ?_, ?_⟩
  · intro q held u hu
    exact ask_again hsound hset held hu
  · intro g p usable reached u hu
    exact drainFrom_again hsound hset usable reached hu
  · intro u hu
    exact hu.extends hsound hset
  · intro c held
    exact (c.perform_acts hsound hset held).onward

/-- An iterator that was drained from its second position on: closed, it still yields there,
    behind its last value it stays done, and a drain from the front gives all it ever gave. -/
theorem Session.write_once_fickle :
    Fickle.finish.store.holds (.ref (.iterator 0)) = true ∧
      (Fickle.finish.ask (.position 0 1)).1 = .step (.yielded (.text "two")) ∧
        (Fickle.finish.ask (.position 0 7)).1 = .step .done ∧
          (Fickle.finish.ask (.position 0 1)).2.close.1 = 1 ∧
            (Fickle.finish.ask (.position 0 1)).2.close.2.ask (.position 0 1) =
              (.step (.yielded (.text "two")), (Fickle.finish.ask (.position 0 1)).2.close.2) ∧
              (Fickle.finish.ask (.position 0 7)).2.close.2.ask (.position 0 7) =
                (.step .done, (Fickle.finish.ask (.position 0 7)).2.close.2) ∧
                (Fickle.finish.drainFrom (.cell 0) 0).2.close.2.drainFrom (.cell 0) 0 =
                  ([.text "one", .text "two"],
                    (Fickle.finish.drainFrom (.cell 0) 0).2.close.2) := by
  have hheld : Fickle.finish.store.holds (.ref (.iterator 0)) = true := by decide
  have hyielded : (Fickle.finish.ask (.position 0 1)).1 = .step (.yielded (.text "two")) := by
    decide
  have hdone : (Fickle.finish.ask (.position 0 7)).1 = .step .done := by decide
  have hdrained : (Fickle.finish.drainFrom (.cell 0) 0).1 = [.text "one", .text "two"] := by
    decide
  obtain ⟨hagain, hdrain, -⟩ := Session.write_once Fickle.session (.refl _)
  have husable : Fickle.finish.Usable (.cell 0) := hheld
  refine ⟨hheld, hyielded, hdone, by decide, ?_, ?_, ?_⟩
  · rw [← hyielded]
    exact hagain (.position 0 1) hheld _ (.close (.refl _))
  · rw [← hdone]
    exact hagain (.position 0 7) hheld _ (.close (.refl _))
  · rw [← hdrained]
    exact (hdrain (.cell 0) 0 husable (Fickle.session.sound.reached_zero husable) _
      (.close (.refl _))).1

end StructuralMatch
