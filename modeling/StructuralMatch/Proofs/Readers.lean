import StructuralMatch.Proofs.Operations

/-! # The two readers of a memo

    Positional reads index the steps of a memo and, once nothing more is pulled, its tail;
    drains skip into both.  They may come in any order, at positions far beyond what is
    known, while others advance or close the iterator (`State.Readings`).

    In all states that this leads to, the memo tells one list of values and whether these are
    all (`Memo.Tells`).  A match leaves memos in fewer forms, since it never drains from
    beyond what it has read: a drain from behind a completion pulls once more.  That pull finds
    the iterator spent (`State.Spent`), so it adds nothing to the list.  Both readers answer
    from the list alone (`State.Told.step`, `State.Told.drainFrom`), and so they agree
    (`State.Readings.readers_agree`). -/

namespace StructuralMatch

namespace Memo

variable {m : Memo} {vs : List Value} {ended : Bool}

/-- What a memo tells, in all forms that reads and drains leave it in. -/
inductive Tells : Memo → List Value → Bool → Prop where
  | settled {m : Memo} {vs : List Value} {ended : Bool} (stands : m.Stands vs ended)
      (settled : m.Settled) : Tells m vs ended
  /-- A positional read met completion, and a drain from behind it met completion again. -/
  | again (vs : List Value) : Tells ⟨vs.map .yielded ++ [.done], [], true⟩ vs true

/-- A memo that waits for more stands for what it tells. -/
theorem Tells.waits (h : m.Tells vs false) : m.Stands vs false ∧ m.tail = [] := by
  cases h with
  | settled stands settled =>
      refine ⟨stands, settled ?_⟩
      have hexhausted := stands.exhausted_eq
      rw [exhausted, Bool.or_eq_false_iff] at hexhausted
      exact hexhausted.1

theorem Tells.exhausted_eq (h : m.Tells vs ended) : m.exhausted = ended := by
  cases h with
  | settled stands settled => exact stands.exhausted_eq
  | again vs => rfl

/-- The steps are values and at most one completion, which is the last of them. -/
theorem Tells.steps_eq (h : m.Tells vs ended) : ∃ ws ended', m.steps = Step.run ws ended' := by
  cases h with
  | settled stands settled => exact stands.steps_eq
  | again vs => exact ⟨vs, true, rfl⟩

/-- Only a drain fills the tail. -/
theorem Tells.drained_of_tail (h : m.Tells vs ended) (htail : m.tail ≠ []) : m.drained = true := by
  by_contra hnot
  cases h with
  | settled stands settled => exact htail (settled (Bool.eq_false_iff.2 hnot))
  | again vs => exact htail rfl

/-- What was drained or has met completion tells all values. -/
theorem Tells.ended_of (h : m.Tells vs ended) (hall : m.drained = true ∨ .done ∈ m.steps) :
    ended = true := by
  rw [← h.exhausted_eq, exhausted, Bool.or_eq_true]
  rcases hall with hdrained | hdone
  · exact .inl hdrained
  · obtain ⟨ws, ended', hsteps⟩ := h.steps_eq
    rw [hsteps] at hdone ⊢
    rw [(Step.done_mem_run ws ended').1 hdone]
    right
    simp [Step.run_true]

/-- Behind a completion that was met by a positional read there is no tail. -/
theorem Tells.tail_of_done (h : m.Tells vs ended) (hdone : .done ∈ m.steps) : m.tail = [] := by
  cases h with
  | settled stands settled =>
      cases stands with
      | stepped vs => rfl
      | _ vs tail => simp at hdone
  | again vs => rfl

/-- A memo that has told all and was not drained ends with a completion, and a drain will only
    note that it has taken place. -/
theorem Tells.again_of_not_drained (h : m.Tells vs true) (hdrained : m.drained = false) :
    { m with drained := true }.Tells vs true := by
  cases h with
  | settled stands settled =>
      cases stands with
      | stepped vs => exact .again vs
      | drained vs tail => cases hdrained
  | again vs => cases hdrained

/-- A positional read finds what the list tells of its position. -/
theorem Tells.at?_eq_told (h : m.Tells vs ended) (p : Nat) :
    m.at? p = Step.told vs ended p := by
  cases h with
  | settled stands settled => exact stands.at?_eq_told settled p
  | again vs =>
      rw [← (Stands.stepped vs).at?_eq_told (fun _ => rfl) p]
      simp [at?, exhausted]

/-- The steps and the tail from a position on, together. -/
theorem Stands.drop_eq_of_lt (h : m.Stands vs ended) (p : Nat) :
    valuesOf (m.steps.drop p) ++ m.tail.drop (p - m.steps.length) = vs.drop p := by
  by_cases hp : p ≤ vs.length
  · exact h.drop_eq hp
  · have hempty : ∀ steps : List Step, steps.length ≤ p → valuesOf (steps.drop p) = [] := by
      intro steps hsteps
      rw [List.drop_eq_nil_of_le hsteps]
      rfl
    have hvs : vs.drop p = [] := List.drop_eq_nil_of_le (by omega)
    rw [hvs, List.append_eq_nil_iff]
    cases h with
    | stepped vs => exact ⟨hempty _ (by simp; omega), List.drop_nil⟩
    | _ vs tail =>
        rw [List.length_append] at hp
        refine ⟨hempty _ (by simp; omega), List.drop_eq_nil_of_le ?_⟩
        simp only [List.length_map]
        omega

/-- What a drain from a position gives of a memo that it leaves alone. -/
theorem Tells.drop_eq (h : m.Tells vs ended) (p : Nat) :
    valuesOf (m.steps.drop p) ++ m.tail.drop (p - m.steps.length) = vs.drop p := by
  cases h with
  | settled stands settled => exact stands.drop_eq_of_lt p
  | again vs => exact (Stands.stepped vs).drop_eq_of_lt p

/-- Only what was exhausted before is exhausted after a step with a value. -/
theorem exhausted_of_addStep (m : Memo) {v : Value}
    (h : (m.addStep (.yielded v)).exhausted = true) : m.exhausted = true := by
  have hdrained : m.drained = true := by simpa [exhausted, addStep] using h
  rw [exhausted, hdrained, Bool.true_or]

end Memo

/-- The state of a text is what it was set to. -/
theorem Cache.spelling_setSpelling {c : Cache} {n : Nat} (hn : n < c.texts.size) (t : Spelling) :
    (c.setSpelling n t).spelling n = t := by
  simp [setSpelling, spelling, Array.getD_eq_getD_getElem?, hn]

namespace State

variable {s t u : State} {h : Handle} {vs : List Value} {ended : Bool}

/-! ## Spent iterators -/

/-- Nothing more comes from the iterator, whoever advances it. -/
def Spent (s : State) : Handle → Prop
  | .cell i => s.store.Spent i
  | .text n => (s.cache.spelling n).left = []

/-- Advancing an iterator adds a step to its memo. -/
theorem memo_pull (s : State) (add : Memo → Step → Memo) (h : Handle) :
    (s.pull add h).2.cache.memo h = add (s.cache.memo h) (s.pull add h).1 := by
  cases h <;> exact (Cache.memo_learn _ _ _ _).trans (if_pos rfl)

theorem usable_pull (hu : s.Usable h) (add : Memo → Step → Memo) : (s.pull add h).2.Usable h := by
  cases h with
  | cell i => exact (Store.next_reaches s.store i).keeps.holds hu
  | text n =>
      show n < (s.cache.setSpelling n (s.cache.spelling n).next.2).texts.size
      rw [Cache.setSpelling, Array.size_setIfInBounds]
      exact hu

/-- A spent iterator is done when it is advanced. -/
theorem pull_of_spent (hspent : s.Spent h) (add : Memo → Step → Memo) :
    (s.pull add h).1 = .done := by
  cases h with
  | cell i => exact ((Store.next_advance s.store i).eq_of_spent hspent).1
  | text n =>
      have hleft : (s.cache.spelling n).left = [] := hspent
      show (s.cache.spelling n).next.1 = .done
      rw [Spelling.next, hleft]

/-- An iterator that is done is spent. -/
theorem spent_pull (hu : s.Usable h) {add : Memo → Step → Memo}
    (hdone : (s.pull add h).1 = .done) : (s.pull add h).2.Spent h := by
  cases h with
  | cell i =>
      have hi : i < s.store.iterators.size := by simpa [Usable, Store.holds] using hu
      exact (Store.next_advance s.store i).spent_of_done hi hdone
  | text n =>
      have hnext : (s.cache.spelling n).next.1 = .done := hdone
      show ((s.cache.setSpelling n (s.cache.spelling n).next.2).spelling n).left = []
      rw [Cache.spelling_setSpelling hu]
      rw [Spelling.next] at hnext ⊢
      cases hleft : (s.cache.spelling n).left with
      | nil => exact hleft
      | cons c left => simp [hleft] at hnext

/-- The iterator is there, and it is spent if its memo says that it has ended. -/
structure Honest (s : State) (h : Handle) : Prop where
  usable : s.Usable h
  spent : (s.cache.memo h).exhausted = true → s.Spent h

/-- Advancing an iterator keeps its memo honest, if the memo notes every completion. -/
theorem Honest.pull (hs : s.Honest h) {add : Memo → Step → Memo}
    (hadd : ∀ (m : Memo) (v : Value), (add m (.yielded v)).exhausted = true → m.exhausted = true) :
    (s.pull add h).2.Honest h := by
  refine ⟨usable_pull hs.usable add, ?_⟩
  intro hexhausted
  rw [memo_pull] at hexhausted
  cases hstep : (s.pull add h).1 with
  | done => exact spent_pull hs.usable hstep
  | yielded v =>
      rw [hstep] at hexhausted
      have hdone := pull_of_spent (hs.spent (hadd _ v hexhausted)) add
      rw [hstep] at hdone
      cases hdone

theorem Honest.adopt (hs : s.Honest h) : (s.adopt h).Honest h := by
  refine ⟨?_, ?_⟩
  · cases h with
    | cell i => exact hs.usable
    | text n =>
        show n < (s.cache.adopt (.text n)).texts.size
        rw [Cache.texts_adopt]
        exact hs.usable
  · intro hexhausted
    rw [State.adopt, Cache.memo_adopt] at hexhausted
    have hspent := hs.spent hexhausted
    cases h with
    | cell i => exact hspent
    | text n =>
        show ((s.cache.adopt (.text n)).spelling n).left = []
        rw [Cache.spelling, Cache.texts_adopt]
        exact hspent

/-- A positional read keeps memos honest. -/
theorem Honest.step (hs : s.Honest h) (p : Nat) : (s.step h p).2.Honest h :=
  step_preserves (P := fun t => t.Honest h) hs.adopt
    (fun _ ht => ht.pull fun m _ hexhausted => m.exhausted_of_addStep hexhausted) p

/-- So does a drain. -/
theorem Honest.drainFrom (hs : s.Honest h) (p : Nat) : (s.drainFrom h p).2.Honest h :=
  drainFrom_preserves (P := fun t => t.Honest h) hs.adopt
    (fun _ ht => ht.pull fun _ _ hexhausted => hexhausted) p

/-! ## What one call does to the list -/

/-- What the memo of an iterator tells, in a state in which it can be trusted. -/
structure Told (s : State) (h : Handle) (vs : List Value) (ended : Bool) : Prop where
  honest : s.Honest h
  memo : (s.cache.memo h).Tells vs ended

/-- The memo goes on to tell a longer list; once it has told all, its parts stay what they are. -/
structure GoesOn (s t : State) (h : Handle) (vs : List Value) (ended : Bool) (ws : List Value)
    (ended' : Bool) : Prop where
  told : t.Told h ws ended'
  more : Step.run vs ended <+: Step.run ws ended'
  parts : ended = true → (t.cache.memo h).steps = (s.cache.memo h).steps ∧
    (t.cache.memo h).tail = (s.cache.memo h).tail

theorem GoesOn.trans {ws xs : List Value} {ended' ended'' : Bool}
    (h₁ : GoesOn s t h vs ended ws ended') (h₂ : GoesOn t u h ws ended' xs ended'') :
    GoesOn s u h vs ended xs ended'' := by
  refine ⟨h₂.told, h₁.more.trans h₂.more, ?_⟩
  intro hended
  subst hended
  obtain ⟨hsteps, htail⟩ := h₁.parts rfl
  obtain ⟨-, hended'⟩ := Step.eq_of_extends h₁.more
  obtain ⟨hsteps', htail'⟩ := h₂.parts hended'
  exact ⟨hsteps'.trans hsteps, htail'.trans htail⟩

/-- A call that leaves the memo alone. -/
theorem Told.same (hs : s.Told h vs ended) (ht : t.Honest h)
    (hmemo : t.cache.memo h = s.cache.memo h) : GoesOn s t h vs ended vs ended := by
  refine ⟨⟨ht, ?_⟩, List.prefix_refl _, fun _ => ?_⟩
  · rw [hmemo]
    exact hs.memo
  · rw [hmemo]
    exact ⟨rfl, rfl⟩

/-- A call that adds values to what was told so far. -/
theorem Told.longer {ws : List Value} {ended' : Bool} (ht : t.Told h (vs ++ ws) ended') :
    GoesOn s t h vs false (vs ++ ws) ended' := by
  refine ⟨ht, ?_, fun hended => by cases hended⟩
  rw [Step.run_false, Step.run, List.map_append, List.append_assoc]
  exact List.prefix_append _ _

/-- A positional read answers what the list tells of its position afterwards. -/
theorem Told.step (hs : s.Told h vs ended) (p : Nat) :
    ∃ ws ended', GoesOn s (s.step h p).2 h vs ended ws ended' ∧
      Step.told ws ended' p = some (s.step h p).1 := by
  have hhonest := hs.honest.step p
  have htold := hs.memo.at?_eq_told p
  cases hknown : (s.cache.memo h).at? p with
  | some step =>
      rw [hknown] at htold
      rw [step_of_known hknown] at hhonest ⊢
      exact ⟨vs, ended, hs.same hhonest (Cache.memo_adopt _ _ _), htold.symm⟩
  | none =>
      -- the position lies beyond what is known, and the memo waits for more
      rw [hknown] at htold
      obtain ⟨rfl, hp⟩ := Step.told_eq_none htold.symm
      obtain ⟨hstands, htail⟩ := hs.memo.waits
      rw [← Cache.memo_adopt s.cache h h] at hstands htail hknown
      have hsteps := hstands.length_eq
      rw [htail, List.length_nil, Nat.add_zero] at hsteps
      have hreads := repeatedly_reads (s := s.adopt h) h (p + 1 - vs.length) hs.honest.adopt.usable
        (Cache.contains_adopt_self _ _) hstands htail
      have hstep : s.step h p =
          (((repeatedly (pull Memo.addStep h) (p + 1 - vs.length) (s.adopt h)).cache.memo
              h).steps[p]?.getD .done,
            repeatedly (pull Memo.addStep h) (p + 1 - vs.length) (s.adopt h)) := by
        simp only [State.step, State.adopt, hknown, hsteps]
      rw [hstep] at hhonest ⊢
      generalize repeatedly (pull Memo.addStep h) (p + 1 - vs.length) (s.adopt h) = t at *
      obtain ⟨ws, ended', hmore, hcount⟩ := hreads.more
      have htells : (t.cache.memo h).Tells (vs ++ ws) ended' :=
        .settled hmore fun _ => hreads.tail
      refine ⟨vs ++ ws, ended', Told.longer ⟨hhonest, htells⟩, ?_⟩
      rw [← htells.at?_eq_told]
      refine Memo.at?_eq_getD hreads.tail ?_
      rw [htells.at?_eq_told, Step.isSome_told]
      cases ended' with
      | true => exact .inl rfl
      | false =>
          have hlength := hcount rfl
          exact .inr (by rw [List.length_append]; omega)

/-- A drain of a spent iterator only notes that it has taken place. -/
theorem memo_drain_of_spent (hspent : s.Spent h) (hdrained : (s.cache.memo h).drained = false) :
    (s.drain h).cache.memo h = { s.cache.memo h with drained := true } := by
  have hdone := pull_of_spent hspent Memo.addTail
  have hmemo := s.memo_pull Memo.addTail h
  rw [hdone] at hmemo
  rw [drain, hdrained, if_neg Bool.false_ne_true, repeatedly]
  generalize s.pull Memo.addTail h = pulled at hdone hmemo ⊢
  obtain ⟨step, t⟩ := pulled
  obtain rfl : step = .done := hdone
  exact hmemo

/-- A drain gives the list from its position on, and then the list is all. -/
theorem Told.drainFrom (hs : s.Told h vs ended) (p : Nat) :
    ∃ ws, GoesOn s (s.drainFrom h p).2 h vs ended ws true ∧ (s.drainFrom h p).1 = ws.drop p := by
  have hhonest := hs.honest.drainFrom p
  have hadopt : (s.adopt h).cache.memo h = s.cache.memo h := Cache.memo_adopt _ _ _
  have hdrop := hs.memo.drop_eq p
  by_cases hknown : ((s.cache.memo h).steps.drop p).any Step.isDone = true
  · -- a completion behind the position: what is known is all
    obtain ⟨step, hstep, hdone⟩ := List.any_eq_true.1 hknown
    have hmem : Step.done ∈ (s.cache.memo h).steps := by
      cases step with
      | done => exact List.mem_of_mem_drop hstep
      | yielded v => cases hdone
    have hended := hs.memo.ended_of (.inr hmem)
    subst hended
    have hfrom : s.drainFrom h p = (Memo.valuesOf ((s.cache.memo h).steps.drop p), s.adopt h) := by
      simp only [State.drainFrom, hadopt, hknown, if_true]
    have htail : (s.cache.memo h).tail = [] := hs.memo.tail_of_done hmem
    rw [htail, List.drop_nil, List.append_nil] at hdrop
    rw [hfrom] at hhonest ⊢
    exact ⟨vs, hs.same hhonest hadopt, hdrop⟩
  · have hfrom : s.drainFrom h p =
        (Memo.valuesOf ((s.cache.memo h).steps.drop p) ++
            (((s.adopt h).drain h).cache.memo h).tail.drop (p - (s.cache.memo h).steps.length),
          (s.adopt h).drain h) := by
      simp only [State.drainFrom, hadopt, hknown, Bool.false_eq_true, if_false]
    rw [hfrom] at hhonest ⊢
    cases hdrained : (s.cache.memo h).drained with
    | true =>
        -- it was drained before
        have hsame : (s.adopt h).drain h = s.adopt h := by
          rw [State.drain, hadopt, hdrained, if_pos rfl]
        have hended := hs.memo.ended_of (.inl hdrained)
        subst hended
        rw [hsame] at hhonest ⊢
        rw [hadopt]
        exact ⟨vs, hs.same hhonest hadopt, hdrop⟩
    | false =>
        cases ended with
        | true =>
            -- a positional read met completion, and the position lies behind it
            have hmemo := memo_drain_of_spent (s := s.adopt h) (h := h)
              (hs.honest.adopt.spent (by rw [hadopt, hs.memo.exhausted_eq]))
              (by rw [hadopt, hdrained])
            rw [hadopt] at hmemo
            have htells := hs.memo.again_of_not_drained hdrained
            rw [← hmemo] at htells
            refine ⟨vs, ⟨⟨hhonest, htells⟩, List.prefix_refl _, fun _ => ?_⟩, ?_⟩
            · rw [hmemo]
              exact ⟨rfl, rfl⟩
            · rw [hmemo]
              exact hdrop
        | false =>
            -- the iterator is advanced to its end
            obtain ⟨hstands, -⟩ := hs.memo.waits
            rw [← hadopt] at hstands
            have hexhausts := repeatedly_exhausts h _ hs.honest.adopt.usable
              (Cache.contains_adopt_self _ _) hstands (Nat.lt_succ_self _)
            have hdrain : (s.adopt h).drain h =
                repeatedly (pull Memo.addTail h) ((s.adopt h).remaining h + 1) (s.adopt h) := by
              rw [State.drain, hadopt, hdrained, if_neg Bool.false_ne_true]
            rw [hdrain] at hhonest ⊢
            generalize repeatedly (pull Memo.addTail h) ((s.adopt h).remaining h + 1)
              (s.adopt h) = t at *
            obtain ⟨ws, hall, -⟩ := hexhausts.all
            have htells : (t.cache.memo h).Tells (vs ++ ws) true := by
              refine .settled hall fun hnot => ?_
              rw [hexhausts.drained] at hnot
              cases hnot
            refine ⟨vs ++ ws, Told.longer ⟨hhonest, htells⟩, ?_⟩
            rw [← htells.drop_eq p, hexhausts.steps, hadopt]

/-! ## All calls, and others in between -/

/-- What others do: anything to the store and to what a text has left, nothing to the memo. -/
structure Elsewhere (h : Handle) (s t : State) : Prop where
  memo : t.cache.memo h = s.cache.memo h
  store : s.store.Leads t.store
  text : ∀ n, h = .text n → n < s.cache.texts.size →
    n < t.cache.texts.size ∧ (t.cache.spelling n).left <:+ (s.cache.spelling n).left

/-- Whatever other code does to the store. -/
theorem elsewhere_outside (s : State) (h : Handle) {σ : Store} (done : s.store.Leads σ) :
    Elsewhere h s { s with store := σ } :=
  ⟨rfl, done, fun _ _ hn => ⟨hn, List.suffix_refl _⟩⟩

/-- Reads and drains of one iterator, at any positions and in any order, and what others do in
    between. -/
inductive Readings (h : Handle) : State → State → Prop where
  | refl (s : State) : Readings h s s
  | step {s t : State} (before : Readings h s t) (position : Nat) :
      Readings h s (t.step h position).2
  | drainFrom {s t : State} (before : Readings h s t) (position : Nat) :
      Readings h s (t.drainFrom h position).2
  | elsewhere {s t u : State} (before : Readings h s t) (others : Elsewhere h t u) : Readings h s u

/-- Others leave what is told alone, and they do not bring a spent iterator to life. -/
theorem Told.elsewhere (hs : s.Told h vs ended) (ht : Elsewhere h s t) :
    GoesOn s t h vs ended vs ended := by
  refine hs.same ⟨?_, ?_⟩ ht.memo
  · cases h with
    | cell i => exact ht.store.keeps.holds hs.honest.usable
    | text n => exact (ht.text n rfl hs.honest.usable).1
  · intro hexhausted
    rw [ht.memo] at hexhausted
    have hspent := hs.honest.spent hexhausted
    cases h with
    | cell i => exact ht.store.keeps.spent hspent
    | text n =>
        have hleft := (ht.text n rfl hs.honest.usable).2
        have hnil : (s.cache.spelling n).left = [] := hspent
        rw [hnil] at hleft
        exact List.suffix_nil.1 hleft

/-- However reads, drains and others go on, the memo goes on to tell one list. -/
theorem Readings.goesOn (hst : Readings h s t) (hs : s.Told h vs ended) :
    ∃ ws ended', GoesOn s t h vs ended ws ended' := by
  induction hst with
  | refl => exact ⟨vs, ended, hs.same hs.honest rfl⟩
  | step before position ih =>
      obtain ⟨ws, ended', hgoes⟩ := ih
      obtain ⟨xs, ended'', hmore, -⟩ := hgoes.told.step position
      exact ⟨xs, ended'', hgoes.trans hmore⟩
  | drainFrom before position ih =>
      obtain ⟨ws, ended', hgoes⟩ := ih
      obtain ⟨xs, hmore, -⟩ := hgoes.told.drainFrom position
      exact ⟨xs, true, hgoes.trans hmore⟩
  | elsewhere before others ih =>
      obtain ⟨ws, ended', hgoes⟩ := ih
      exact ⟨ws, ended', hgoes.trans (hgoes.told.elsewhere others)⟩

/-- An iterator whose memo is new. -/
theorem told_of_new (hu : s.Usable h) (hnew : s.cache.memo h = {}) : s.Told h [] false := by
  refine ⟨⟨hu, ?_⟩, ?_⟩
  · intro hexhausted
    rw [hnew] at hexhausted
    cases hexhausted
  · rw [hnew]
    exact .settled Memo.stands_empty Memo.settled_empty

/-- **Positional reads and drains of a memo agree**: from a new memo on, whatever is read and
    drained and whatever others do to the iterator in between, the steps are values with at most
    one completion at their end, only a drain fills the tail, both parts are final once the memo
    was drained or has met completion, and what a drain gives is what positional reads give
    from then on, value by value and then completion. -/
theorem Readings.readers_agree (hst : Readings h s t) (hu : s.Usable h)
    (hnew : s.cache.memo h = {}) :
    (∃ vs : List Value, (t.cache.memo h).steps = vs.map .yielded ∨
      (t.cache.memo h).steps = vs.map .yielded ++ [.done]) ∧
    ((t.cache.memo h).tail ≠ [] → (t.cache.memo h).drained = true) ∧
    ((t.cache.memo h).drained = true ∨ .done ∈ (t.cache.memo h).steps → ∀ u, Readings h t u →
      (u.cache.memo h).steps = (t.cache.memo h).steps ∧
        (u.cache.memo h).tail = (t.cache.memo h).tail) ∧
    ∀ (p : Nat) (u : State), Readings h (t.drainFrom h p).2 u → ∀ j : Nat,
      (u.step h (p + j)).1 = .ofOption (t.drainFrom h p).1[j]? := by
  obtain ⟨vs, ended, hgoes⟩ := hst.goesOn (told_of_new hu hnew)
  have ht := hgoes.told
  refine ⟨?_, ht.memo.drained_of_tail, ?_, ?_⟩
  · obtain ⟨ws, ended', hsteps⟩ := ht.memo.steps_eq
    refine ⟨ws, ?_⟩
    cases ended' with
    | true => exact .inr hsteps
    | false => exact .inl (hsteps.trans (Step.run_false ws))
  · intro hall u htu
    obtain ⟨ws, ended', hmore⟩ := htu.goesOn ht
    exact hmore.parts (ht.memo.ended_of hall)
  · intro p u hu j
    obtain ⟨ws, hdrained, hitems⟩ := ht.drainFrom p
    obtain ⟨xs, ended', hlater⟩ := hu.goesOn hdrained.told
    -- what was drained is final, so later reads find the same list
    obtain ⟨rfl, rfl⟩ := Step.eq_of_extends hlater.more
    obtain ⟨ys, ended'', hread, hstep⟩ := hlater.told.step (p + j)
    obtain ⟨rfl, rfl⟩ := Step.eq_of_extends hread.more
    rw [hitems, List.getElem?_drop, ← Option.some.injEq, ← hstep, Step.told]
    cases ws[p + j]? <;> rfl

/-! ## Two who share an iterator -/

namespace Contended

/-- A generator of five texts. -/
def blueprint : Blueprint :=
  .iterator (.mk .generator (.items (["a", "b", "c", "d", "e"].map fun text =>
    some (.existing (.text text)))) none)

/-- A new cache, and the generator. -/
def start : State := { store := (blueprint.build .empty).2 }

/-- A read of the second position, and then somebody else takes the third value. -/
def shared : State :=
  { (start.step (.cell 0) 1).2 with store := ((start.step (.cell 0) 1).2.store.next 0).2 }

/-- A drain from the second position, and then somebody else closes the generator. -/
def closed : State :=
  { (shared.drainFrom (.cell 0) 1).2 with
    store := ((shared.drainFrom (.cell 0) 1).2.store.close 0).2 }

theorem readings : Readings (.cell 0) start shared :=
  ((Readings.refl start).step 1).elsewhere
    (elsewhere_outside _ _ ((Store.next_reaches _ 0).mono fun _ _ => trivial))

theorem later : Readings (.cell 0) (shared.drainFrom (.cell 0) 1).2 closed :=
  (Readings.refl _).elsewhere (elsewhere_outside _ _ (Store.close_reaches _ 0 trivial))

end Contended

/-- The third value goes to somebody else; a drain and the reads after it agree on the others,
    also once the generator has been closed. -/
theorem Readings.readers_agree_contended :
    Contended.start.Usable (.cell 0) ∧ Contended.start.cache.memo (.cell 0) = {} ∧
      (Contended.shared.drainFrom (.cell 0) 1).1 = [.text "b", .text "d", .text "e"] ∧
        (Contended.closed.step (.cell 0) 2).1 = .yielded (.text "d") ∧
          (Contended.closed.step (.cell 0) 4).1 = .done := by
  have hu : Contended.start.Usable (.cell 0) := by
    show Contended.start.store.holds (.ref (.iterator 0)) = true
    decide
  have hitems : (Contended.shared.drainFrom (.cell 0) 1).1 = [.text "b", .text "d", .text "e"] := by
    decide
  obtain ⟨-, -, -, hagree⟩ := Readings.readers_agree Contended.readings hu rfl
  have hreads := hagree 1 _ Contended.later
  rw [hitems] at hreads
  exact ⟨hu, rfl, hitems, hreads 1, hreads 3⟩

end State

end StructuralMatch
