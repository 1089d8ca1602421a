import StructuralMatch.Proofs.Quiet

/-! # Two runs abreast

    A first run of a match and its replay stand at the same place of the pattern
    (`Abreast`).  The replay begins after the first run has ended, so whatever the
    first run looks at is known by then; what the replay does not find in memory are
    texts, and these spell the same letters.  Each operation keeps the two abreast
    and gives both the same.

    Outcomes are the same up to the arrays that are made of what is left
    (`Verdict.Repeats`). -/

namespace StructuralMatch

/-! ## Outcomes -/

/-- A value again; what was an array made for the occasion is one with the same elements,
    made since. -/
inductive Value.Renewed (before after : Store) : Value → Value → Prop where
  | same (v : Value) : Renewed before after v v
  | array {items : List Value} {a a' : Nat} (first : after.arrays[a]? = some items)
      (again : after.arrays[a']? = some items) (new : before.arrays.size ≤ a') :
      Renewed before after (.ref (.array a)) (.ref (.array a'))

/-- The same names are bound in the same order, to the same values. -/
def Bindings.Renewed (before after : Store) (b b' : Bindings) : Prop :=
  b.entries.Related (Value.Renewed before after) b'.entries

/-- The same outcome. -/
inductive Verdict.Repeats (before after : Store) : Verdict Bindings → Verdict Bindings → Prop where
  | matched {b b' : Bindings} (renewed : b.Renewed before after b') :
      Repeats before after (.matched b) (.matched b')
  | unmatched : Repeats before after .unmatched .unmatched

section Outcomes

variable {before after later : Store} {b b' c c' : Bindings}

theorem Value.Renewed.keeps (hk : after.Keeps later) {v v' : Value}
    (h : v.Renewed before after v') : v.Renewed before later v' := by
  cases h with
  | same v => exact .same v
  | array first again new => exact .array (hk.arrays first) (hk.arrays again) new

theorem Bindings.Renewed.keeps (hk : after.Keeps later) (h : b.Renewed before after b') :
    b.Renewed before later b' :=
  List.Forall₂.imp (fun _ _ he => ⟨he.1, he.2.keeps hk⟩) h

theorem Bindings.Renewed.refl (b : Bindings) : b.Renewed before after b := by
  rw [Bindings.Renewed, Assoc.Related]
  exact List.forall₂_same.2 fun e _ => ⟨rfl, .same e.2⟩

theorem Bindings.Renewed.merge (h : b.Renewed before after b') (hc : c.Renewed before after c') :
    (b.merge c).Renewed before after (b'.merge c') := by
  rw [Bindings.Renewed, Bindings.entries_merge, Bindings.entries_merge]
  exact Assoc.Related.insertAll h hc

/-- A verdict that is no failure repeats itself. -/
theorem Verdict.Repeats.refl {x : Verdict Bindings} (hx : ∀ e, x ≠ .failed e) :
    x.Repeats before after x := by
  cases x with
  | matched b => exact .matched (.refl b)
  | unmatched => exact .unmatched
  | failed e => exact absurd rfl (hx e)

end Outcomes

/-! ## Two runs -/

namespace State

variable {o s t : State} {h h' : Handle} {p : Nat}

/-- A first run stands at `s` and its replay, which began at `o` and has been quiet so far,
    at `t`. -/
structure Abreast (o s t : State) : Prop where
  sound : s.Sound
  settled : s.Settled
  sound' : t.Sound
  settled' : t.Settled
  quiet : Quiet o t

/-- Handles that give the same: one iterator, or two spellings of one text, of which the
    replay made the second. -/
inductive Twins (o s t : State) : Handle → Handle → Prop where
  | cell (i : Nat) : Twins o s t (.cell i) (.cell i)
  | text {n n' : Nat} {text : String} (spells : s.Spells n text) (spells' : t.Spells n' text)
      (new : o.cache.texts.size ≤ n') : Twins o s t (.text n) (.text n')

/-- Both runs are about to look at a position. -/
structure Poised (o s t : State) (h h' : Handle) (p : Nat) : Prop where
  twins : Twins o s t h h'
  usable : s.Usable h
  reached : s.Reached h p
  usable' : t.Usable h'
  reached' : t.Reached h' p

theorem Spells.later {n : Nat} {text : String} (h : s.Spells n text) (hw : Works s t) :
    t.Spells n text := by
  obtain ⟨l, hl, htext, hclosed⟩ := h
  obtain ⟨l', hl', htext', hclosed'⟩ := hw.spellsOn n l hl
  exact ⟨l', hl', htext'.trans htext, hclosed'.trans hclosed⟩

theorem Spells.usable {n : Nat} {text : String} (h : s.Spells n text) : s.Usable (.text n) := by
  obtain ⟨l, hl, -⟩ := h
  exact (Array.getElem?_eq_some_iff.1 hl).1

theorem Poised.later {s' t' : State} (hp : Poised o s t h h' p) (hw : Works s s')
    (hw' : Works t t') : Poised o s' t' h h' p where
  twins := by
    cases hp.twins with
    | cell i => exact .cell i
    | text spells spells' new => exact .text (spells.later hw) (spells'.later hw') new
  usable := hw.usable hp.usable
  reached := hw.reached hp.reached
  usable' := hw'.usable hp.usable'
  reached' := hw'.reached hp.reached'

/-- Once the position has yielded, both runs are about to look at the next. -/
theorem Poised.next (hp : Poised o s t h h' p) (hr : s.Reached h (p + 1))
    (hr' : t.Reached h' (p + 1)) : Poised o s t h h' (p + 1) :=
  ⟨hp.twins, hp.usable, hr, hp.usable', hr'⟩

/-- What is read of a text is its letter at the position. -/
theorem step_text (hs : s.Sound) (hset : s.Settled) {n : Nat} {text : String}
    (hspells : s.Spells n text) (hr : s.Reached (.text n) p) :
    (s.step (.text n) p).1 = .ofOption (Spelling.letters text.toList)[p]? := by
  have hproceeds := (Act.step s hspells.usable p).proceeds hs hset
  have hcovers := (hproceeds.works.sound hs).covers_snapshot
  exact (step_follows hs hset hspells.usable hr (.text hspells) hcovers).2

/-- What is drained from a text are its letters from the position on. -/
theorem drainFrom_text (hs : s.Sound) (hset : s.Settled) {n : Nat} {text : String}
    (hspells : s.Spells n text) (hr : s.Reached (.text n) p) :
    (s.drainFrom (.text n) p).1 = (Spelling.letters text.toList).drop p := by
  have hproceeds := (Act.drainFrom s hspells.usable hr).proceeds hs hset
  have hcovers := (hproceeds.works.sound hs).covers_snapshot
  exact (drainFrom_follows hs hset hspells.usable hr (.text hspells) hcovers).2

/-- The first run goes ahead. -/
theorem Abreast.ahead {s' : State} (ha : Abreast o s t) (h : Acts s s') : Abreast o s' t := by
  have hproceeds := h.proceeds ha.sound ha.settled
  exact ⟨hproceeds.works.sound ha.sound, hproceeds.settled, ha.sound', ha.settled', ha.quiet⟩

/-- The replay catches up, quietly. -/
theorem Abreast.caught {t' : State} (ha : Abreast o s t) (h : Acts t t') (hquiet : Quiet o t') :
    Abreast o s t' := by
  have hproceeds := h.proceeds ha.sound' ha.settled'
  exact ⟨ha.sound, ha.settled, hproceeds.works.sound ha.sound', hproceeds.settled, hquiet⟩

/-- What the first run reads is known to the replay. -/
theorem read_twins (ha : Abreast o s t) {r : Ref} (held : s.store.holds (.ref r) = true) (k : Key)
    (ht : Onward (s.read (.ref r) k).2 t) :
    t.read (.ref r) k = ((s.read (.ref r) k).1, t) := by
  have hagain := ask_again (q := .property r k) ha.sound ha.settled held ht
  rw [Prod.ext_iff] at hagain
  exact Prod.ext (Answer.value.inj hagain.1) hagain.2

/-- Both runs get the same step. -/
theorem step_twins (ha : Abreast o s t) (hp : Poised o s t h h' p)
    (ht : Onward (s.step h p).2 t) :
    (t.step h' p).1 = (s.step h p).1 ∧ Quiet o (t.step h' p).2 := by
  cases hp.twins with
  | cell i =>
      have hagain := ask_again (q := .position i p) ha.sound ha.settled hp.usable ht
      have hstep : t.step (.cell i) p = ((s.step (.cell i) p).1, t) := by
        rw [Prod.ext_iff] at hagain
        exact Prod.ext (Answer.step.inj hagain.1) hagain.2
      rw [hstep]
      exact ⟨rfl, ha.quiet⟩
  | text spells spells' new =>
      refine ⟨?_, ha.quiet.step_text new p⟩
      rw [step_text ha.sound ha.settled spells hp.reached,
        step_text ha.sound' ha.settled' spells' hp.reached']

/-- Both runs get the same elements that are left. -/
theorem drainFrom_twins (ha : Abreast o s t) (hp : Poised o s t h h' p)
    (ht : Onward (s.drainFrom h p).2 t) :
    (t.drainFrom h' p).1 = (s.drainFrom h p).1 ∧ Quiet o (t.drainFrom h' p).2 := by
  cases hp.twins with
  | cell i =>
      rw [(drainFrom_again ha.sound ha.settled hp.usable hp.reached ht).1]
      exact ⟨rfl, ha.quiet⟩
  | text spells spells' new =>
      refine ⟨?_, ha.quiet.drainFrom_text new p⟩
      rw [drainFrom_text ha.sound ha.settled spells hp.reached,
        drainFrom_text ha.sound' ha.settled' spells' hp.reached']

/-- Both runs read a position. -/
theorem Abreast.step (ha : Abreast o s t) (hp : Poised o s t h h' p) {step : Step} {s₁ : State}
    (hfirst : s.step h p = (step, s₁)) (ht : Onward s₁ t) :
    ∃ t₁, t.step h' p = (step, t₁) ∧ Acts t t₁ ∧ Abreast o s₁ t₁ ∧
      ∀ x, step = .yielded x → Poised o s₁ t₁ h h' (p + 1) := by
  have hact := (Act.step s hp.usable p).acts
  have hact' := (Act.step t hp.usable' p).acts
  have hyielded := (step_reached ha.sound ha.settled hp.usable hp.reached).2
  have hyielded' := (step_reached ha.sound' ha.settled' hp.usable' hp.reached').2
  have hsame := step_twins ha hp
  rw [hfirst] at hact hyielded hsame
  obtain ⟨hstep, hquiet⟩ := hsame ht
  generalize t.step h' p = again at hact' hyielded' hstep hquiet ⊢
  obtain ⟨step', t₁⟩ := again
  dsimp only at hstep
  subst hstep
  refine ⟨t₁, rfl, hact', (ha.ahead hact).caught hact' hquiet, ?_⟩
  intro x hx
  have hlater := hp.later (hact.proceeds ha.sound ha.settled).works
    (hact'.proceeds ha.sound' ha.settled').works
  exact hlater.next (hyielded x hx).1 (hyielded' x hx).1

theorem Abreast.drainFrom (ha : Abreast o s t) (hp : Poised o s t h h' p) {items : List Value}
    {s₁ : State} (hfirst : s.drainFrom h p = (items, s₁)) (ht : Onward s₁ t) :
    ∃ t₁, t.drainFrom h' p = (items, t₁) ∧ Acts t t₁ ∧ Abreast o s₁ t₁ := by
  have hact := (Act.drainFrom s hp.usable hp.reached).acts
  have hact' := (Act.drainFrom t hp.usable' hp.reached').acts
  have hsame := drainFrom_twins ha hp
  rw [hfirst] at hact hsame
  obtain ⟨hitems, hquiet⟩ := hsame ht
  generalize t.drainFrom h' p = again at hact' hitems hquiet ⊢
  obtain ⟨items', t₁⟩ := again
  dsimp only at hitems
  subst hitems
  exact ⟨t₁, rfl, hact', (ha.ahead hact).caught hact' hquiet⟩

/-- Both runs get iterators, or none. -/
theorem iteratorFor_twins (ha : Abreast o s t) {v : Value} (held : s.store.holds v = true)
    (ht : Onward (s.iteratorFor v).2 t) :
    Quiet o (t.iteratorFor v).2 ∧
      (((s.iteratorFor v).1 = none ∧ (t.iteratorFor v).1 = none) ∨
        ∃ h h', (s.iteratorFor v).1 = some h ∧ (t.iteratorFor v).1 = some h' ∧
          Twins o (s.iteratorFor v).2 (t.iteratorFor v).2 h h') := by
  cases v with
  | prim q =>
      cases q with
      | text text =>
          -- each run spells the text for itself
          obtain ⟨n, hn, -, hspells⟩ := iteratorFor_text ha.settled text
          obtain ⟨n', hn', -, hspells'⟩ := iteratorFor_text ha.settled' text
          have hnew : n' = t.cache.texts.size := (Handle.text.inj (Option.some.inj hn')).symm
          refine ⟨ha.quiet.spell text, .inr ⟨_, _, hn, hn', .text hspells hspells' ?_⟩⟩
          rw [hnew]
          exact ha.quiet.spelled
      | _ => exact ⟨ha.quiet, .inl ⟨rfl, rfl⟩⟩
  | ref r =>
      -- a value with an identity: the replay is given the iterator that is remembered
      have hagain := ask_again (q := .iterator r) ha.sound ha.settled held ht
      have hsame : t.iteratorFor (.ref r) = ((s.iteratorFor (.ref r)).1, t) := by
        rw [Prod.ext_iff] at hagain
        exact Prod.ext (Answer.iterator.inj hagain.1) hagain.2
      rw [hsame]
      refine ⟨ha.quiet, ?_⟩
      cases hfirst : (s.iteratorFor (.ref r)).1 with
      | none => exact .inl ⟨rfl, rfl⟩
      | some h =>
          obtain ⟨i, rfl, -⟩ := iteratorFor_some ha.sound ha.settled held hfirst
          exact .inr ⟨_, _, rfl, rfl, .cell i⟩

/-- Both runs get an iterator each. -/
theorem Abreast.iteratorFor (ha : Abreast o s t) {v : Value} (held : s.store.holds v = true)
    (held' : t.store.holds v = true) {s₁ : State} (hfirst : s.iteratorFor v = (some h, s₁))
    (ht : Onward s₁ t) :
    ∃ h' t₁, t.iteratorFor v = (some h', t₁) ∧ Acts t t₁ ∧ Abreast o s₁ t₁ ∧
      Poised o s₁ t₁ h h' 0 := by
  have hact := (Act.iteratorFor s held).acts
  have hact' := (Act.iteratorFor t held').acts
  have husable := (iteratorFor_proceeds ha.sound ha.settled held).2
  have husable' := (iteratorFor_proceeds ha.sound' ha.settled' held').2
  have htwins := iteratorFor_twins ha held
  rw [hfirst] at hact husable htwins
  obtain ⟨hquiet, ⟨hnone, -⟩ | ⟨g, h', hg, hh', hboth⟩⟩ := htwins ht
  · cases hnone
  · cases hg
    generalize t.iteratorFor v = again at hact' husable' hquiet hh' hboth ⊢
    obtain ⟨x, t₁⟩ := again
    dsimp only at hh'
    subst hh'
    have hahead := (ha.ahead hact).caught hact' hquiet
    exact ⟨h', t₁, rfl, hact', hahead, hboth, husable h rfl,
      hahead.sound.reached_zero (husable h rfl), husable' h' rfl,
      hahead.sound'.reached_zero (husable' h' rfl)⟩

theorem Abreast.iteratorFor_none (ha : Abreast o s t) {v : Value}
    (held : s.store.holds v = true) {s₁ : State} (hfirst : s.iteratorFor v = (none, s₁))
    (ht : Onward s₁ t) : ∃ t₁, t.iteratorFor v = (none, t₁) ∧ Quiet o t₁ := by
  have htwins := iteratorFor_twins ha held
  rw [hfirst] at htwins
  obtain ⟨hquiet, ⟨-, hnone⟩ | ⟨g, h', hg, -⟩⟩ := htwins ht
  · exact ⟨_, Prod.ext hnone rfl, hquiet⟩
  · cases hg

end State

end StructuralMatch
