import StructuralMatch.Proofs.Store.Polling

/-! # Gentle user code

    User code is gentle if neither it nor any user code that it makes advances or closes an
    iterator.  Where all getters, factories and sources of a store are gentle
    (`Store.Gentle`), reading properties and making iterators touch no iterator at all
    (`Store.inspected_polls`, `Store.iterate_polls`), and advancing one polls that one and
    no other (`Store.next_polls`).  The store stays gentle on the way (`Store.PollsOnly`).

    What a function returns when it is called is not restricted: nobody calls it here. -/

namespace StructuralMatch

/-! ## Gentle plans and scripts -/

mutual

/-- A blueprint for something whose user code is gentle. -/
def Blueprint.Gentle : Blueprint → Prop
  | .existing _ => True
  | .array items => Blueprint.AllGentle items
  | .object shape => shape.Gentle
  | .function _ shape body _ => shape.Gentle ∧ body.Gentle
  | .iterator plan => plan.Gentle

/-- A shape whose getters and factory are gentle. -/
def Shape.Gentle : Shape → Prop
  | .mk _ proto properties factory =>
      Blueprint.OptionGentle proto ∧ PropertyPlan.AllGentle properties ∧
        IteratorPlan.OptionGentle factory

/-- A property whose value or getter is gentle. -/
def PropertyPlan.Gentle : PropertyPlan → Prop
  | .field b | .hidden b => b.Gentle
  | .getter _ body => body.Gentle

/-- A getter that advances an iterator is not gentle. -/
def GetterPlan.Gentle : GetterPlan → Prop
  | .values bs => Blueprint.AllGentle bs
  | .fresh b => b.Gentle
  | .advance _ => False

/-- A function whose answer is gentle. -/
def BodyPlan.Gentle : BodyPlan → Prop
  | .sum | .arguments => True
  | .constant b => b.Gentle

/-- An iterator with a gentle source. -/
def IteratorPlan.Gentle : IteratorPlan → Prop
  | .mk _ source _ => source.Gentle

/-- A source that yields the elements of another iterator is not gentle. -/
def SourcePlan.Gentle : SourcePlan → Prop
  | .items bs => Blueprint.OptionsGentle bs
  | .range _ _ => True
  | .elements _ => False

def Blueprint.AllGentle : List Blueprint → Prop
  | [] => True
  | b :: bs => b.Gentle ∧ Blueprint.AllGentle bs

def Blueprint.OptionGentle : Option Blueprint → Prop
  | none => True
  | some b => b.Gentle

def Blueprint.OptionsGentle : List (Option Blueprint) → Prop
  | [] => True
  | b :: bs => Blueprint.OptionGentle b ∧ Blueprint.OptionsGentle bs

def PropertyPlan.AllGentle : List (Key × PropertyPlan) → Prop
  | [] => True
  | (_, p) :: ps => p.Gentle ∧ PropertyPlan.AllGentle ps

def IteratorPlan.OptionGentle : Option IteratorPlan → Prop
  | none => True
  | some plan => plan.Gentle

end

/-- A script that neither advances nor closes an iterator, and gives such results. -/
def Script.Gentle {α : Type} (P : α → Prop) : Script α → Prop
  | .give a => P a
  | .make b next => b.Gentle ∧ ∀ v, (next v).Gentle P
  | .advance _ _ | .close _ _ => False
  | .note _ next => next.Gentle P

/-- An iterator that was there before is gentle to hand out: only handing it out counts. -/
def Supply.Gentle : Supply → Prop
  | .fresh plan => plan.Gentle
  | .existing _ => True

/-- A source that takes its values from no other iterator. -/
def Source.Gentle : Source → Prop
  | .items outputs => ∀ script ∈ outputs, script.Gentle fun _ => True
  | .range _ _ => True
  | .inner _ => False

/-- An iterator that is spent, or has a gentle source. -/
def Iterator.Gentle (it : Iterator) : Prop := ∀ source ∈ it.source, source.Gentle

/-- A getter that is gentle at any of its runs. -/
def Getter.Gentle (g : Getter) : Prop := ∀ run, (g.body run).Gentle fun _ => True

/-- A factory that is gentle at any of its runs, and makes gentle iterators. -/
def Factory.Gentle (f : Factory) : Prop := ∀ run, (f.body run).Gentle Supply.Gentle

/-- Values that are given one after another are given gently. -/
theorem Source.gentle_ofValues (vs : List Value) : (Source.ofValues vs).Gentle := by
  intro script hscript
  obtain ⟨v, -, rfl⟩ := List.mem_map.1 hscript
  trivial

/-- After an output an iterator goes on gently. -/
theorem Iterator.Gentle.after (it : Iterator) (output : Option Value) {rest : Source}
    (hrest : rest.Gentle) : (it.after output rest).Gentle := by
  cases output with
  | none => exact fun source live => nomatch live
  | some v => exact fun source live => Option.some.inj live ▸ hrest

/-- Whether the event touches none but these iterators, and only by a poll. -/
def Event.Polls (which : Nat → Prop) (e : Event) : Prop :=
  ∀ i, e.Touches i → which i ∧ ∃ turn output, e = .polled i turn output

namespace Store

variable {σ τ υ : Store} {which : Nat → Prop}

/-! ## Gentle stores -/

/-- All user code in the store is gentle. -/
structure Gentle (σ : Store) : Prop where
  iterators : ∀ {i : Nat} {it : Iterator}, σ.iterators[i]? = some it → it.Gentle
  getters : ∀ {g : Nat} {getter : Getter}, σ.getters[g]? = some getter → getter.Gentle
  factories : ∀ {f : Nat} {factory : Factory}, σ.factories[f]? = some factory → factory.Gentle

/-- Where there is no user code, all of it is gentle. -/
theorem gentle_empty : empty.Gentle := ⟨nofun, nofun, nofun⟩

/-- Only iterators, getters and factories count. -/
theorem Gentle.of_eq (h : σ.Gentle) (hi : τ.iterators = σ.iterators) (hg : τ.getters = σ.getters)
    (hf : τ.factories = σ.factories) : τ.Gentle :=
  ⟨hi ▸ h.iterators, hg ▸ h.getters, hf ▸ h.factories⟩

/-- A gentle iterator more. -/
theorem Gentle.newIterator (h : σ.Gentle) {it : Iterator} (hit : it.Gentle) :
    (σ.newIterator it).2.Gentle :=
  { h with iterators := forall_push (Q := fun _ => Iterator.Gentle) h.iterators hit }

/-- A gentle getter more. -/
theorem Gentle.newGetter (h : σ.Gentle) {g : Getter} (hg : g.Gentle) :
    (σ.newGetter g).2.Gentle :=
  { h with getters := forall_push (Q := fun _ => Getter.Gentle) h.getters hg }

/-- A gentle factory more. -/
theorem Gentle.newFactory (h : σ.Gentle) {f : Factory} (hf : f.Gentle) :
    (σ.newFactory f).2.Gentle :=
  { h with factories := forall_push (Q := fun _ => Factory.Gentle) h.factories hf }

theorem Gentle.newFactory? (h : σ.Gentle) {plan : Option IteratorPlan}
    (hplan : IteratorPlan.OptionGentle plan) : (σ.newFactory? plan).2.Gentle := by
  cases plan with
  | none => exact h
  | some plan => exact h.newFactory fun _ => hplan

/-- A gentle iterator in place of another. -/
theorem Gentle.setIterator (h : σ.Gentle) (i : Nat) {it : Iterator} (hit : it.Gentle) :
    (σ.setIterator i it).Gentle :=
  { h with iterators := forall_set (Q := fun _ => Iterator.Gentle) h.iterators hit }

/-- That a getter has run once more does not change what it does. -/
theorem Gentle.startGetter (h : σ.Gentle) (cell : Nat) {g : Getter} (hg : g.Gentle) :
    (σ.startGetter cell g).Gentle :=
  have hstarted : Getter.Gentle { g with runs := g.runs + 1 } := hg
  { h with getters := forall_set (Q := fun _ => Getter.Gentle) h.getters hstarted }

theorem Gentle.startFactory (h : σ.Gentle) (cell : Nat) {f : Factory} (hf : f.Gentle)
    (iterable : Ref) : (σ.startFactory cell f iterable).Gentle :=
  have hstarted : Factory.Gentle { f with runs := f.runs + 1 } := hf
  { h with factories := forall_set (Q := fun _ => Factory.Gentle) h.factories hstarted }

end Store

/-! ## Building -/

open Store

mutual

/-- What is built of a gentle plan leaves the store gentle. -/
theorem Blueprint.build_gentle : ∀ (b : Blueprint) {σ : Store}, b.Gentle → σ.Gentle →
    (b.build σ).2.Gentle
  | .existing _, _, _, h => h
  | .array items, _, hb, h => (Blueprint.buildAll_gentle items hb h).of_eq rfl rfl rfl
  | .object shape, _, hb, h => (shape.build_gentle hb h).of_eq rfl rfl rfl
  | .function _ shape body _, _, hb, h =>
      (body.build_gentle hb.2 (shape.build_gentle hb.1 h)).of_eq rfl rfl rfl
  | .iterator plan, _, hb, h => plan.build_gentle hb h

/-- Prototype and properties are built first, the factory last. -/
theorem Shape.build_gentle : ∀ (shape : Shape) {σ : Store}, shape.Gentle → σ.Gentle →
    (shape.build σ).2.Gentle
  | .mk _ proto properties _, _, ⟨hproto, hproperties, hfactory⟩, h =>
      (PropertyPlan.buildAll_gentle properties hproperties
        (Blueprint.buildOption_gentle proto hproto h)).newFactory? hfactory

theorem PropertyPlan.build_gentle : ∀ (p : PropertyPlan) {σ : Store}, p.Gentle → σ.Gentle →
    (p.build σ).2.Gentle
  | .field b, _, hp, h => b.build_gentle hp h
  | .hidden b, _, hp, h => b.build_gentle hp h
  | .getter _ body, _, hp, h =>
      have ⟨hbody, hbuilt⟩ := body.build_gentle hp h
      hbuilt.newGetter hbody

/-- What is built of a gentle plan for a getter is gentle, too. -/
theorem GetterPlan.build_gentle : ∀ (p : GetterPlan) {σ : Store}, p.Gentle → σ.Gentle →
    (∀ run, ((p.build σ).1 run).Gentle fun _ => True) ∧ (p.build σ).2.Gentle
  | .values bs, _, hp, h => ⟨fun _ => trivial, Blueprint.buildAll_gentle bs hp h⟩
  | .fresh _, _, hp, h => ⟨fun _ => ⟨hp, fun _ => trivial⟩, h⟩
  | .advance _, _, hp, _ => hp.elim

theorem BodyPlan.build_gentle : ∀ (p : BodyPlan) {σ : Store}, p.Gentle → σ.Gentle →
    (p.build σ).2.Gentle
  | .sum, _, _, h => h
  | .arguments, _, _, h => h
  | .constant b, _, hp, h => b.build_gentle hp h

theorem IteratorPlan.build_gentle : ∀ (p : IteratorPlan) {σ : Store}, p.Gentle → σ.Gentle →
    (p.build σ).2.Gentle
  | .mk _ source _, _, hp, h =>
      have ⟨hsource, hbuilt⟩ := source.build_gentle hp h
      hbuilt.newIterator fun _ live => Option.some.inj live ▸ hsource

/-- What is built of a gentle plan for a source is gentle, too. -/
theorem SourcePlan.build_gentle : ∀ (p : SourcePlan) {σ : Store}, p.Gentle → σ.Gentle →
    (p.build σ).1.Gentle ∧ (p.build σ).2.Gentle
  | .items bs, _, hp, h => by
      refine ⟨?_, Blueprint.buildOptions_gentle bs hp h⟩
      intro script hscript
      obtain ⟨v, -, rfl⟩ := List.mem_map.1 hscript
      trivial
  | .range _ _, _, _, h => ⟨trivial, h⟩
  | .elements _, _, hp, _ => hp.elim

theorem Blueprint.buildAll_gentle : ∀ (bs : List Blueprint) {σ : Store},
    Blueprint.AllGentle bs → σ.Gentle → (Blueprint.buildAll bs σ).2.Gentle
  | [], _, _, h => h
  | b :: bs, _, hb, h => Blueprint.buildAll_gentle bs hb.2 (b.build_gentle hb.1 h)

theorem Blueprint.buildOption_gentle : ∀ (b : Option Blueprint) {σ : Store},
    Blueprint.OptionGentle b → σ.Gentle → (Blueprint.buildOption b σ).2.Gentle
  | none, _, _, h => h
  | some b, _, hb, h => b.build_gentle hb h

theorem Blueprint.buildOptions_gentle : ∀ (bs : List (Option Blueprint)) {σ : Store},
    Blueprint.OptionsGentle bs → σ.Gentle → (Blueprint.buildOptions bs σ).2.Gentle
  | [], _, _, h => h
  | b :: bs, _, hb, h =>
      Blueprint.buildOptions_gentle bs hb.2 (Blueprint.buildOption_gentle b hb.1 h)

theorem PropertyPlan.buildAll_gentle : ∀ (ps : List (Key × PropertyPlan)) {σ : Store},
    PropertyPlan.AllGentle ps → σ.Gentle → (PropertyPlan.buildAll ps σ).2.Gentle
  | [], _, _, h => h
  | (_, p) :: ps, _, hp, h => PropertyPlan.buildAll_gentle ps hp.2 (p.build_gentle hp.1 h)

end

/-! ## Running -/

namespace Store

variable {σ τ υ : Store} {which : Nat → Prop}

/-- A gentle store stays gentle, and none but these iterators are touched, by polls. -/
def PollsOnly (which : Nat → Prop) (σ τ : Store) : Prop :=
  σ.Gentle → τ.Gentle ∧ σ.Reaches (Event.Polls which) τ

theorem PollsOnly.refl (σ : Store) : PollsOnly which σ σ := fun h => ⟨h, .refl σ⟩

/-- One run after another. -/
theorem PollsOnly.trans (h₁ : PollsOnly which σ τ) (h₂ : PollsOnly which τ υ) :
    PollsOnly which σ υ := by
  intro h
  obtain ⟨hτ, hfirst⟩ := h₁ h
  obtain ⟨hυ, hsecond⟩ := h₂ hτ
  exact ⟨hυ, hfirst.trans hsecond⟩

/-- More iterators may be polled than are. -/
theorem PollsOnly.mono {others : Nat → Prop} (hsub : ∀ i, which i → others i)
    (h : PollsOnly which σ τ) : PollsOnly others σ τ := by
  intro hσ
  obtain ⟨hτ, hrun⟩ := h hσ
  exact ⟨hτ, hrun.mono fun e he i hi => ⟨hsub i (he i hi).1, (he i hi).2⟩⟩

end Store

section Scripts

variable {which : Nat → Prop} {advance : Nat → Store → Step × Store}
  {close : Nat → Store → Bool × Store}

/-- A gentle script makes gentle things and leaves messages. -/
theorem Script.run_gentle {α : Type} {P : α → Prop} : ∀ (script : Script α) {σ : Store},
    script.Gentle P → σ.Gentle →
      P (script.run advance close σ).1 ∧ (script.run advance close σ).2.Gentle ∧
        σ.Reaches (Event.Polls which) (script.run advance close σ).2
  | .give _, σ, hscript, h => ⟨hscript, h, .refl σ⟩
  | .make b next, σ, hscript, h => by
      obtain ⟨hresult, hgentle, hrun⟩ :=
        Script.run_gentle (next (b.build σ).1) (hscript.2 _) (b.build_gentle hscript.1 h)
      exact ⟨hresult, hgentle, (b.build_reaches σ).trans hrun⟩
  | .advance _ _, _, hscript, _ => hscript.elim
  | .close _ _, _, hscript, _ => hscript.elim
  | .note message next, σ, hscript, h => by
      have hnoted : (σ.record (.note message)).Gentle := h.of_eq rfl rfl rfl
      obtain ⟨hresult, hgentle, hrun⟩ := Script.run_gentle next hscript hnoted
      exact ⟨hresult, hgentle,
        (Change.remark σ (.note message) trivial fun _ => False.elim).reaches.trans hrun⟩

variable (which advance close) in
/-- And so does a gentle source, which stays gentle. -/
theorem Source.poll_gentle {source : Source} (hsource : source.Gentle) {σ : Store}
    (h : σ.Gentle) :
    (source.poll advance close σ).2.1.Gentle ∧ (source.poll advance close σ).2.2.Gentle ∧
      σ.Reaches (Event.Polls which) (source.poll advance close σ).2.2 := by
  cases source with
  | items outputs =>
      cases outputs with
      | nil => exact ⟨hsource, h, .refl σ⟩
      | cons script outputs =>
          have hscript := hsource script (List.mem_cons_self ..)
          obtain ⟨-, hran⟩ := script.run_gentle hscript h
          exact ⟨fun s hs => hsource s (List.mem_cons_of_mem _ hs), hran⟩
  | range next stop =>
      rw [Source.poll]
      split
      · exact ⟨trivial, h, .refl σ⟩
      · exact ⟨trivial, h, .refl σ⟩
  | inner i => exact hsource.elim

end Scripts

namespace Store

variable {σ : Store} {which : Nat → Prop}

/-- Advancing an iterator polls it, and touches no other. -/
theorem next_polls (σ : Store) (i : Nat) : PollsOnly (· = i) σ (σ.next i).2 := by
  intro h
  rw [next, nextWithin]
  split
  · exact ⟨h, .refl σ⟩
  · rename_i it here
    split
    · exact ⟨h, .refl σ⟩
    · rename_i source live
      dsimp only
      generalize (fun (j : Nat) (τ : Store) =>
        if j < i then τ.nextWithin i j else (.done, τ)) = below
      have hpoll := Source.poll_gentle (fun _ => False) below (closeBelow i)
        (h.iterators here source live) h
      generalize source.poll below (closeBelow i) σ = polled at hpoll ⊢
      obtain ⟨output, rest, τ⟩ := polled
      obtain ⟨hrest, hgentle, hrun⟩ := hpoll
      refine ⟨(hgentle.setIterator i (.after it _ hrest)).of_eq rfl rfl rfl, ?_⟩
      -- the source touches nothing, so the iterator is still as it was
      have hthere : τ.iterators[i]? = some it := by
        have hi : i < σ.iterators.size := (Array.getElem?_eq_some_iff.1 here).1
        exact (hrun.iterator_eq (fun e he hi => (he i hi).1) hi).trans here
      -- the poll comes last, and is of this iterator
      refine .tail (hrun.mono fun e he j hj => (he j hj).1.elim)
        (.poll τ i it _ rest hthere (by simp [live]) ?_)
      intro j hj
      obtain rfl : i = j := hj
      exact ⟨rfl, _, _, rfl⟩

/-- Running a getter touches no iterator. -/
theorem runGetter_polls (σ : Store) (g : Nat) : PollsOnly which σ (σ.runGetter g).2 := by
  intro h
  rw [runGetter]
  split
  · exact ⟨h, .refl σ⟩
  · rename_i getter here
    have hgetter := h.getters here
    -- the run is counted before the body starts
    obtain ⟨-, hgentle, hrun⟩ :=
      Script.run_gentle (getter.body getter.runs) (hgetter getter.runs) (h.startGetter g hgetter)
    exact ⟨hgentle, (Change.startGetter σ g getter fun _ => False.elim).reaches.trans hrun⟩

/-- Looking at properties touches no iterator. -/
theorem inspected_polls : Inspected (PollsOnly which) where
  refl := .refl
  trans := .trans
  runGetter := runGetter_polls
  newObject := fun σ o h => ⟨h.of_eq rfl rfl rfl, (Change.object σ o).reaches⟩

theorem newArray_polls (σ : Store) (items : List Value) :
    PollsOnly which σ (σ.newArray items).2 :=
  fun h => ⟨h.of_eq rfl rfl rfl, (Change.array σ items).reaches⟩

/-- Getting the iterator that a factory hands out touches none. -/
theorem supply_polls {handed : Supply} (hhanded : handed.Gentle) :
    PollsOnly which σ (σ.supply handed).2 := by
  intro h
  refine ⟨?_, supply_reaches σ handed⟩
  cases handed with
  | fresh plan => exact plan.build_gentle hhanded h
  | existing i =>
      rw [supply]
      split
      · exact h
      · refine h.newIterator ?_
        intro source live
        cases live

/-- Running a factory touches no iterator. -/
theorem runFactory_polls (σ : Store) (iterable : Ref) (f : Nat) :
    PollsOnly which σ (σ.runFactory iterable f).2 := by
  intro h
  rw [runFactory]
  split
  · exact ⟨h, .refl σ⟩
  · rename_i factory here
    have hfactory := h.factories here
    -- the body tells which iterator to hand out, and that one is supplied afterwards
    obtain ⟨hhanded, hgentle, hrun⟩ := Script.run_gentle (factory.body factory.runs)
      (hfactory factory.runs) (h.startFactory f hfactory iterable)
    obtain ⟨hsupplied, hsupply⟩ := supply_polls hhanded hgentle
    exact ⟨hsupplied,
      ((Change.startFactory σ f factory iterable fun _ => False.elim).reaches.trans hrun).trans
        hsupply⟩

/-- Making an iterator over a value touches none that is there. -/
theorem iterate_polls (σ : Store) (v : Value) : PollsOnly which σ (σ.iterate v).2 := by
  have hfresh : ∀ (τ : Store) {it : Iterator}, it.Gentle → it.pulled = 0 ∧ it.closed = false →
      PollsOnly which τ (τ.newIterator it).2 :=
    fun τ _ hit fresh h => ⟨h.newIterator hit, newIterator_reaches τ fresh⟩
  have hvalues : ∀ (kind : IteratorKind) (vs : List Value),
      Iterator.Gentle ⟨kind, some (.ofValues vs), none, 0, false⟩ :=
    fun _ vs source live => Option.some.inj live ▸ Source.gentle_ofValues vs
  simp only [iterate]
  split
  · exact .refl σ
  · rename_i a
    -- opening an array is recorded before its iterator is made
    have hopened : PollsOnly which σ (σ.record (.opened (.array a))) := fun h =>
      ⟨h.of_eq rfl rfl rfl,
        (Change.remark σ (.opened (.array a)) trivial fun _ => False.elim).reaches⟩
    exact hopened.trans (hfresh _ (hvalues _ _) ⟨rfl, rfl⟩)
  · exact hfresh σ (hvalues _ _) ⟨rfl, rfl⟩
  · split
    · exact runFactory_polls σ _ _
    · exact .refl σ
  · exact .refl σ

/-! ## What polls leave alone -/

/-- An iterator that is not among those that are polled stays as it is. -/
theorem Reaches.iterator_eq_of_polls {τ : Store} (h : σ.Reaches (Event.Polls which) τ) {i : Nat}
    (hnot : ¬ which i) (hi : i < σ.iterators.size) : τ.iterators[i]? = σ.iterators[i]? :=
  h.iterator_eq (fun _ he htouches => hnot (he i htouches).1) hi

/-- An iterator that was made meanwhile and is not polled is as it was made. -/
theorem Reaches.fresh_of_polls {τ : Store} (h : σ.Reaches (Event.Polls which) τ) {i : Nat}
    (hnot : ¬ which i) (hi : σ.iterators.size ≤ i) {it : Iterator}
    (here : τ.iterators[i]? = some it) : it.pulled = 0 ∧ it.closed = false := by
  induction h with
  | refl => rw [Array.getElem?_eq_none hi] at here; cases here
  | @tail τ υ run last ih =>
      cases last with
      | iterator made fresh =>
          simp only [newIterator, Array.getElem?_push] at here
          split at here
          · exact Option.some.inj here ▸ fresh
          · exact ih here
      | poll j polled output rest there live allowed =>
          have hij : j ≠ i := fun hij => hnot (allowed i hij).1
          exact ih ((getElem?_setIterator_of_ne hij _).symm.trans here)
      | close j closed there isOpen allowed =>
          -- a close is no poll
          obtain ⟨-, turn, output, hpolled⟩ := allowed j rfl
          cases hpolled
      | _ => exact ih here

/-- Polling closes nothing, and what is made meanwhile is open. -/
theorem Reaches.closed_of_polls {τ : Store} (h : σ.Reaches (Event.Polls which) τ) (i : Nat) :
    τ.iterators[i]?.any (·.closed) = σ.iterators[i]?.any (·.closed) := by
  induction h with
  | refl => rfl
  | @tail τ υ run last ih =>
      rw [← ih]
      cases last with
      | iterator made fresh =>
          simp only [newIterator, Array.getElem?_push]
          split
          · rename_i hi
            rw [hi, Array.getElem?_eq_none (Nat.le_refl _)]
            exact fresh.2
          · rfl
      | poll j polled output rest there live allowed =>
          by_cases hij : j = i
          · subst hij
            have hj : j < τ.iterators.size := (Array.getElem?_eq_some_iff.1 there).1
            rw [getElem?_iterators_polled hj, there]
            cases output <;> rfl
          · exact congrArg _ (getElem?_setIterator_of_ne hij _)
      | close j closed there isOpen allowed =>
          -- a close is no poll
          obtain ⟨-, turn, output, hpolled⟩ := allowed j rfl
          cases hpolled
      | _ => rfl

end Store

end StructuralMatch
