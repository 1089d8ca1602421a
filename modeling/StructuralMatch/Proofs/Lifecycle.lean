import StructuralMatch.Matcher.Scripted
import StructuralMatch.Proofs.Session
import StructuralMatch.Proofs.Store.Lifecycle

/-! # Iterators in use

    Programs and caches have two means of using an iterator: they advance it and they
    close it, by whatever handle.  So whatever happens to a store uses each iterator in
    some order, and otherwise leaves it alone (`Store.Handles`): a match, a selection, a
    getter, a factory, a script, and a source that takes its values from the iterator.

    All uses of an iterator make one sequence, and its life can be read off that. -/

namespace StructuralMatch

/-! ## Using one iterator -/

namespace Store

/-- From one store to another an iterator was advanced and closed in some order, and otherwise
    left alone. -/
def Handles (i : Nat) (σ τ : Store) : Prop := ∃ uses, σ.Uses i uses τ

variable {σ τ υ : Store}

/-- Uses follow one another. -/
theorem Uses.trans {i : Nat} {uses more : List Use} (h₁ : σ.Uses i uses τ)
    (h₂ : τ.Uses i more υ) : σ.Uses i (uses ++ more) υ := by
  induction h₂ with
  | start => rwa [List.append_nil]
  | next _ ih =>
      rw [← List.append_assoc]
      exact .next ih
  | close _ ih =>
      rw [← List.append_assoc]
      exact .close ih
  | elsewhere _ other ih => exact .elsewhere ih other

/-- An iterator is left alone where no iterator is touched. -/
theorem handles_indifferent (i : Nat) : Indifferent (Handles i) where
  trans := by
    rintro σ τ υ ⟨uses, h⟩ ⟨more, h'⟩
    exact ⟨uses ++ more, h.trans h'⟩
  spares := fun h => ⟨[], .elsewhere .start (h.mono fun _ he j _ => he j)⟩

/-- Closing an iterator is a use of it, or leaves it alone. -/
theorem handles_close (i j : Nat) (σ : Store) : Handles i σ (σ.close j).2 := by
  by_cases hij : j = i
  · subst hij
    exact ⟨_, .close .start⟩
  · refine ⟨[], .elsewhere .start (close_reaches σ j ?_)⟩
    rintro k rfl
    exact hij

/-- Advancing an iterator is a use of it; advancing another one uses it if the source does. -/
theorem handles_next (i j : Nat) : ∀ σ : Store, Handles i σ (σ.next j).2 := by
  -- the source reaches earlier iterators only
  induction j using Nat.strongRecOn with
  | ind j ih =>
      intro σ
      by_cases hij : j = i
      · subst hij
        exact ⟨_, .next .start⟩
      · cases hsource : σ.iterators[j]?.bind (·.source) with
        | none =>
            rw [next_of_idle hsource]
            exact (handles_indifferent i).refl σ
        | some source =>
            obtain ⟨it, here, live⟩ := Option.bind_eq_some_iff.1 hsource
            have hask : Handles i σ (σ.ask j source).2.2 := by
              refine Source.poll_respects (R := Handles i) (handles_indifferent i).trans
                (handles_indifferent i).notes ?_ ?_ source σ
              · intro k τ
                split
                · rename_i hk
                  exact ih k hk τ
                · exact (handles_indifferent i).refl τ
              · intro k τ
                rw [closeBelow]
                split
                · exact handles_close i k τ
                · exact (handles_indifferent i).refl τ
            have hthere := iterator_eq_of_below (ask_reaches σ j source) here
            obtain ⟨uses, huses⟩ := hask
            rw [next_of_source here live]
            refine ⟨uses, huses.elsewhere (Change.poll _ j it _ _ hthere ?_ ?_).reaches⟩
            · rw [live]
              rfl
            · rintro k rfl
              exact hij

/-- Every operation on a store uses an iterator by advancing and closing it. -/
theorem handles_respected (i : Nat) : Respected (Handles i) where
  toIndifferent := handles_indifferent i
  next := fun σ j => handles_next i j σ
  close := fun σ j => handles_close i j σ

end Store

/-- A call on a cache respects what its matchers and every operation on a store respect. -/
theorem Call.perform_respects {R : Store → Store → Prop} (hR : Store.Respected R) (c : Call)
    (hm : ∀ m ∈ c.toPattern.matchers, m.Respects R) (s : State) :
    R s.store (c.perform s).2.store := by
  cases c with
  | pattern p v => exact matchAt_respects hR p none v s hm
  | object o v => exact matchAt_respects hR o.toPattern none v s hm
  | array a i => exact matchElements_respects hR a.elements (.cell i) 0 .empty s hm

/-! ## Texts being spelled

    A cache keeps the iterators over texts to itself.  It uses them as iterators of the
    store are used. -/

namespace Spelling

/-- A text being spelled is used like this, and gives these answers. -/
inductive Answers (t : Spelling) : List Use → Spelling → Prop where
  | start : Answers t [] t
  | next {uses : List Use} {u : Spelling} (before : Answers t uses u) (σ : Store) :
      Answers t (uses ++ [.next σ u.next.1]) u.next.2
  | close {uses : List Use} {u : Spelling} (before : Answers t uses u) :
      Answers t (uses ++ [.close u.close.1]) u.close.2

/-- A text being spelled stands where an iterator over it would stand. -/
structure Mirrors (t : Spelling) (it : Iterator) : Prop where
  source : it.source = some (.ofValues (letters t.left)) ∨ it.source = none ∧ t.left = []
  closed : it.closed = t.closed
  stopped : t.closed = true → t.left = []

end Spelling

namespace Store

variable {σ τ : Store} {i : Nat} {it : Iterator} {t : Spelling}

/-- A text being spelled gives what the iterator would give. -/
theorem next_mirrors (here : τ.iterators[i]? = some it) (h : t.Mirrors it) :
    (τ.next i).1 = t.next.1 ∧
      ∃ it', (τ.next i).2.iterators[i]? = some it' ∧ t.next.2.Mirrors it' := by
  have hi : i < τ.iterators.size := (Array.getElem?_eq_some_iff.1 here).1
  obtain ⟨hlive | ⟨hdead, hleft⟩, hclosed, hstopped⟩ := h
  · rw [next_of_source here hlive, Spelling.next]
    cases hleft : t.left with
    | nil =>
        exact ⟨rfl, _, getElem?_iterators_polled hi _ _, .inr ⟨rfl, hleft⟩, hclosed, hstopped⟩
    | cons c left =>
        refine ⟨rfl, _, getElem?_iterators_polled hi _ _, .inl rfl, hclosed, ?_⟩
        intro hstop
        have hnone := hstopped hstop
        rw [hleft] at hnone
        cases hnone
  · rw [next_of_idle (by rw [here]; exact hdead), Spelling.next, hleft]
    exact ⟨rfl, it, here, .inr ⟨hdead, hleft⟩, hclosed, hstopped⟩

/-- And closing it answers the same. -/
theorem close_mirrors (here : τ.iterators[i]? = some it) (h : t.Mirrors it) :
    (τ.close i).1 = t.close.1 ∧
      ∃ it', (τ.close i).2.iterators[i]? = some it' ∧ t.close.2.Mirrors it' := by
  have hi : i < τ.iterators.size := (Array.getElem?_eq_some_iff.1 here).1
  cases hc : it.closed with
  | true =>
      have hstop : t.closed = true := h.closed ▸ hc
      have hsame : t.close.2 = t := by
        rw [Spelling.close, ← h.stopped hstop, ← hstop]
      rw [close_of_closed here hc, hsame, Spelling.close, hstop]
      exact ⟨rfl, it, here, h⟩
  | false =>
      rw [close_of_open here hc, Spelling.close, ← h.closed, hc]
      exact ⟨rfl, _, getElem?_iterators_polled hi _ _, .inr ⟨rfl, rfl⟩, rfl, fun _ => rfl⟩

/-- A text that is used like an iterator over it gives the same answers. -/
theorem Uses.answers {kind : IteratorKind} {label : Option String} {text : String}
    {uses : List Use} (h : σ.Uses i uses τ)
    (born : σ.iterators[i]? =
      some ⟨kind, some (.ofValues (Spelling.letters text.toList)), label, 0, false⟩) :
    ∃ t it, (Spelling.begin text).Answers uses t ∧ τ.iterators[i]? = some it ∧ t.Mirrors it := by
  induction h with
  | start => exact ⟨_, _, .start, born, .inl rfl, rfl, nofun⟩
  | @next uses τ before ih =>
      obtain ⟨t, it, hanswers, here, hmirrors⟩ := ih
      obtain ⟨hstep, it', here', hmirrors'⟩ := next_mirrors here hmirrors
      rw [hstep]
      exact ⟨_, it', hanswers.next τ, here', hmirrors'⟩
  | @close uses τ before ih =>
      obtain ⟨t, it, hanswers, here, hmirrors⟩ := ih
      obtain ⟨hclosed, it', here', hmirrors'⟩ := close_mirrors here hmirrors
      rw [hclosed]
      exact ⟨_, it', hanswers.close, here', hmirrors'⟩
  | @elsewhere uses τ υ before other ih =>
      obtain ⟨t, it, hanswers, here, hmirrors⟩ := ih
      have hi := (Array.getElem?_eq_some_iff.1 here).1
      exact ⟨t, it, hanswers, (other.getElem?_eq_of_spares hi).trans here, hmirrors⟩

/-! ## The life of a new iterator -/

/-- A new iterator over a source was made, and from then on it was used like this. -/
def Lives (σ : Store) (kind : IteratorKind) (label : Option String) (source : Source)
    (uses : List Use) (τ : Store) : Prop :=
  (σ.newIterator ⟨kind, some source, label, 0, false⟩).2.Uses σ.iterators.size uses τ

variable {kind : IteratorKind} {label : Option String} {source : Source} {uses : List Use}

/-- What uses the iterator is more of its life. -/
theorem Lives.more (h : σ.Lives kind label source uses τ) {υ : Store}
    (hυ : Handles σ.iterators.size τ υ) : ∃ more, σ.Lives kind label source (uses ++ more) υ := by
  obtain ⟨more, hmore⟩ := hυ
  exact ⟨more, h.trans hmore⟩

/-- **An iterator ends once and is closed once**, whatever is done with it, and whatever programs
    and caches go on to do is more of the same life.  Matchers and arms are programs too: they
    have no other means of using an iterator. -/
theorem lives_once (made : empty.Leads σ) (h : σ.Lives kind label source uses τ) :
    Lifecycle σ.iterators.size source uses τ ∧
      -- programs
      (∀ {α : Type} (script : Script α), ∃ more,
        σ.Lives kind label source (uses ++ more) (τ.runScript script).2) ∧
      -- calls on any cache, and closing it
      (∀ s : State, s.store = τ →
        (∀ c : Call,
          (∀ m ∈ c.toPattern.matchers, m.Respects (Handles σ.iterators.size)) →
            ∃ more, σ.Lives kind label source (uses ++ more) (c.perform s).2.store) ∧
        ∃ more, σ.Lives kind label source (uses ++ more) s.close.2.store) ∧
      -- selections, each with a cache of its own
      (∀ {ρ : Type} (arms : List (Arm ρ)) (v : Value),
        (∀ arm ∈ arms, arm.Respects (Handles σ.iterators.size)) →
          ∃ more, σ.Lives kind label source (uses ++ more) (Selection.finish arms v τ).2) ∧
      -- a text that a cache spells to itself gives the same answers
      ∀ text : String, source = .ofValues (Spelling.letters text.toList) →
        ∃ t, (Spelling.begin text).Answers uses t := by
  have hR := handles_respected σ.iterators.size
  have born : (σ.newIterator ⟨kind, some source, label, 0, false⟩).2.iterators[
      σ.iterators.size]? = some ⟨kind, some source, label, 0, false⟩ :=
    Array.getElem?_push_size
  have fresh : σ.polls σ.iterators.size = [] :=
    (made.orderly orderly_empty).unborn _ (Nat.le_refl _)
  have balanced : (σ.newIterator ⟨kind, some source, label, 0, false⟩).2.Balanced :=
    (Change.iterator (P := fun _ => True) σ _ ⟨rfl, rfl⟩).balanced (made.balanced balanced_empty)
  refine ⟨h.lifecycle born fresh balanced, fun script => h.more (hR.runScript script τ), ?_,
    fun arms v harms => h.more (Selection.finish_respects hR harms v τ), ?_⟩
  · rintro s rfl
    exact ⟨fun c hm => h.more (c.perform_respects hR hm s), h.more (State.close_respects hR s)⟩
  · rintro text rfl
    obtain ⟨t, it, hanswers, -⟩ := h.answers born
    exact ⟨t, hanswers⟩

namespace Resuming

/-- A source that reports exhaustion and has more. -/
def outputs : Source :=
  .items [.give (some (.number (.ofInt 1))), .give none, .give (some (.number (.ofInt 2)))]

/-- One number. -/
def look : Call :=
  .array ⟨[some (.custom (.scripted "number" none (.typed "number") .accept .refuse))]⟩ 0

end Resuming

/-- What comes after a report of exhaustion is not asked for, neither by programs nor by caches, and
    an exhausted iterator is closed like any other. -/
theorem lives_once_resuming :
    ∃ uses τ, empty.Lives .generator none Resuming.outputs uses τ ∧
      Lifecycle 0 Resuming.outputs uses τ ∧
      Use.steps uses = [.yielded (.number (.ofInt 1)), .done, .done, .done] ∧
      Use.closes uses = [true, false] ∧ τ.closings 0 = 1 ∧ τ.pulledBy 0 = 1 ∧
      (Resuming.look.perform { store := τ }).1 = .unmatched ∧
      ∃ more, empty.Lives .generator none Resuming.outputs (uses ++ more)
        (Resuming.look.perform { store := τ }).2.store := by
  have h : empty.Lives .generator none Resuming.outputs _ _ :=
    Uses.start.next.next.next.close.next.close
  obtain ⟨hlife, -, hcaches, -⟩ := lives_once (.refl empty) h
  refine ⟨_, _, h, hlife, by decide, by decide, by decide, by decide, by decide, ?_⟩
  refine (hcaches _ rfl).1 Resuming.look ?_
  intro m hm
  rw [List.mem_singleton.1 hm]
  exact Matcher.scripted_respects (handles_respected _) _ _ _ nofun nofun

end Store

end StructuralMatch
