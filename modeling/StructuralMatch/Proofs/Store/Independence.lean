import StructuralMatch.Proofs.Store.Supply

/-! # Independent sources

    An iterator feeds a list of values if it gives them, one with each advance, and
    uses nothing but its own cells for it.  `Supplies` says the first half; here the
    second is added (`Feeds`): whatever happens to other cells makes no difference to
    the iterator, and it makes no difference to whatever uses other cells.

    So iterators with cells of their own can be advanced in any order
    (`Feeds.after_next`).  An iterator whose source lists values feeds them
    (`feeds_of_lists`).

    Factories count their runs and do not change otherwise (`SameFactories`). -/

namespace StructuralMatch

namespace Event

/-- Whether the event can come from the use of these iterators: something happened to one
    of them, or a message was left. -/
def Within (cells : Nat → Prop) : Event → Prop
  | .polled i _ _ | .closed i => cells i
  | .note _ => True
  | _ => False

/-- What uses some iterators spares all others. -/
theorem Within.spares {cells others : Nat → Prop} (h : ∀ c, cells c → ¬others c) {e : Event}
    (he : e.Within cells) : e.Spares others := by
  rintro j hj htouches
  cases e with
  | polled i turn output => exact h i he (htouches ▸ hj)
  | closed i => exact h i he (htouches ▸ hj)
  | _ => exact htouches

/-- No factory is started by the use of iterators. -/
theorem Within.not_opened {cells : Nat → Prop} (r : Ref) : ¬Within cells (.opened r) := id

end Event

namespace Store

variable {P : Event → Prop} {σ τ υ : Store} {cells : Nat → Prop} {i : Nat} {xs : List Value}

/-! ## Factories -/

/-- The factories of the one store are there in the other, and their runs do the same. -/
def SameFactories (σ τ : Store) : Prop := ∀ (f : Nat) (factory : Factory),
  σ.factories[f]? = some factory →
    ∃ factory' : Factory, τ.factories[f]? = some factory' ∧ factory'.body = factory.body

theorem SameFactories.refl (σ : Store) : σ.SameFactories σ := fun _ factory h => ⟨factory, h, rfl⟩

theorem SameFactories.of_eq (h : τ.factories = σ.factories) : σ.SameFactories τ :=
  fun _ factory hf => ⟨factory, h ▸ hf, rfl⟩

theorem SameFactories.trans (h₁ : σ.SameFactories τ) (h₂ : τ.SameFactories υ) :
    σ.SameFactories υ := by
  intro f factory hf
  obtain ⟨factory', hf', hbody⟩ := h₁ f factory hf
  obtain ⟨factory'', hf'', hbody'⟩ := h₂ f factory' hf'
  exact ⟨factory'', hf'', hbody'.trans hbody⟩

/-- Where no factory starts, they stay. -/
theorem Change.sameFactories (h : Change P σ τ) (hP : ∀ r, ¬P (.opened r)) :
    σ.SameFactories τ := by
  cases h with
  | factory f => exact fun _ factory hf => ⟨factory, getElem?_push_of_some hf, rfl⟩
  | startFactory cell f iterable allowed => exact absurd allowed (hP iterable)
  | _ => exact .of_eq rfl

theorem Reaches.sameFactories (h : σ.Reaches P τ) (hP : ∀ r, ¬P (.opened r)) :
    σ.SameFactories τ := by
  induction h with
  | refl => exact .refl σ
  | tail _ last ih => exact ih.trans (last.sameFactories hP)

/-- Starting a factory counts the run. -/
theorem sameFactories_startFactory {f : Nat} {factory : Factory}
    (here : σ.factories[f]? = some factory) (iterable : Ref) :
    σ.SameFactories (σ.startFactory f factory iterable) := by
  intro g other hg
  have hf : f < σ.factories.size := (Array.getElem?_eq_some_iff.1 here).1
  by_cases hfg : f = g
  · subst hfg
    rw [here, Option.some.injEq] at hg
    exact ⟨{ factory with runs := factory.runs + 1 }, by simp [startFactory, hf], by rw [← hg]⟩
  · exact ⟨other, by simpa [startFactory, hfg] using hg, rfl⟩

/-- A run of a factory leaves the factories as they are. -/
theorem sameFactories_runFactory (σ : Store) (iterable : Ref) (f : Nat) :
    σ.SameFactories (σ.runFactory iterable f).2 := by
  rw [runFactory]
  split
  · exact .refl σ
  · rename_i factory here
    have hstart := sameFactories_startFactory here iterable
    generalize σ.startFactory f factory iterable = τ at hstart ⊢
    -- the script starts no factory, and what follows is building
    have hscript := runScript_reaches (factory.body factory.runs) τ
    generalize τ.runScript (factory.body factory.runs) = ran at hscript ⊢
    obtain ⟨handed, υ⟩ := ran
    have hsupply := supply_reaches (P := fun _ => False) υ handed
    exact (hstart.trans (hscript.sameFactories fun _ => id)).trans
      (hsupply.sameFactories fun _ => id)

/-- Making an iterator over a value leaves the factories as they are. -/
theorem sameFactories_iterate (σ : Store) (v : Value) : σ.SameFactories (σ.iterate v).2 := by
  simp only [iterate]
  split
  · exact .refl σ
  · exact .of_eq rfl
  · exact .of_eq rfl
  · split
    · exact sameFactories_runFactory σ _ _
    · exact .refl σ
  · exact .refl σ

/-! ## Feeding -/

/-- As long as these cells are spared, the iterator gives these values, one with each
    advance, and is done then; and it uses these cells only. -/
def Feeds (cells : Nat → Prop) (i : Nat) : List Value → Store → Prop
  | [], σ => ∀ τ, σ.Reaches (Event.Spares cells) τ →
      (τ.next i).1 = .done ∧ τ.Reaches (Event.Within cells) (τ.next i).2
  | x :: xs, σ => ∀ τ, σ.Reaches (Event.Spares cells) τ →
      (τ.next i).1 = .yielded x ∧ τ.Reaches (Event.Within cells) (τ.next i).2 ∧
        Feeds cells i xs (τ.next i).2

/-- What spares the cells changes nothing. -/
theorem Feeds.after (h : Feeds cells i xs σ) (hτ : σ.Reaches (Event.Spares cells) τ) :
    Feeds cells i xs τ := by
  cases xs with
  | nil => exact fun υ hυ => h υ (hτ.trans hυ)
  | cons x xs => exact fun υ hυ => h υ (hτ.trans hυ)

/-- A spent iterator feeds nothing more, whatever happens. -/
theorem feeds_of_spent (cells : Nat → Prop) (h : σ.Spent i) : Feeds cells i [] σ := by
  intro τ hτ
  obtain ⟨hdone, hsame⟩ := (next_advance τ i).eq_of_spent (hτ.keeps.spent h)
  exact ⟨hdone, hsame.symm ▸ .refl τ⟩

/-- An advance gives the next value, if there is one, and the others are left. -/
theorem Feeds.next (h : Feeds cells i xs σ) (hi : i < σ.iterators.size) :
    (σ.next i).1 = .ofOption xs.head? ∧ σ.Reaches (Event.Within cells) (σ.next i).2 ∧
      Feeds cells i xs.tail (σ.next i).2 := by
  cases xs with
  | nil =>
      obtain ⟨hdone, hwithin⟩ := h σ (.refl σ)
      exact ⟨hdone, hwithin, feeds_of_spent cells ((next_advance σ i).spent_of_done hi hdone)⟩
  | cons x xs => exact h σ (.refl σ)

/-- An iterator with cells of its own is advanced past another one. -/
theorem Feeds.after_next {others : Nat → Prop} {j : Nat} {ys : List Value}
    (h : Feeds cells i xs σ) (hother : Feeds others j ys σ) (hj : j < σ.iterators.size)
    (hapart : ∀ c, others c → ¬cells c) : Feeds cells i xs (σ.next j).2 :=
  h.after ((hother.next hj).2.1.mono fun _ => Event.Within.spares hapart)

/-- An iterator whose source lists values that are there feeds these values from its own
    cell. -/
theorem feeds_of_lists (xs : List Value) : ∀ {σ : Store} {it : Iterator} {source : Source},
    σ.iterators[i]? = some it → it.source = some source → source.Lists xs →
      (∀ x ∈ xs, σ.holds x = true) → Feeds (· = i) i xs σ := by
  induction xs with
  | nil =>
      intro σ it source here hsource hlists held τ hτ
      have hi : i < σ.iterators.size := (Array.getElem?_eq_some_iff.1 here).1
      have hthere := (hτ.iterator_eq (fun _ he => he i rfl) hi).trans here
      obtain ⟨rest, trace, hreaches, hnext, -⟩ := next_of_lists (P := Event.Within (· = i)) hthere
        hsource hlists (fun x hx => hτ.keeps.holds (held x hx)) fun _ => trivial
      rw [hnext]
      exact ⟨rfl, .tail hreaches (.poll _ i it _ rest hthere (by simp [hsource]) rfl)⟩
  | cons x xs ih =>
      intro σ it source here hsource hlists held τ hτ
      have hi : i < σ.iterators.size := (Array.getElem?_eq_some_iff.1 here).1
      have hthere := (hτ.iterator_eq (fun _ he => he i rfl) hi).trans here
      have hi' : i < τ.iterators.size := (Array.getElem?_eq_some_iff.1 hthere).1
      have hheld : ∀ y ∈ x :: xs, τ.holds y = true := fun y hy => hτ.keeps.holds (held y hy)
      obtain ⟨rest, trace, hreaches, hnext, hrest⟩ :=
        next_of_lists (P := Event.Within (· = i)) hthere hsource hlists hheld fun _ => trivial
      have hkeeps := (next_reaches τ i).keeps
      rw [hnext] at hkeeps ⊢
      refine ⟨rfl, .tail hreaches (.poll _ i it _ rest hthere (by simp [hsource]) rfl),
        ih (getElem?_iterators_polled hi' _ (.polled i it.pulled (some x))) rfl
          (hrest (List.cons_ne_nil x xs)) ?_⟩
      exact fun y hy => hkeeps.holds (hheld y (List.mem_cons_of_mem _ hy))

end Store

end StructuralMatch
