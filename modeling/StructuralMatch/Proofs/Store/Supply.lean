import StructuralMatch.Proofs.Store.Polling

/-! # What an iterator has still to give

    The values that an iterator has still to give depend on what happens to the cells
    that it uses, its own and those of the iterators behind it.  `Supplies` says that
    they are a certain list as long as these cells are spared.

    An iterator with a list of values for its source uses its own cell alone
    (`supplies_ofValues`). -/

namespace StructuralMatch

/-- Whether an event is about none of these iterators. -/
def Event.Spares (cells : Nat → Prop) (e : Event) : Prop := ∀ j, cells j → ¬ e.Touches j

/-! ## Sources that list values -/

/-- A script that gives this, and does nothing on its way but leave messages. -/
inductive Script.Gives {α : Type} : Script α → α → Prop where
  | give (a : α) : Gives (.give a) a
  | note {script : Script α} {a : α} (message : String) (gives : Gives script a) :
      Gives (.note message script) a

/-- A source that has these values to give, and does nothing else. -/
inductive Source.Lists : Source → List Value → Prop where
  | nil : Lists (.items []) []
  | cons {script : Script (Option Value)} {x : Value} {outputs : List (Script (Option Value))}
      {xs : List Value} (gives : script.Gives (some x)) (rest : Lists (.items outputs) xs) :
      Lists (.items (script :: outputs)) (x :: xs)
  /-- Whatever comes behind a report of exhaustion is never asked for. -/
  | ended {script : Script (Option Value)} {outputs : List (Script (Option Value))}
      (gives : script.Gives none) : Lists (.items (script :: outputs)) []
  | past {next stop : Int} (after : ¬ next < stop) : Lists (.range next stop) []
  | count {next stop : Int} {xs : List Value} (before : next < stop)
      (rest : Lists (.range (next + 1) stop) xs) :
      Lists (.range next stop) (.number (.ofInt next) :: xs)

/-- A list of values has these values to give. -/
theorem Source.lists_ofValues : ∀ xs : List Value, (Source.ofValues xs).Lists xs
  | [] => .nil
  | x :: xs => .cons (.give (some x)) (Source.lists_ofValues xs)

section Scripts

variable {α : Type} (advance : Nat → Store → Step × Store) (close : Nat → Store → Bool × Store)

/-- Such a script changes nothing but the trace. -/
theorem Script.Gives.run {script : Script α} {a : α} (h : script.Gives a) (σ : Store) :
    ∃ trace, script.run advance close σ = (a, { σ with trace }) := by
  induction h generalizing σ with
  | give a => exact ⟨σ.trace, rfl⟩
  | note message gives ih => exact ih (σ.record (.note message))

/-- Such a script leaves nothing but messages. -/
theorem Script.Gives.run_reaches {P : Event → Prop} (hnote : ∀ message, P (.note message))
    {script : Script α} {a : α} (h : script.Gives a) (σ : Store) :
    σ.Reaches P (script.run advance close σ).2 := by
  induction h generalizing σ with
  | give a => exact .refl σ
  | note message gives ih =>
      exact (Store.Change.remark σ (.note message) trivial (hnote message)).reaches.trans (ih _)

/-- Such a source gives the first of its values, if it has any. -/
theorem Source.Lists.poll {source : Source} {xs : List Value} (h : source.Lists xs) (σ : Store) :
    ∃ rest trace, source.poll advance close σ = (xs.head?, rest, { σ with trace }) ∧
      (xs ≠ [] → rest.Lists xs.tail) := by
  cases h with
  | nil => exact ⟨_, σ.trace, rfl, fun h => absurd rfl h⟩
  | @cons script x outputs xs gives rest =>
      obtain ⟨trace, hrun⟩ := gives.run advance close σ
      refine ⟨.items outputs, trace, ?_, fun _ => rest⟩
      rw [Source.poll, hrun]
      rfl
  | @ended script outputs gives =>
      obtain ⟨trace, hrun⟩ := gives.run advance close σ
      refine ⟨.items outputs, trace, ?_, fun h => absurd rfl h⟩
      rw [Source.poll, hrun]
      rfl
  | @past next stop after =>
      refine ⟨.range next stop, σ.trace, ?_, fun h => absurd rfl h⟩
      rw [Source.poll, if_neg after]
      rfl
  | @count next stop xs before rest =>
      refine ⟨.range (next + 1) stop, σ.trace, ?_, fun _ => rest⟩
      rw [Source.poll, if_pos before]
      rfl

/-- Such a source leaves nothing but messages. -/
theorem Source.Lists.poll_reaches {P : Event → Prop} (hnote : ∀ message, P (.note message))
    {source : Source} {xs : List Value} (h : source.Lists xs) (σ : Store) :
    σ.Reaches P (source.poll advance close σ).2.2 := by
  cases h with
  | nil => exact .refl σ
  | cons gives rest => exact gives.run_reaches advance close hnote σ
  | ended gives => exact gives.run_reaches advance close hnote σ
  | past after =>
      rw [Source.poll, if_neg after]
      exact .refl σ
  | count before rest =>
      rw [Source.poll, if_pos before]
      exact .refl σ

end Scripts

namespace Store

variable {P Q : Event → Prop} {σ τ : Store} {cells : Nat → Prop} {i : Nat}

/-! ## Runs by their events -/

/-- A change meets any condition that the events meet which it adds. -/
theorem Change.of_events (h : Change P σ τ)
    (hQ : ∀ new, τ.events = σ.events ++ new → ∀ e ∈ new, Q e) : Change Q σ τ := by
  have hadded : ∀ e, τ.events = σ.events ++ [e] → Q e :=
    fun e he => hQ [e] he e (List.mem_singleton_self e)
  cases h with
  | array items => exact .array σ items
  | object o => exact .object σ o
  | function f => exact .function σ f
  | iterator it fresh => exact .iterator σ it fresh
  | getter g => exact .getter σ g
  | factory f => exact .factory σ f
  | startGetter cell g allowed => exact .startGetter σ cell g (hadded _ (events_record _ _))
  | startFactory cell f iterable allowed =>
      exact .startFactory σ cell f iterable (hadded _ (events_record _ _))
  | poll j it output rest here live allowed =>
      exact .poll σ j it output rest here live (hadded _ (events_record _ _))
  | close j it here isOpen allowed =>
      exact .close σ j it here isOpen (hadded _ (events_record _ _))
  | remark e isRemark allowed => exact .remark σ e isRemark (hadded _ (events_record _ _))

/-- A run meets any condition that the events meet which it adds. -/
theorem Reaches.of_events (h : σ.Reaches P τ) {new : List Event}
    (hnew : τ.events = σ.events ++ new) (hQ : ∀ e ∈ new, Q e) : σ.Reaches Q τ := by
  induction h generalizing new with
  | refl => exact .refl σ
  | @tail τ υ run last ih =>
      obtain ⟨before, hbefore, -⟩ := run.events
      obtain ⟨added, hadded, -⟩ := last.reaches.events
      have hall : new = before ++ added := by
        rw [hbefore, List.append_assoc] at hadded
        exact List.append_cancel_left (hnew.symm.trans hadded)
      refine .tail (ih hbefore fun e he => hQ e (hall ▸ List.mem_append_left _ he)) ?_
      refine last.of_events fun more hmore e he => hQ e ?_
      have hsame : more = added := List.append_cancel_left (hmore.symm.trans hadded)
      exact hall ▸ List.mem_append_right _ (hsame ▸ he)

/-! ## Counting what was yielded -/

/-- How many values an iterator has yielded. -/
def pulledBy (σ : Store) (i : Nat) : Nat := (σ.iterators[i]?.map (·.pulled)).getD 0

/-- Where its cell is spared, an iterator yields nothing. -/
theorem Reaches.pulledBy_eq (h : σ.Reaches (Event.Spares cells) τ) (hi : cells i)
    (here : i < σ.iterators.size) : τ.pulledBy i = σ.pulledBy i := by
  rw [pulledBy, h.iterator_eq (fun _ he => he i hi) here, pulledBy]

/-- Advancing an iterator counts what it yields. -/
theorem pulledBy_next (σ : Store) (i : Nat) :
    (σ.next i).2.pulledBy i = σ.pulledBy i + (σ.next i).1.value?.toList.length := by
  have hadvance := σ.next_advance i
  generalize σ.next i = stepped at hadvance ⊢
  obtain ⟨step, τ⟩ := stepped
  dsimp only at hadvance ⊢
  cases hadvance with
  | missing absent => rfl
  | spent it here dead => rfl
  | @polled it here live τ run output rest held =>
      have hthere := iterator_eq_of_below run here
      have hsize : i < τ.iterators.size := (Array.getElem?_eq_some_iff.1 hthere).1
      rw [pulledBy, getElem?_iterators_polled hsize, pulledBy, here]
      cases output <;> rfl

/-! ## Supplies -/

/-- As long as these cells are spared, the iterator gives these values, one with each
    advance, and is done then. -/
def Supplies (cells : Nat → Prop) (i : Nat) : List Value → Store → Prop
  | [], σ => ∀ τ, σ.Reaches (Event.Spares cells) τ → (τ.next i).1 = .done
  | x :: xs, σ => ∀ τ, σ.Reaches (Event.Spares cells) τ →
      (τ.next i).1 = .yielded x ∧ Supplies cells i xs (τ.next i).2

/-- What spares the cells changes nothing. -/
theorem Supplies.after {xs : List Value} (hxs : Supplies cells i xs σ)
    (h : σ.Reaches (Event.Spares cells) τ) : Supplies cells i xs τ := by
  cases xs with
  | nil => exact fun υ hυ => hxs υ (h.trans hυ)
  | cons x xs => exact fun υ hυ => hxs υ (h.trans hυ)

theorem Supplies.done (h : Supplies cells i [] σ) : (σ.next i).1 = .done := h σ (.refl σ)

theorem Supplies.yielded {x : Value} {xs : List Value} (h : Supplies cells i (x :: xs) σ) :
    (σ.next i).1 = .yielded x ∧ Supplies cells i xs (σ.next i).2 := h σ (.refl σ)

/-- Advancing an iterator whose source lists values that are there gives the first of them,
    if there is one, and leaves messages; the source goes on with the others. -/
theorem next_of_lists {it : Iterator} {source : Source} {xs : List Value}
    (here : σ.iterators[i]? = some it) (hsource : it.source = some source)
    (hlists : source.Lists xs) (held : ∀ x ∈ xs, σ.holds x = true)
    (hnote : ∀ message, P (.note message)) :
    ∃ rest trace, σ.Reaches P { σ with trace } ∧
      σ.next i = (.ofOption xs.head?,
        (({ σ with trace } : Store).setIterator i (it.after xs.head? rest)).record
          (.polled i it.pulled xs.head?)) ∧
      (xs ≠ [] → rest.Lists xs.tail) := by
  let advance (j : Nat) (τ : Store) : Step × Store := if j < i then nextWithin i τ j else (.done, τ)
  have hreaches := hlists.poll_reaches advance (closeBelow i) hnote σ
  obtain ⟨rest, trace, hpoll, hrest⟩ := hlists.poll advance (closeBelow i) σ
  rw [hpoll] at hreaches
  -- the value is there, so it is given as it is
  have hvet : xs.head?.map ({ σ with trace } : Store).vet = xs.head? := by
    cases xs with
    | nil => rfl
    | cons x xs => exact congrArg some (vet_of_holds (held x (List.mem_cons_self ..)))
  refine ⟨rest, trace, hreaches, ?_, hrest⟩
  simp only [next, nextWithin, here, hsource]
  rw [hpoll]
  simp only [hvet]

/-- An iterator whose source lists values gives these values. -/
theorem supplies_of_lists (cells : Nat → Prop) (hi : cells i) (xs : List Value) :
    ∀ {σ : Store} {it : Iterator} {source : Source}, σ.iterators[i]? = some it →
      it.source = some source → source.Lists xs → (∀ x ∈ xs, σ.holds x = true) →
        Supplies cells i xs σ := by
  induction xs with
  | nil =>
      intro σ it source here hsource hlists held τ hτ
      have hsize : i < σ.iterators.size := (Array.getElem?_eq_some_iff.1 here).1
      have hthere := (hτ.iterator_eq (fun _ he => he i hi) hsize).trans here
      obtain ⟨rest, trace, -, hnext, -⟩ := next_of_lists (P := fun _ => True) hthere hsource hlists
        (fun x hx => hτ.keeps.holds (held x hx)) fun _ => trivial
      rw [hnext]
      rfl
  | cons x xs ih =>
      intro σ it source here hsource hlists held τ hτ
      have hsize : i < σ.iterators.size := (Array.getElem?_eq_some_iff.1 here).1
      have hthere := (hτ.iterator_eq (fun _ he => he i hi) hsize).trans here
      have hsize' : i < τ.iterators.size := (Array.getElem?_eq_some_iff.1 hthere).1
      have hheld : ∀ y ∈ x :: xs, τ.holds y = true := fun y hy => hτ.keeps.holds (held y hy)
      obtain ⟨rest, trace, -, hnext, hrest⟩ :=
        next_of_lists (P := fun _ => True) hthere hsource hlists hheld fun _ => trivial
      have hkeeps := (next_reaches τ i).keeps
      rw [hnext] at hkeeps ⊢
      refine ⟨rfl, ih (getElem?_iterators_polled hsize' _ (.polled i it.pulled (some x))) rfl
        (hrest (List.cons_ne_nil x xs)) ?_⟩
      exact fun y hy => hkeeps.holds (hheld y (List.mem_cons_of_mem _ hy))

/-- An iterator with a list of values for its source gives these values. -/
theorem supplies_ofValues (cells : Nat → Prop) (hi : cells i) (xs : List Value) {it : Iterator}
    (here : σ.iterators[i]? = some it) (hsource : it.source = some (.ofValues xs))
    (held : ∀ x ∈ xs, σ.holds x = true) : Supplies cells i xs σ :=
  supplies_of_lists cells hi xs here hsource (Source.lists_ofValues xs) held

end Store

end StructuralMatch
