import StructuralMatch.Store.Property

/-! # The course of a store

    Whatever a program does with values, it does to the store in small changes:
    a cell is made, a getter starts, a source is polled, an iterator is closed,
    something is remarked.  `Change` lists them, each with the event that it
    records, and `Reaches` is a run of them.  What holds of every change therefore
    holds of every getter, factory, source, matcher and match.  The last section
    says that every operation on stores is such a run: it makes cells, leaves remarks,
    and advances and closes iterators, and respects what all these respect
    (`Respected`).  Looking at properties takes no more than getters and new objects
    (`Inspected`).

    Both carry a condition on events.  It says what a run leaves alone: a source
    reaches only iterators made before its own, so the cell of its own iterator
    is still the same when its output arrives (`Reaches.iterator_eq`). -/

namespace StructuralMatch

namespace Event

/-- Whether the event is that something happened to the iterator of a cell. -/
def Touches (cell : Nat) : Event → Prop
  | .polled i _ _ | .closed i => i = cell
  | _ => False

/-- Whether the event is a mere remark, which nothing has to go with. -/
def IsRemark : Event → Prop
  | .opened _ | .called _ | .consulted _ | .note _ => True
  | _ => False

/-- Whether the event is that somebody left a message. -/
def IsNote : Event → Prop
  | .note _ => True
  | _ => False

/-- Whether the event can come from a script: something happened to an iterator
    that was there before `limit`, or a message was left. -/
def Below (limit : Nat) : Event → Prop
  | .polled i _ _ | .closed i => i < limit
  | .note _ => True
  | _ => False

/-- Whether the event can come from a script that may use all iterators. -/
def OfScript : Event → Prop
  | .polled _ _ _ | .closed _ | .note _ => True
  | _ => False

/-- Such an event is a message. -/
theorem IsNote.eq_note {e : Event} (h : e.IsNote) : ∃ message, e = .note message := by
  cases e with
  | note message => exact ⟨message, rfl⟩
  | _ => exact h.elim

/-- What comes from a script with few iterators comes from a script. -/
theorem Below.ofScript {limit : Nat} {e : Event} (h : e.Below limit) : e.OfScript := by
  cases e <;> trivial

/-- A larger limit allows more. -/
theorem Below.mono {m n : Nat} (h : m ≤ n) {e : Event} (he : e.Below m) : e.Below n := by
  cases e with
  | polled i turn output => exact Nat.lt_of_lt_of_le he h
  | closed i => exact Nat.lt_of_lt_of_le he h
  | note message => trivial
  | _ => exact he.elim

/-- An iterator at the limit is out of reach. -/
theorem Below.not_touches {cell : Nat} {e : Event} (h : e.Below cell) : ¬ e.Touches cell := by
  cases e with
  | polled i turn output => exact Nat.ne_of_lt h
  | closed i => exact Nat.ne_of_lt h
  | _ => exact id

end Event

namespace Store

/-! ## Changes and runs of them -/

/-- One change of a store; an event that it records has to meet the condition. -/
inductive Change (P : Event → Prop) : Store → Store → Prop where
  | array (σ : Store) (items : List Value) : Change P σ (σ.newArray items).2
  | object (σ : Store) (o : Object) : Change P σ (σ.newObject o).2
  | function (σ : Store) (f : Function) : Change P σ (σ.newFunction f).2
  | iterator (σ : Store) (it : Iterator) (fresh : it.pulled = 0 ∧ it.closed = false) :
      Change P σ (σ.newIterator it).2
  | getter (σ : Store) (g : Getter) : Change P σ (σ.newGetter g).2
  | factory (σ : Store) (f : Factory) : Change P σ (σ.newFactory f).2
  /-- A getter starts to run. -/
  | startGetter (σ : Store) (cell : Nat) (g : Getter) (allowed : P (.ran cell)) :
      Change P σ (σ.startGetter cell g)
  /-- A factory starts to run. -/
  | startFactory (σ : Store) (cell : Nat) (f : Factory) (iterable : Ref)
      (allowed : P (.opened iterable)) : Change P σ (σ.startFactory cell f iterable)
  /-- A source is polled. -/
  | poll (σ : Store) (i : Nat) (it : Iterator) (output : Option Value) (rest : Source)
      (here : σ.iterators[i]? = some it) (live : it.source.isSome)
      (allowed : P (.polled i it.pulled output)) :
      Change P σ ((σ.setIterator i (it.after output rest)).record (.polled i it.pulled output))
  /-- An open iterator is closed. -/
  | close (σ : Store) (i : Nat) (it : Iterator) (here : σ.iterators[i]? = some it)
      (isOpen : it.closed = false) (allowed : P (.closed i)) :
      Change P σ ((σ.setIterator i { it with source := none, closed := true }).record (.closed i))
  | remark (σ : Store) (e : Event) (isRemark : e.IsRemark) (allowed : P e) :
      Change P σ (σ.record e)

/-- A run of changes whose events meet the condition. -/
inductive Reaches (P : Event → Prop) : Store → Store → Prop where
  | refl (σ : Store) : Reaches P σ σ
  | tail {σ τ υ : Store} (run : Reaches P σ τ) (last : Change P τ υ) : Reaches P σ υ

/-- A run of changes. -/
abbrev Leads (σ τ : Store) : Prop := Reaches (fun _ => True) σ τ

variable {P Q : Event → Prop} {σ τ υ : Store}

/-- A single change is a run. -/
theorem Change.reaches (h : Change P σ τ) : Reaches P σ τ := .tail (.refl σ) h

/-- Runs follow one another. -/
theorem Reaches.trans (h₁ : Reaches P σ τ) (h₂ : Reaches P τ υ) : Reaches P σ υ := by
  induction h₂ with
  | refl => exact h₁
  | tail _ last ih => exact .tail ih last

/-- A weaker condition allows the change as well. -/
theorem Change.mono (hPQ : ∀ e, P e → Q e) (h : Change P σ τ) : Change Q σ τ := by
  cases h with
  | array items => exact .array σ items
  | object o => exact .object σ o
  | function f => exact .function σ f
  | iterator it fresh => exact .iterator σ it fresh
  | getter g => exact .getter σ g
  | factory f => exact .factory σ f
  | startGetter cell g allowed => exact .startGetter σ cell g (hPQ _ allowed)
  | startFactory cell f iterable allowed =>
      exact .startFactory σ cell f iterable (hPQ _ allowed)
  | poll i it output rest here live allowed =>
      exact .poll σ i it output rest here live (hPQ _ allowed)
  | close i it here isOpen allowed => exact .close σ i it here isOpen (hPQ _ allowed)
  | remark e isRemark allowed => exact .remark σ e isRemark (hPQ _ allowed)

/-- A weaker condition allows the run as well. -/
theorem Reaches.mono (hPQ : ∀ e, P e → Q e) (h : Reaches P σ τ) : Reaches Q σ τ := by
  induction h with
  | refl => exact .refl σ
  | tail _ last ih => exact .tail ih (last.mono hPQ)

/-- Every run is a run without a condition. -/
theorem Reaches.leads (h : Reaches P σ τ) : σ.Leads τ := h.mono fun _ _ => trivial

/-! ## What a run leaves alone -/

/-- Replacing an iterator leaves every other one as it is. -/
theorem getElem?_setIterator_of_ne {i j : Nat} (hij : i ≠ j) (it : Iterator) :
    (σ.setIterator i it).iterators[j]? = σ.iterators[j]? := by
  simp [setIterator, hij]

/-- An iterator that is there stays the same while no event is about it. -/
theorem Change.iterator_eq {i : Nat} (hP : ∀ e, P e → ¬ e.Touches i) (h : Change P σ τ)
    (hi : i < σ.iterators.size) : τ.iterators[i]? = σ.iterators[i]? := by
  cases h with
  | iterator it fresh => simp [newIterator, Array.getElem?_push, Nat.ne_of_lt hi]
  | poll j it output rest here live allowed =>
      exact getElem?_setIterator_of_ne (hP _ allowed) _
  | close j it here isOpen allowed => exact getElem?_setIterator_of_ne (hP _ allowed) _
  | _ => rfl

/-- No change takes an iterator away. -/
theorem Change.iterators_size (h : Change P σ τ) : σ.iterators.size ≤ τ.iterators.size := by
  cases h with
  | iterator it fresh => simp [newIterator]
  | poll j it output rest here live allowed => simp [setIterator]
  | close j it here isOpen allowed => simp [setIterator]
  | _ => exact Nat.le_refl _

/-- No run takes an iterator away. -/
theorem Reaches.iterators_size (h : Reaches P σ τ) : σ.iterators.size ≤ τ.iterators.size := by
  induction h with
  | refl => exact Nat.le_refl _
  | tail _ last ih => exact Nat.le_trans ih last.iterators_size

/-- An iterator that is there stays the same while no event is about it. -/
theorem Reaches.iterator_eq {i : Nat} (hP : ∀ e, P e → ¬ e.Touches i) (h : Reaches P σ τ)
    (hi : i < σ.iterators.size) : τ.iterators[i]? = σ.iterators[i]? := by
  induction h with
  | refl => rfl
  | tail run last ih =>
      exact (last.iterator_eq hP (Nat.lt_of_lt_of_le hi run.iterators_size)).trans ih

/-! ## Operations are runs of changes -/

/-- Making an iterator that nobody has used. -/
theorem newIterator_reaches (σ : Store) {it : Iterator}
    (fresh : it.pulled = 0 ∧ it.closed = false) : Reaches P σ (σ.newIterator it).2 :=
  (Change.iterator σ it fresh).reaches

/-- Making the factory of a plan. -/
theorem newFactory?_reaches (σ : Store) (plan : Option IteratorPlan) :
    Reaches P σ (σ.newFactory? plan).2 := by
  cases plan with
  | none => exact .refl σ
  | some plan => exact (Change.factory σ _).reaches

end Store

mutual

/-- Building makes cells and does nothing else. -/
theorem Blueprint.build_reaches {P : Event → Prop} :
    ∀ (b : Blueprint) (σ : Store), σ.Reaches P (b.build σ).2
  | .existing _, σ => .refl σ
  | .array items, σ => .tail (Blueprint.buildAll_reaches items σ) (.array _ _)
  | .object shape, σ => .tail (shape.build_reaches σ) (.object _ _)
  | .function _ shape body _, σ =>
      .tail ((shape.build_reaches σ).trans (body.build_reaches _)) (.function _ _)
  | .iterator plan, σ => plan.build_reaches σ

theorem Shape.build_reaches {P : Event → Prop} :
    ∀ (shape : Shape) (σ : Store), σ.Reaches P (shape.build σ).2
  | .mk _ proto properties factory, σ =>
      ((Blueprint.buildOption_reaches proto σ).trans
        (PropertyPlan.buildAll_reaches properties _)).trans
        (Store.newFactory?_reaches _ factory)

theorem PropertyPlan.build_reaches {P : Event → Prop} :
    ∀ (p : PropertyPlan) (σ : Store), σ.Reaches P (p.build σ).2
  | .field b, σ => b.build_reaches σ
  | .hidden b, σ => b.build_reaches σ
  | .getter _ body, σ => .tail (body.build_reaches σ) (.getter _ _)

theorem GetterPlan.build_reaches {P : Event → Prop} :
    ∀ (p : GetterPlan) (σ : Store), σ.Reaches P (p.build σ).2
  | .values bs, σ => Blueprint.buildAll_reaches bs σ
  | .fresh _, σ => .refl σ
  | .advance b, σ => by
      have h : σ.Reaches P (b.build σ).2 := b.build_reaches σ
      rw [GetterPlan.build]
      generalize b.build σ = built at h ⊢
      obtain ⟨v, τ⟩ := built
      dsimp only at h ⊢
      split
      · exact h
      · exact h

theorem BodyPlan.build_reaches {P : Event → Prop} :
    ∀ (p : BodyPlan) (σ : Store), σ.Reaches P (p.build σ).2
  | .sum, σ => .refl σ
  | .arguments, σ => .refl σ
  | .constant b, σ => b.build_reaches σ

theorem IteratorPlan.build_reaches {P : Event → Prop} :
    ∀ (p : IteratorPlan) (σ : Store), σ.Reaches P (p.build σ).2
  | .mk _ source _, σ => .tail (source.build_reaches σ) (.iterator _ _ ⟨rfl, rfl⟩)

theorem SourcePlan.build_reaches {P : Event → Prop} :
    ∀ (p : SourcePlan) (σ : Store), σ.Reaches P (p.build σ).2
  | .items bs, σ => Blueprint.buildOptions_reaches bs σ
  | .range _ _, σ => .refl σ
  | .elements b, σ => by
      have h : σ.Reaches P (b.build σ).2 := b.build_reaches σ
      rw [SourcePlan.build]
      generalize b.build σ = built at h ⊢
      obtain ⟨v, τ⟩ := built
      dsimp only at h ⊢
      split
      · exact h
      · exact .tail h (.iterator _ _ ⟨rfl, rfl⟩)
      · exact h

theorem Blueprint.buildAll_reaches {P : Event → Prop} :
    ∀ (bs : List Blueprint) (σ : Store), σ.Reaches P (Blueprint.buildAll bs σ).2
  | [], σ => .refl σ
  | b :: bs, σ => (b.build_reaches σ).trans (Blueprint.buildAll_reaches bs _)

theorem Blueprint.buildOption_reaches {P : Event → Prop} :
    ∀ (b : Option Blueprint) (σ : Store), σ.Reaches P (Blueprint.buildOption b σ).2
  | none, σ => .refl σ
  | some b, σ => b.build_reaches σ

theorem Blueprint.buildOptions_reaches {P : Event → Prop} :
    ∀ (bs : List (Option Blueprint)) (σ : Store), σ.Reaches P (Blueprint.buildOptions bs σ).2
  | [], σ => .refl σ
  | b :: bs, σ => (Blueprint.buildOption_reaches b σ).trans (Blueprint.buildOptions_reaches bs _)

theorem PropertyPlan.buildAll_reaches {P : Event → Prop} :
    ∀ (ps : List (Key × PropertyPlan)) (σ : Store),
      σ.Reaches P (PropertyPlan.buildAll ps σ).2
  | [], σ => .refl σ
  | (_, p) :: ps, σ => (p.build_reaches σ).trans (PropertyPlan.buildAll_reaches ps _)

end

section Scripts

open Store

variable {R : Store → Store → Prop} {advance : Nat → Store → Step × Store}
  {close : Nat → Store → Bool × Store}

/-- A script makes values, leaves messages, and does what its advances and closes do. -/
theorem Script.run_respects {α : Type} (trans : ∀ {σ τ υ : Store}, R σ τ → R τ υ → R σ υ)
    (notes : ∀ {σ τ : Store}, σ.Reaches Event.IsNote τ → R σ τ)
    (hadvance : ∀ (i : Nat) (σ : Store), R σ (advance i σ).2)
    (hclose : ∀ (i : Nat) (σ : Store), R σ (close i σ).2) :
    ∀ (script : Script α) (σ : Store), R σ (script.run advance close σ).2
  | .give _, σ => notes (.refl σ)
  | .make b next, σ =>
      trans (notes (b.build_reaches σ))
        (Script.run_respects trans notes hadvance hclose (next _) _)
  | .advance i next, σ =>
      trans (hadvance i σ) (Script.run_respects trans notes hadvance hclose (next _) _)
  | .close i next, σ =>
      trans (hclose i σ) (Script.run_respects trans notes hadvance hclose (next _) _)
  | .note message next, σ =>
      trans (notes (Change.remark σ (.note message) trivial trivial).reaches)
        (Script.run_respects trans notes hadvance hclose next _)

/-- And so does a source. -/
theorem Source.poll_respects (trans : ∀ {σ τ υ : Store}, R σ τ → R τ υ → R σ υ)
    (notes : ∀ {σ τ : Store}, σ.Reaches Event.IsNote τ → R σ τ)
    (hadvance : ∀ (i : Nat) (σ : Store), R σ (advance i σ).2)
    (hclose : ∀ (i : Nat) (σ : Store), R σ (close i σ).2) (source : Source) (σ : Store) :
    R σ (source.poll advance close σ).2.2 := by
  simp only [Source.poll]
  split
  · exact notes (.refl _)
  · exact Script.run_respects (R := R) trans notes hadvance hclose _ _
  · split
    · exact notes (.refl _)
    · exact notes (.refl _)
  · exact hadvance _ _

variable {P : Event → Prop}

/-- A run that leaves messages only meets every condition that messages meet. -/
theorem Store.Reaches.of_notes (hnote : ∀ message, P (.note message)) {σ τ : Store}
    (h : σ.Reaches Event.IsNote τ) : σ.Reaches P τ := by
  refine h.mono fun e he => ?_
  obtain ⟨message, rfl⟩ := he.eq_note
  exact hnote message

/-- A script does what its advances and closes do, and leaves messages. -/
theorem Script.run_reaches {α : Type} (hadvance : ∀ i (σ : Store), σ.Reaches P (advance i σ).2)
    (hclose : ∀ i (σ : Store), σ.Reaches P (close i σ).2) (hnote : ∀ message, P (.note message))
    (script : Script α) (σ : Store) : σ.Reaches P (script.run advance close σ).2 :=
  Script.run_respects (R := Reaches P) Reaches.trans (Reaches.of_notes hnote) hadvance hclose
    script σ

/-- A source does what its advances and closes do, and leaves messages. -/
theorem Source.poll_reaches (hadvance : ∀ i (σ : Store), σ.Reaches P (advance i σ).2)
    (hclose : ∀ i (σ : Store), σ.Reaches P (close i σ).2) (hnote : ∀ message, P (.note message))
    (source : Source) (σ : Store) : σ.Reaches P (source.poll advance close σ).2.2 :=
  Source.poll_respects (R := Reaches P) Reaches.trans (Reaches.of_notes hnote) hadvance hclose
    source σ

end Scripts

namespace Store

variable {P : Event → Prop}

/-- Closing an iterator. -/
theorem close_reaches (σ : Store) (i : Nat) (hP : P (.closed i)) : σ.Reaches P (σ.close i).2 := by
  rw [close]
  split
  · exact .refl σ
  · rename_i it here
    split
    · exact .refl σ
    · rename_i isOpen
      exact (Change.close σ i it here (by simpa using isOpen) hP).reaches

/-- Closing an iterator that was there before the limit. -/
theorem closeBelow_reaches (limit i : Nat) (σ : Store) :
    σ.Reaches (Event.Below limit) (closeBelow limit i σ).2 := by
  rw [closeBelow]
  split
  · rename_i hi
    exact close_reaches σ i hi
  · exact .refl σ

/-- What the source of an iterator does before its output is recorded. -/
theorem poll_reaches_below {depth : Nat}
    (ih : ∀ (σ : Store) (i : Nat), σ.Reaches (Event.Below (i + 1)) (σ.nextWithin depth i).2)
    (source : Source) (cell : Nat) (σ : Store) :
    σ.Reaches (Event.Below cell) (source.poll
      (fun i σ => if i < cell then nextWithin depth σ i else (.done, σ))
      (closeBelow cell) σ).2.2 := by
  refine Source.poll_reaches ?_ (closeBelow_reaches cell) (fun _ => trivial) source σ
  intro i τ
  split
  · rename_i hi
    exact (ih τ i).mono fun _ => Event.Below.mono hi
  · exact .refl τ

/-- How an iterator is advanced. -/
inductive Advance (σ : Store) (i : Nat) : Step → Store → Prop where
  | missing (absent : σ.iterators[i]? = none) : Advance σ i .done σ
  | spent (it : Iterator) (here : σ.iterators[i]? = some it) (dead : it.source = none) :
      Advance σ i .done σ
  /-- The source does what it has to do with earlier iterators, and then its output
      is recorded. -/
  | polled (it : Iterator) (here : σ.iterators[i]? = some it) (live : it.source.isSome)
      {τ : Store} (run : σ.Reaches (Event.Below i) τ) (output : Option Value) (rest : Source)
      (held : ∀ v ∈ output, τ.holds v = true) :
      Advance σ i (.ofOption output)
        ((τ.setIterator i (it.after output rest)).record (.polled i it.pulled output))

/-- The source reaches earlier iterators only, so its own is still as it was. -/
theorem iterator_eq_of_below {i : Nat} {σ τ : Store} {it : Iterator}
    (run : σ.Reaches (Event.Below i) τ) (here : σ.iterators[i]? = some it) :
    τ.iterators[i]? = some it := by
  have hi : i < σ.iterators.size := (Array.getElem?_eq_some_iff.1 here).1
  exact (run.iterator_eq (fun _ => Event.Below.not_touches) hi).trans here

/-- Advancing an iterator uses that iterator and earlier ones only. -/
theorem Advance.reaches {σ τ : Store} {i : Nat} {step : Step} (h : Advance σ i step τ) :
    σ.Reaches (Event.Below (i + 1)) τ := by
  cases h with
  | missing => exact .refl σ
  | spent => exact .refl σ
  | polled it here live run output rest held =>
      exact .tail (run.mono fun _ => Event.Below.mono (Nat.le_succ i))
        (.poll _ i it output rest (iterator_eq_of_below run here) live (Nat.lt_succ_self i))

/-- Advancing with room for one step more than some depth that is known to be right. -/
theorem nextWithin_advance_of {depth : Nat}
    (ih : ∀ (σ : Store) (i : Nat), σ.Reaches (Event.Below (i + 1)) (σ.nextWithin depth i).2)
    (σ : Store) (cell : Nat) :
    Advance σ cell (σ.nextWithin (depth + 1) cell).1 (σ.nextWithin (depth + 1) cell).2 := by
  rw [nextWithin]
  split
  · rename_i absent
    exact .missing absent
  · rename_i it here
    split
    · rename_i dead
      exact .spent it here dead
    · rename_i source live
      -- the source runs before its output is recorded, on earlier iterators only
      have hpoll := poll_reaches_below ih source cell σ
      dsimp only
      generalize source.poll _ (closeBelow cell) σ = polled at hpoll ⊢
      obtain ⟨output, rest, τ⟩ := polled
      refine .polled it here (by simp [live]) hpoll (output.map τ.vet) rest ?_
      intro v hv
      obtain ⟨w, -, rfl⟩ := Option.map_eq_some_iff.1 hv
      exact holds_vet τ w

theorem nextWithin_reaches (depth : Nat) :
    ∀ (σ : Store) (cell : Nat), σ.Reaches (Event.Below (cell + 1)) (σ.nextWithin depth cell).2 := by
  induction depth with
  | zero => exact fun σ _ => .refl σ
  | succ depth ih => exact fun σ cell => (nextWithin_advance_of ih σ cell).reaches

/-- Advancing an iterator. -/
theorem next_advance (σ : Store) (cell : Nat) :
    Advance σ cell (σ.next cell).1 (σ.next cell).2 :=
  nextWithin_advance_of (nextWithin_reaches cell) σ cell

theorem next_reaches (σ : Store) (cell : Nat) :
    σ.Reaches (Event.Below (cell + 1)) (σ.next cell).2 := (next_advance σ cell).reaches

/-- Carrying out a script. -/
theorem runScript_reaches {α : Type} (script : Script α) (σ : Store) :
    σ.Reaches Event.OfScript (σ.runScript script).2 :=
  Script.run_reaches (fun i σ => (next_reaches σ i).mono fun _ => Event.Below.ofScript)
    (fun i σ => close_reaches σ i trivial) (fun _ => trivial) script σ

/-- Getting the iterator that a factory hands out. -/
theorem supply_reaches (σ : Store) (handed : Supply) : σ.Reaches P (σ.supply handed).2 := by
  cases handed with
  | fresh plan => exact IteratorPlan.build_reaches plan σ
  | existing i =>
      rw [supply]
      split
      · exact .refl σ
      · exact newIterator_reaches σ ⟨rfl, rfl⟩

/-! ## What every operation respects -/

/-- A relation between stores that holds along runs, and where no iterator is touched. -/
structure Indifferent (R : Store → Store → Prop) : Prop where
  trans : ∀ {σ τ υ : Store}, R σ τ → R τ υ → R σ υ
  spares : ∀ {σ τ : Store}, σ.Reaches (fun e => ∀ i, ¬ e.Touches i) τ → R σ τ

/-- Such a relation that also holds along every advance and every close. -/
structure Respected (R : Store → Store → Prop) : Prop extends Indifferent R where
  next : ∀ (σ : Store) (i : Nat), R σ (σ.next i).2
  close : ∀ (σ : Store) (i : Nat), R σ (σ.close i).2

/-- A relation that holds along runs, where a getter runs and where an object is made. -/
structure Inspected (R : Store → Store → Prop) : Prop where
  refl : ∀ σ, R σ σ
  trans : ∀ {σ τ υ : Store}, R σ τ → R τ υ → R σ υ
  runGetter : ∀ (σ : Store) (g : Nat), R σ (σ.runGetter g).2
  newObject : ∀ (σ : Store) (o : Object), R σ (σ.newObject o).2

namespace Inspected

variable {R : Store → Store → Prop} (hR : Inspected R)
include hR

/-- Reading a property that was found. -/
theorem readProperty (σ : Store) (p : Property) : R σ (σ.readProperty p).2 := by
  rw [Store.readProperty]
  split
  · exact hR.refl σ
  · exact hR.runGetter σ _

/-- Reading a property by its key. -/
theorem get (σ : Store) (v : Value) (k : Key) : R σ (σ.get v k).2 := by
  simp only [Store.get]
  split
  · split
    · exact hR.refl σ
    · exact hR.refl σ
  · split
    · exact hR.readProperty σ _
    · exact hR.refl σ

/-- Reading properties one after another. -/
theorem readAll (ps : List (Key × Property)) (σ : Store) : R σ (Store.readAll ps σ).2 := by
  induction ps generalizing σ with
  | nil => exact hR.refl σ
  | cons p ps ih => exact hR.trans (hR.readProperty σ p.2) (ih _)

/-- Enumerating properties. -/
theorem entries (σ : Store) (v : Value) : R σ (σ.entries v).2 := by
  simp only [Store.entries]
  split
  · exact hR.refl σ
  · split
    · exact hR.readAll _ σ
    · exact hR.refl σ

/-- Copying properties into a new object. -/
theorem without (σ : Store) (v : Value) (excluded : List Key) : R σ (σ.without v excluded).2 :=
  hR.trans (hR.entries σ v) (hR.newObject _ _)

end Inspected

namespace Indifferent

variable {R : Store → Store → Prop} (hR : Indifferent R)
include hR

theorem refl (σ : Store) : R σ σ := hR.spares (.refl σ)

/-- A remark touches no iterator. -/
theorem remark (σ : Store) {e : Event} (isRemark : e.IsRemark) : R σ (σ.record e) := by
  refine hR.spares (Change.remark σ e isRemark ?_).reaches
  intro i
  cases e with
  | polled j turn output => exact isRemark.elim
  | closed j => exact isRemark.elim
  | _ => exact id

/-- Messages touch no iterator. -/
theorem notes {σ τ : Store} (h : σ.Reaches Event.IsNote τ) : R σ τ :=
  hR.spares (h.of_notes fun _ _ => id)

end Indifferent

namespace Respected

variable {R : Store → Store → Prop} (hR : Respected R)
include hR

theorem runScript {α : Type} (script : Script α) (σ : Store) : R σ (σ.runScript script).2 :=
  Script.run_respects (R := R) hR.trans hR.notes (fun i σ => hR.next σ i)
    (fun i σ => hR.close σ i) script σ

/-- Running a getter. -/
theorem runGetter (σ : Store) (g : Nat) : R σ (σ.runGetter g).2 := by
  rw [Store.runGetter]
  split
  · exact hR.refl σ
  · rename_i getter here
    exact hR.trans (hR.spares (Change.startGetter σ g getter fun _ => id).reaches)
      (hR.runScript _ _)

/-- Running a factory. -/
theorem runFactory (σ : Store) (iterable : Ref) (f : Nat) : R σ (σ.runFactory iterable f).2 := by
  rw [Store.runFactory]
  split
  · exact hR.refl σ
  · rename_i factory here
    have hstart := hR.spares (Change.startFactory σ f factory iterable fun _ => id).reaches
    exact hR.trans (hR.trans hstart (hR.runScript _ _)) (hR.spares (supply_reaches _ _))

/-- Making an iterator over a value. -/
theorem iterate (σ : Store) (v : Value) : R σ (σ.iterate v).2 := by
  simp only [Store.iterate]
  split
  · exact hR.refl σ
  · rename_i a
    exact hR.trans (hR.remark σ (e := .opened (.array a)) trivial)
      (hR.spares (newIterator_reaches _ ⟨rfl, rfl⟩))
  · exact hR.spares (newIterator_reaches σ ⟨rfl, rfl⟩)
  · split
    · exact hR.runFactory σ _ _
    · exact hR.refl σ
  · exact hR.refl σ

/-- Looking at properties runs getters and makes objects. -/
theorem inspected : Inspected R where
  refl := hR.refl
  trans := hR.trans
  runGetter := hR.runGetter
  newObject := fun σ o => hR.spares (Change.object σ o).reaches

end Respected

/-- Runs of changes are respected. -/
theorem leads_respected : Respected Leads where
  trans := Reaches.trans
  spares := Reaches.leads
  next := fun σ i => (next_reaches σ i).leads
  close := fun σ i => close_reaches σ i trivial

theorem iterate_leads (σ : Store) (v : Value) : σ.Leads (σ.iterate v).2 :=
  leads_respected.iterate σ v

theorem readProperty_leads (σ : Store) (p : Property) : σ.Leads (σ.readProperty p).2 :=
  leads_respected.inspected.readProperty σ p

theorem get_leads (σ : Store) (v : Value) (k : Key) : σ.Leads (σ.get v k).2 :=
  leads_respected.inspected.get σ v k

theorem without_leads (σ : Store) (v : Value) (excluded : List Key) :
    σ.Leads (σ.without v excluded).2 := leads_respected.inspected.without σ v excluded

end Store

end StructuralMatch
