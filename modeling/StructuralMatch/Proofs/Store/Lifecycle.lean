import StructuralMatch.Proofs.Store.Closing
import StructuralMatch.Proofs.Store.Supply

/-! # The life of an iterator

    An iterator has two ends, exhaustion and closing, which come in any order and share
    the slot of the source.  It is used by advancing and closing it, through whatever
    handle and whatever else happens in between (`Store.Uses`).

    The invariant is about the iterator's cell (`Remains`): its source is what is left of
    the first one after it was asked for all outputs so far, until one of the ends is
    reached and it is gone.  Advances and closes keep it, and the life of an iterator can
    be read off it, one lemma for each thing that can be observed. -/

namespace StructuralMatch

/-! ## Asking a source -/

namespace Store

variable {σ τ υ : Store} {i : Nat} {it : Iterator} {source : Source}

/-- Ask the source of an iterator for its next output.  It can use the iterators that were made
    before; a value that is not there counts as undefined. -/
def ask (σ : Store) (i : Nat) (source : Source) : Option Value × Source × Store :=
  let (output, rest, τ) :=
    source.poll (fun j σ => if j < i then σ.next j else (.done, σ)) (closeBelow i) σ
  (output.map τ.vet, rest, τ)

/-- A source uses iterators that were made before only. -/
theorem ask_reaches (σ : Store) (i : Nat) (source : Source) :
    σ.Reaches (Event.Below i) (σ.ask i source).2.2 := by
  refine Source.poll_reaches ?_ (closeBelow_reaches i) (fun _ => trivial) source σ
  intro j τ
  split
  · rename_i hj
    exact (next_reaches τ j).mono fun _ => Event.Below.mono hj
  · exact .refl τ

/-- An iterator reaches earlier ones only, so any depth beyond its own number does. -/
theorem nextWithin_eq (d : Nat) : ∀ (e : Nat) (σ : Store) (cell : Nat), cell < d → cell < e →
    σ.nextWithin d cell = σ.nextWithin e cell := by
  induction d with
  | zero =>
      intro e σ cell hd
      exact absurd hd (Nat.not_lt_zero cell)
  | succ d ih =>
      intro e σ cell hd he
      obtain ⟨e, rfl⟩ : ∃ n, e = n + 1 := ⟨e - 1, by omega⟩
      have hbelow : (fun (j : Nat) (σ : Store) =>
          if j < cell then σ.nextWithin d j else (Step.done, σ)) =
          fun j σ => if j < cell then σ.nextWithin e j else (.done, σ) := by
        funext j τ
        split
        · exact ih e τ j (by omega) (by omega)
        · rfl
      rw [nextWithin, nextWithin, hbelow]

/-- Advancing what has no source does nothing. -/
theorem next_of_idle (idle : σ.iterators[i]?.bind (·.source) = none) :
    σ.next i = (.done, σ) := by
  rw [next, nextWithin]
  split
  · rfl
  · rename_i it here
    have dead : it.source = none := by simpa [here] using idle
    simp only [dead]

/-- Advancing an iterator that has a source asks the source and records its output. -/
theorem next_of_source (here : σ.iterators[i]? = some it) (live : it.source = some source) :
    σ.next i = (.ofOption (σ.ask i source).1,
      ((σ.ask i source).2.2.setIterator i
        (it.after (σ.ask i source).1 (σ.ask i source).2.1)).record
          (.polled i it.pulled (σ.ask i source).1)) := by
  have hbelow : (fun (j : Nat) (σ : Store) =>
      if j < i then σ.nextWithin i j else (Step.done, σ)) =
      fun j σ => if j < i then σ.next j else (.done, σ) := by
    funext j τ
    split
    · exact nextWithin_eq i (j + 1) τ j (by assumption) (Nat.lt_succ_self j)
    · rfl
  rw [next, nextWithin, here]
  simp only [live]
  rw [hbelow]
  rfl

end Store

/-- Asked in these stores, one after the other, a source gives these outputs and goes on as the
    last source. -/
inductive Source.Emits (i : Nat) (source : Source) :
    List (Store × Option Value) → Source → Prop where
  | start : Emits i source [] source
  | ask {asked : List (Store × Option Value)} {last : Source} (before : Emits i source asked last)
      (σ : Store) : Emits i source (asked ++ [(σ, (σ.ask i last).1)]) (σ.ask i last).2.1

/-! ## Uses -/

/-- A use of an iterator, and what came of it. -/
inductive Use where
  /-- It was advanced, in this store. -/
  | next (before : Store) (step : Step)
  | close (closed : Bool)

namespace Use

/-- The step of an advance. -/
def step? : Use → Option Step
  | .next _ step => some step
  | .close _ => none

/-- The answer to a close. -/
def closed? : Use → Option Bool
  | .next _ _ => none
  | .close closed => some closed

/-- Whether the use reports an end: it is done, or it is a close. -/
def ends : Use → Bool
  | .next _ step => step.isDone
  | .close _ => true

/-- The steps of all advances, in order. -/
def steps (uses : List Use) : List Step := uses.filterMap step?

/-- The answers to all closes, in order. -/
def closes (uses : List Use) : List Bool := uses.filterMap closed?

/-- The advances up to the first close and the first report of exhaustion, that report
    included, with their outputs. -/
def asked : List Use → List (Store × Option Value)
  | .next σ (.yielded v) :: uses => (σ, some v) :: asked uses
  | .next σ .done :: _ => [(σ, none)]
  | .close _ :: _ => []
  | [] => []

/-- The values that came of it. -/
def yields (uses : List Use) : List Value := (asked uses).filterMap Prod.snd

/-- What comes after an end is not asked. -/
theorem asked_append (uses more : List Use) :
    asked (uses ++ more) = asked uses ++ if uses.any ends then [] else asked more := by
  induction uses with
  | nil => rfl
  | cons use uses ih =>
      rcases use with ⟨σ, v | _⟩ | closed
      · exact congrArg ((σ, some v) :: ·) ih
      · rfl
      · rfl

/-- One advance asks once. -/
theorem asked_next (σ : Store) (output : Option Value) :
    asked [.next σ (.ofOption output)] = [(σ, output)] := by
  cases output <;> rfl

@[simp] theorem steps_concat_next (uses : List Use) (σ : Store) (step : Step) :
    steps (uses ++ [.next σ step]) = steps uses ++ [step] := List.filterMap_append

@[simp] theorem steps_concat_close (uses : List Use) (closed : Bool) :
    steps (uses ++ [.close closed]) = steps uses := by
  rw [steps, List.filterMap_append]
  exact List.append_nil _

@[simp] theorem closes_concat_next (uses : List Use) (σ : Store) (step : Step) :
    closes (uses ++ [.next σ step]) = closes uses := by
  rw [closes, List.filterMap_append]
  exact List.append_nil _

@[simp] theorem closes_concat_close (uses : List Use) (closed : Bool) :
    closes (uses ++ [.close closed]) = closes uses ++ [closed] := List.filterMap_append

/-- After an end an advance adds nothing to what was asked. -/
theorem asked_concat_of_ends {uses : List Use} (h : uses.any ends = true) (use : Use) :
    asked (uses ++ [use]) = asked uses := by
  rw [asked_append, h, if_pos rfl, List.append_nil]

/-- A close adds nothing to what was asked. -/
theorem asked_concat_close (uses : List Use) (closed : Bool) :
    asked (uses ++ [.close closed]) = asked uses := by
  rw [asked_append]
  split <;> exact List.append_nil _

/-- Before an end an advance asks once more. -/
theorem asked_concat_next {uses : List Use} (h : uses.any ends = false) (σ : Store)
    (output : Option Value) :
    asked (uses ++ [.next σ (.ofOption output)]) = asked uses ++ [(σ, output)] := by
  rw [asked_append, h, if_neg Bool.false_ne_true, asked_next]

theorem yields_concat_of_ends {uses : List Use} (h : uses.any ends = true) (use : Use) :
    yields (uses ++ [use]) = yields uses := by
  rw [yields, asked_concat_of_ends h, yields]

theorem yields_concat_close (uses : List Use) (closed : Bool) :
    yields (uses ++ [.close closed]) = yields uses := by
  rw [yields, asked_concat_close, yields]

theorem yields_concat_next {uses : List Use} (h : uses.any ends = false) (σ : Store)
    (output : Option Value) :
    yields (uses ++ [.next σ (.ofOption output)]) = yields uses ++ output.toList := by
  rw [yields, asked_concat_next h, List.filterMap_append, yields]
  cases output <;> rfl

/-- Before an end every advance yields, and nothing is closed. -/
theorem steps_eq_of_not_ends {uses : List Use} (h : uses.any ends = false) :
    steps uses = (yields uses).map .yielded ∧ closes uses = [] := by
  induction uses with
  | nil => exact ⟨rfl, rfl⟩
  | cons use uses ih =>
      rw [List.any_cons, Bool.or_eq_false_iff] at h
      obtain ⟨hsteps, hcloses⟩ := ih h.2
      rcases use with ⟨σ, v | _⟩ | closed
      · exact ⟨congrArg (Step.yielded v :: ·) hsteps, hcloses⟩
      · cases h.1
      · cases h.1

end Use

namespace Store

/-- From one store to another an iterator was used like this, in order, and otherwise left
    alone, whatever else happened. -/
inductive Uses (i : Nat) (σ : Store) : List Use → Store → Prop where
  | start : Uses i σ [] σ
  | next {uses : List Use} {τ : Store} (before : Uses i σ uses τ) :
      Uses i σ (uses ++ [.next τ (τ.next i).1]) (τ.next i).2
  | close {uses : List Use} {τ : Store} (before : Uses i σ uses τ) :
      Uses i σ (uses ++ [.close (τ.close i).1]) (τ.close i).2
  | elsewhere {uses : List Use} {τ υ : Store} (before : Uses i σ uses τ)
      (other : τ.Reaches (Event.Spares (· = i)) υ) : Uses i σ uses υ

variable {σ τ υ : Store} {i : Nat} {uses : List Use}

/-- Uses are runs of changes. -/
theorem Uses.leads (h : σ.Uses i uses τ) : σ.Leads τ := by
  induction h with
  | start => exact .refl σ
  | @next uses τ before ih => exact ih.trans (next_reaches τ i).leads
  | @close uses τ before ih => exact ih.trans (close_reaches τ i trivial)
  | elsewhere before other ih => exact ih.trans other.leads

/-- What spares an iterator leaves its cell alone. -/
theorem Reaches.getElem?_eq_of_spares (h : σ.Reaches (Event.Spares (· = i)) τ)
    (hi : i < σ.iterators.size) : τ.iterators[i]? = σ.iterators[i]? :=
  h.iterator_eq (fun _ he => he i rfl) hi

/-- Closing what is closed does nothing. -/
theorem close_of_closed {it : Iterator} (here : σ.iterators[i]? = some it)
    (h : it.closed = true) : σ.close i = (false, σ) := by
  simp [close, here, h]

/-- Closing what is open drops the source. -/
theorem close_of_open {it : Iterator} (here : σ.iterators[i]? = some it)
    (h : it.closed = false) :
    σ.close i =
      (true, (σ.setIterator i { it with source := none, closed := true }).record (.closed i)) := by
  simp [close, here, h]

/-- What is left of an iterator after it was used: its cell, and what is left of its source. -/
structure Remains (τ : Store) (i : Nat) (source : Source) (uses : List Use) (it : Iterator)
    (rest : Source) : Prop where
  here : τ.iterators[i]? = some it
  emits : source.Emits i (Use.asked uses) rest
  /-- The source goes with the first end that is reached. -/
  live : it.source = if uses.any Use.ends then none else some rest
  pulled : it.pulled = (Use.yields uses).length
  closed : it.closed = !(Use.closes uses).isEmpty

namespace Remains

variable {source : Source} {it : Iterator} {rest : Source}

theorem lt (h : τ.Remains i source uses it rest) : i < τ.iterators.size :=
  (Array.getElem?_eq_some_iff.1 h.here).1

/-- After an end nothing happens any more. -/
theorem next_of_ends (h : τ.Remains i source uses it rest) (hends : uses.any Use.ends = true) :
    τ.next i = (.done, τ) := by
  refine next_of_idle ?_
  rw [h.here, Option.bind_some, h.live, hends, if_pos rfl]

/-- Before an end what is left of the source is asked. -/
theorem next_of_not_ends (h : τ.Remains i source uses it rest)
    (hends : uses.any Use.ends = false) :
    τ.next i = (.ofOption (τ.ask i rest).1,
      ((τ.ask i rest).2.2.setIterator i (it.after (τ.ask i rest).1 (τ.ask i rest).2.1)).record
        (.polled i it.pulled (τ.ask i rest).1)) := by
  refine next_of_source h.here ?_
  rw [h.live, hends, if_neg Bool.false_ne_true]

/-- What is closed has reached an end. -/
theorem ends_of_closed (h : τ.Remains i source uses it rest) (hc : it.closed = true) :
    uses.any Use.ends = true := by
  by_contra hrunning
  have hnone := (Use.steps_eq_of_not_ends (Bool.eq_false_iff.2 hrunning)).2
  have hclosed := h.closed
  rw [hc, hnone] at hclosed
  cases hclosed

/-- What is left after one more advance. -/
theorem next (h : τ.Remains i source uses it rest) : ∃ it' rest',
    (τ.next i).2.Remains i source (uses ++ [.next τ (τ.next i).1]) it' rest' := by
  cases hends : uses.any Use.ends with
  | true =>
      rw [h.next_of_ends hends]
      refine ⟨it, rest, h.here, ?_, ?_, ?_, ?_⟩
      · rw [Use.asked_concat_of_ends hends]
        exact h.emits
      · rw [h.live, List.any_append, hends, Bool.true_or]
      · rw [h.pulled, Use.yields_concat_of_ends hends]
      · rw [h.closed, Use.closes_concat_next]
  | false =>
      have hsize := (ask_reaches τ i rest).iterators_size
      rw [h.next_of_not_ends hends]
      refine ⟨_, (τ.ask i rest).2.1,
        getElem?_iterators_polled (Nat.lt_of_lt_of_le h.lt hsize) _ _, ?_, ?_, ?_, ?_⟩
      · rw [Use.asked_concat_next hends]
        exact h.emits.ask τ
      · rw [List.any_append, hends]
        cases (τ.ask i rest).1 <;> rfl
      · rw [Use.yields_concat_next hends, List.length_append, ← h.pulled]
        cases (τ.ask i rest).1 <;> rfl
      · rw [Use.closes_concat_next, ← h.closed]
        cases (τ.ask i rest).1 <;> rfl

/-- What is left after one more close. -/
theorem close (h : τ.Remains i source uses it rest) : ∃ it',
    (τ.close i).2.Remains i source (uses ++ [.close (τ.close i).1]) it' rest := by
  have hemits : source.Emits i (Use.asked (uses ++ [.close (τ.close i).1])) rest := by
    rw [Use.asked_concat_close]
    exact h.emits
  have hended : (uses ++ [Use.close (τ.close i).1]).any Use.ends = true := by simp [Use.ends]
  have hpulled : it.pulled = (Use.yields (uses ++ [.close (τ.close i).1])).length := by
    rw [Use.yields_concat_close, h.pulled]
  have hclosed : (!(Use.closes (uses ++ [.close (τ.close i).1])).isEmpty) = true := by simp
  cases hc : it.closed with
  | true =>
      have hidle : it.source = none := by rw [h.live, h.ends_of_closed hc, if_pos rfl]
      rw [close_of_closed h.here hc] at hemits hended hpulled hclosed ⊢
      exact ⟨it, h.here, hemits, by rw [hidle, hended, if_pos rfl], hpulled, by rw [hc, hclosed]⟩
  | false =>
      rw [close_of_open h.here hc] at hemits hended hpulled hclosed ⊢
      exact ⟨_, getElem?_iterators_polled h.lt _ _, hemits, by rw [hended, if_pos rfl], hpulled,
        by rw [hclosed]⟩

end Remains

/-- A run whose events are no polls of a source does not poll it. -/
theorem Reaches.polls_eq {P : Event → Prop} (hP : ∀ e, P e → e.output? i = none)
    (h : σ.Reaches P τ) : τ.polls i = σ.polls i := by
  obtain ⟨new, hnew, hall⟩ := h.events
  have hnone : new.filterMap (Event.output? i) = [] :=
    List.filterMap_eq_nil_iff.2 fun e he => hP e (hall e he)
  rw [polls, hnew, List.filterMap_append, hnone, List.append_nil, polls]

section Life

variable {kind : IteratorKind} {label : Option String} {source : Source}
  (born : σ.iterators[i]? = some ⟨kind, some source, label, 0, false⟩)
include born

/-- Uses leave an iterator with what they do not take. -/
theorem Uses.remains (h : σ.Uses i uses τ) : ∃ it rest, τ.Remains i source uses it rest := by
  induction h with
  | start => exact ⟨_, source, born, .start, rfl, rfl, rfl⟩
  | next before ih =>
      obtain ⟨it, rest, hrest⟩ := ih
      exact hrest.next
  | close before ih =>
      obtain ⟨it, rest, hrest⟩ := ih
      obtain ⟨it', hrest'⟩ := hrest.close
      exact ⟨it', rest, hrest'⟩
  | elsewhere before other ih =>
      obtain ⟨it, rest, hrest⟩ := ih
      have hsame := other.getElem?_eq_of_spares hrest.lt
      exact ⟨it, rest, { hrest with here := hsame.trans hrest.here }⟩

/-- What the advances give: the values of the source's outputs, and then nothing any more. -/
theorem Uses.steps (h : σ.Uses i uses τ) :
    ∃ n, Use.steps uses = (Use.yields uses).map .yielded ++ List.replicate n .done := by
  induction h with
  | start => exact ⟨0, rfl⟩
  | @next uses τ before ih =>
      obtain ⟨it, rest, hrest⟩ := before.remains born
      cases hends : uses.any Use.ends with
      | true =>
          obtain ⟨n, hn⟩ := ih
          refine ⟨n + 1, ?_⟩
          rw [hrest.next_of_ends hends, Use.steps_concat_next, hn,
            Use.yields_concat_of_ends hends, List.append_assoc, ← List.replicate_succ']
      | false =>
          have hsteps := (Use.steps_eq_of_not_ends hends).1
          rw [hrest.next_of_not_ends hends, Use.steps_concat_next, hsteps,
            Use.yields_concat_next hends, List.map_append]
          cases (τ.ask i rest).1 with
          | none => exact ⟨1, by rw [List.append_assoc]; rfl⟩
          | some v => exact ⟨0, by rw [List.append_assoc]; rfl⟩
  | @close uses τ before ih =>
      obtain ⟨n, hn⟩ := ih
      refine ⟨n, ?_⟩
      rw [Use.steps_concat_close, hn, Use.yields_concat_close]
  | elsewhere before other ih => exact ih

/-- What the closes answer: the first closes the iterator, the others find it closed. -/
theorem Uses.closes (h : σ.Uses i uses τ) :
    Use.closes uses = [] ∨ ∃ n, Use.closes uses = true :: List.replicate n false := by
  induction h with
  | start => exact .inl rfl
  | next before ih =>
      rw [Use.closes_concat_next]
      exact ih
  | @close uses τ before ih =>
      obtain ⟨it, rest, hrest⟩ := before.remains born
      have hclosed := hrest.closed
      refine .inr ?_
      rw [Use.closes_concat_close]
      rcases ih with hnone | ⟨n, hn⟩
      · rw [hnone] at hclosed
        rw [hnone, close_of_open hrest.here hclosed]
        exact ⟨0, rfl⟩
      · rw [hn] at hclosed
        rw [hn, close_of_closed hrest.here hclosed]
        exact ⟨n + 1, by rw [List.cons_append, ← List.replicate_succ']⟩
  | elsewhere before other ih => exact ih

/-- The source is polled for what was asked up to an end, and never again. -/
theorem Uses.polls (h : σ.Uses i uses τ) :
    τ.polls i = σ.polls i ++ (Use.asked uses).map Prod.snd := by
  induction h with
  | start => exact (List.append_nil _).symm
  | @next uses τ before ih =>
      obtain ⟨it, rest, hrest⟩ := before.remains born
      cases hends : uses.any Use.ends with
      | true => rw [hrest.next_of_ends hends, Use.asked_concat_of_ends hends, ih]
      | false =>
          have hquiet := (ask_reaches τ i rest).polls_eq fun e he =>
            Event.output?_of_not_touches he.not_touches
          rw [hrest.next_of_not_ends hends, Use.asked_concat_next hends, Store.polls,
            events_record, List.filterMap_append, events_setIterator, ← Store.polls, hquiet, ih,
            List.map_append, List.append_assoc]
          simp
  | @close uses τ before ih =>
      have hclose := close_reaches (P := (· = .closed i)) τ i rfl
      rw [Use.asked_concat_close, ← ih]
      refine hclose.polls_eq ?_
      rintro e rfl
      rfl
  | elsewhere before other ih =>
      rw [other.polls_eq fun e he => Event.output?_of_not_touches (he i rfl), ih]

end Life

/-! ## A whole life -/

/-- What can be observed of an iterator with this source, when it was used like this. -/
structure Lifecycle (i : Nat) (source : Source) (uses : List Use) (τ : Store) : Prop where
  /-- Advances yield values, and from some time on they are done. -/
  steps : ∃ n, Use.steps uses = (Use.yields uses).map .yielded ++ List.replicate n .done
  /-- The values are the outputs of the source, in order, up to its first report of exhaustion or
      the first close. -/
  emits : ∃ rest, source.Emits i (Use.asked uses) rest
  /-- The source was polled for them, and never after either end. -/
  polls : τ.polls i = (Use.asked uses).map Prod.snd
  /-- The iterator counts what it has yielded. -/
  pulled : τ.pulledBy i = (Use.yields uses).length
  /-- The first close closes it, and every other finds it closed. -/
  closes : Use.closes uses = [] ∨ ∃ n, Use.closes uses = true :: List.replicate n false
  closed : τ.isClosed i = !(Use.closes uses).isEmpty
  /-- The cleanup runs when a close closes the iterator, and never else. -/
  cleanups : τ.closings i = (Use.closes uses).count true

/-- An iterator that nobody has used lives such a life. -/
theorem Uses.lifecycle {kind : IteratorKind} {label : Option String} {source : Source}
    (born : σ.iterators[i]? = some ⟨kind, some source, label, 0, false⟩) (fresh : σ.polls i = [])
    (balanced : σ.Balanced) (h : σ.Uses i uses τ) : Lifecycle i source uses τ := by
  obtain ⟨it, rest, hrest⟩ := h.remains born
  have hcloses := h.closes born
  have hisClosed : τ.isClosed i = !(Use.closes uses).isEmpty := by
    rw [isClosed_of_getElem? hrest.here, hrest.closed]
  have hpolls := h.polls born
  rw [fresh, List.nil_append] at hpolls
  refine ⟨h.steps born, ⟨rest, hrest.emits⟩, hpolls, ?_, hcloses, hisClosed, ?_⟩
  · rw [pulledBy, hrest.here, ← hrest.pulled]
    rfl
  · -- the trace shows a close for every iterator that is closed
    rw [h.leads.balanced balanced i, hisClosed]
    rcases hcloses with hnone | ⟨n, hn⟩
    · rw [hnone]
      rfl
    · rw [hn]
      simp [List.count_replicate]

end Store

end StructuralMatch
