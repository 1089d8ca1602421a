import StructuralMatch.Proofs.Store.Permanence

/-! # How sources are polled

    The trace only grows, and it holds every poll of a source with its output.
    After its first report of exhaustion a source is never polled again
    (`Orderly`): the report drops it.  One advance of an iterator is at most one
    poll of its own source, and the iterators that the source uses on the way
    come before it (`Advance.events`).

    An iterator that yields comes closer to its end (`remaining_next_lt`), so it
    can be exhausted by advancing it as often as `remaining` says, and once more. -/

namespace StructuralMatch

/-- The output of a poll of the iterator's source. -/
def Event.output? (i : Nat) : Event → Option (Option Value)
  | .polled j _ output => if j = i then some output else none
  | _ => none

@[simp] theorem Event.output?_polled (i turn : Nat) (output : Option Value) :
    (Event.polled i turn output).output? i = some output := if_pos rfl

theorem Event.output?_polled_of_ne {i j : Nat} (h : j ≠ i) (turn : Nat)
    (output : Option Value) : (Event.polled j turn output).output? i = none := if_neg h

/-- An event that does not touch an iterator is no poll of it. -/
theorem Event.output?_of_not_touches {i : Nat} {e : Event} (h : ¬ e.Touches i) :
    e.output? i = none := by
  cases e with
  | polled j turn output => exact if_neg h
  | _ => rfl

namespace Store

variable {P : Event → Prop} {σ τ υ : Store}

/-! ## What a run adds to the trace -/

/-- The events of the trace, in order. -/
def events (σ : Store) : List Event := σ.trace.toList

@[simp] theorem events_record (σ : Store) (e : Event) :
    (σ.record e).events = σ.events ++ [e] := Array.toList_push

@[simp] theorem events_setIterator (σ : Store) (i : Nat) (it : Iterator) :
    (σ.setIterator i it).events = σ.events := rfl

@[simp] theorem events_startGetter (σ : Store) (cell : Nat) (g : Getter) :
    (σ.startGetter cell g).events = σ.events ++ [.ran cell] := Array.toList_push

@[simp] theorem events_startFactory (σ : Store) (cell : Nat) (f : Factory) (iterable : Ref) :
    (σ.startFactory cell f iterable).events = σ.events ++ [.opened iterable] :=
  Array.toList_push

/-- The size of the trace is the number of events. -/
theorem trace_size (σ : Store) : σ.trace.size = σ.events.length := rfl

/-- A change adds at most one event, and an allowed one. -/
theorem Change.events (h : Change P σ τ) :
    τ.events = σ.events ∨ ∃ e, P e ∧ τ.events = σ.events ++ [e] := by
  cases h with
  | startGetter cell g allowed => exact .inr ⟨_, allowed, events_record _ _⟩
  | startFactory cell f iterable allowed => exact .inr ⟨_, allowed, events_record _ _⟩
  | poll i it output rest here live allowed => exact .inr ⟨_, allowed, events_record _ _⟩
  | close i it here isOpen allowed => exact .inr ⟨_, allowed, events_record _ _⟩
  | remark e isRemark allowed => exact .inr ⟨_, allowed, events_record _ _⟩
  | _ => exact .inl rfl

/-- A run adds allowed events. -/
theorem Reaches.events (h : σ.Reaches P τ) :
    ∃ new, τ.events = σ.events ++ new ∧ ∀ e ∈ new, P e := by
  induction h with
  | refl => exact ⟨[], (List.append_nil _).symm, by simp⟩
  | tail _ last ih =>
      obtain ⟨new, hnew, hP⟩ := ih
      rcases last.events with hsame | ⟨e, he, hadd⟩
      · exact ⟨new, hsame.trans hnew, hP⟩
      · refine ⟨new ++ [e], by rw [hadd, hnew, List.append_assoc], ?_⟩
        intro a ha
        rcases List.mem_append.1 ha with ha | ha
        · exact hP a ha
        · exact List.mem_singleton.1 ha ▸ he

/-- The trace never shrinks. -/
theorem Reaches.trace_size_le (h : σ.Reaches P τ) : σ.trace.size ≤ τ.trace.size := by
  obtain ⟨new, hnew, -⟩ := h.events
  simp [trace_size, hnew]

/-! ## Polls -/

/-- The outputs of all polls of an iterator's source. -/
def polls (σ : Store) (i : Nat) : List (Option Value) := σ.events.filterMap (Event.output? i)

/-- The iterator is there, and its source is gone. -/
def Spent (σ : Store) (i : Nat) : Prop := ∃ it, σ.iterators[i]? = some it ∧ it.source = none

/-- A source that is gone stays gone. -/
theorem Keeps.spent (hk : σ.Keeps τ) {i : Nat} (h : σ.Spent i) : τ.Spent i := by
  obtain ⟨it, here, dead⟩ := h
  obtain ⟨it', here', hkeeps⟩ := hk.iterators here
  exact ⟨it', here', hkeeps.spent dead⟩

/-- An event that is no poll of the iterator's source adds nothing. -/
theorem polls_eq_of_events {e : Event} {i : Nat} (h : τ.events = σ.events ++ [e])
    (he : e.output? i = none) : τ.polls i = σ.polls i := by
  rw [polls, h, List.filterMap_append, List.filterMap_cons_none he, List.filterMap_nil,
    List.append_nil, polls]

/-- The polls of an iterator after a change: the same, or one more of a source that was
    still there, and that is gone when it had nothing to give. -/
theorem Change.polls (h : Change P σ τ) (i : Nat) :
    τ.polls i = σ.polls i ∨
      ∃ it output, σ.iterators[i]? = some it ∧ it.source.isSome ∧
        τ.polls i = σ.polls i ++ [output] ∧ (output = none → τ.Spent i) := by
  cases h with
  | startGetter cell g allowed =>
      exact .inl (polls_eq_of_events (events_startGetter σ cell g) rfl)
  | startFactory cell f iterable allowed =>
      exact .inl (polls_eq_of_events (events_startFactory σ cell f iterable) rfl)
  | poll j it output rest here live allowed =>
      by_cases hij : j = i
      · subst hij
        refine .inr ⟨it, output, here, live, by simp [Store.polls], ?_⟩
        intro hnone
        subst hnone
        have hj : j < σ.iterators.size := (Array.getElem?_eq_some_iff.1 here).1
        exact ⟨it.after none rest, by simp [setIterator, hj], rfl⟩
      · exact .inl (polls_eq_of_events (events_record _ _)
          (Event.output?_polled_of_ne hij _ _))
  | close j it here isOpen allowed => exact .inl (polls_eq_of_events (events_record _ _) rfl)
  | remark e isRemark allowed =>
      refine .inl (polls_eq_of_events (events_record σ e) ?_)
      cases e <;> first | rfl | exact isRemark.elim
  | _ => exact .inl rfl

/-- Sources report exhaustion once, and then they are gone. -/
structure Orderly (σ : Store) : Prop where
  unborn : ∀ i, σ.iterators.size ≤ i → σ.polls i = []
  ended : ∀ i, none ∈ σ.polls i → σ.Spent i
  last : ∀ i, none ∉ (σ.polls i).dropLast

/-- The store in which nothing has been made. -/
theorem orderly_empty : empty.Orderly :=
  ⟨fun _ _ => rfl, fun _ h => by simp [polls, events, empty] at h,
    fun _ h => by simp [polls, events, empty] at h⟩

/-- A change leaves the polls orderly. -/
theorem Change.orderly (h : Change P σ τ) (hσ : σ.Orderly) : τ.Orderly := by
  have hsize := h.iterators_size
  refine ⟨?_, ?_, ?_⟩ <;> intro i
  · intro hi
    rcases h.polls i with hsame | ⟨it, output, here, -⟩
    · exact hsame.trans (hσ.unborn i (Nat.le_trans hsize hi))
    · have := (Array.getElem?_eq_some_iff.1 here).1
      omega
  · intro hmem
    rcases h.polls i with hsame | ⟨it, output, here, live, hadd, hspent⟩
    · exact h.keeps.spent (hσ.ended i (hsame ▸ hmem))
    · rw [hadd] at hmem
      rcases List.mem_append.1 hmem with hold | hnew
      · exact h.keeps.spent (hσ.ended i hold)
      · exact hspent (List.mem_singleton.1 hnew).symm
  · rcases h.polls i with hsame | ⟨it, output, here, live, hadd, -⟩
    · exact hsame ▸ hσ.last i
    · intro hmem
      rw [hadd, List.dropLast_concat] at hmem
      -- a source that has reported exhaustion is gone, but a poll needs one
      obtain ⟨it', here', dead⟩ := hσ.ended i hmem
      rw [here, Option.some.injEq] at here'
      subst here'
      simp [dead] at live

/-- A run leaves the polls orderly. -/
theorem Reaches.orderly (h : σ.Reaches P τ) (hσ : σ.Orderly) : τ.Orderly := by
  induction h with
  | refl => exact hσ
  | tail _ last ih => exact last.orderly ih

/-! ## Advancing -/

/-- One advance is at most one poll of the iterator's own source, and it is the last
    thing that happens. -/
theorem Advance.events {i : Nat} {step : Step} (h : Advance σ i step τ) :
    (step = .done ∧ τ = σ) ∨ ∃ new turn,
      τ.events = σ.events ++ new ++ [.polled i turn step.value?] ∧
        ∀ e ∈ new, e.output? i = none := by
  cases h with
  | missing => exact .inl ⟨rfl, rfl⟩
  | spent => exact .inl ⟨rfl, rfl⟩
  | polled it here live run output rest held =>
      obtain ⟨new, hnew, hbelow⟩ := run.events
      refine .inr ⟨new, it.pulled, by simp [hnew], ?_⟩
      intro e he
      exact Event.output?_of_not_touches (hbelow e he).not_touches

/-- What an iterator yields is there. -/
theorem Advance.held {i : Nat} {step : Step} (h : Advance σ i step τ) :
    ∀ v ∈ step.value?, τ.holds v = true := by
  cases h with
  | missing =>
      intro v hv
      cases hv
  | spent =>
      intro v hv
      cases hv
  | polled it here live run output rest held =>
      intro v hv
      have hkeeps : Keeps _ _ := (Change.poll (P := fun _ => True) _ i it output rest
        (iterator_eq_of_below run here) live trivial).keeps
      exact hkeeps.holds (held v (by simpa using hv))

/-- An iterator that is done is spent. -/
theorem Advance.spent_of_done {i : Nat} {step : Step} (h : Advance σ i step τ)
    (hi : i < σ.iterators.size) (hdone : step = .done) : τ.Spent i := by
  cases h with
  | missing absent => simp [Array.getElem?_eq_getElem hi] at absent
  | spent it here dead => exact ⟨it, here, dead⟩
  | polled it here live run output rest held =>
      cases output with
      | some v => cases hdone
      | none =>
          have hsize := Nat.lt_of_lt_of_le hi run.iterators_size
          exact ⟨it.after none rest, by simp [setIterator, hsize], rfl⟩

/-- A spent iterator is left alone. -/
theorem Advance.eq_of_spent {i : Nat} {step : Step} (h : Advance σ i step τ)
    (hspent : σ.Spent i) : step = .done ∧ τ = σ := by
  obtain ⟨it, here, dead⟩ := hspent
  cases h with
  | missing => exact ⟨rfl, rfl⟩
  | spent => exact ⟨rfl, rfl⟩
  | polled it' here' live =>
      rw [here, Option.some.injEq] at here'
      subst here'
      simp [dead] at live

/-! ## Coming to the end -/

/-- What an iterator can still yield does not depend on later iterators. -/
theorem remainingWithin_setIterator {cell : Nat} (it : Iterator) (depth : Nat) :
    ∀ j < cell, (σ.setIterator cell it).remainingWithin depth j = σ.remainingWithin depth j := by
  induction depth with
  | zero => exact fun _ _ => rfl
  | succ depth ih =>
      intro j hj
      rw [remainingWithin, getElem?_setIterator_of_ne (Nat.ne_of_gt hj), remainingWithin]
      split <;> try rfl
      rename_i k _
      split
      · rename_i hk
        exact ih k (Nat.lt_trans hk hj)
      · rfl

/-- Recording changes no iterator. -/
theorem remainingWithin_record (e : Event) (depth : Nat) :
    ∀ j, (σ.record e).remainingWithin depth j = σ.remainingWithin depth j := by
  induction depth with
  | zero => exact fun _ => rfl
  | succ depth ih =>
      intro j
      rw [remainingWithin, record_iterators, remainingWithin]
      split <;> try rfl
      rename_i k _
      rw [ih k]

/-- Recording a poll leaves the rest of the source in its place. -/
theorem getElem?_iterators_polled {cell : Nat} (hcell : cell < τ.iterators.size) (it : Iterator)
    (e : Event) : ((τ.setIterator cell it).record e).iterators[cell]? = some it := by
  simp [setIterator, hcell]

/-- What an iterator that is there can still yield, by its source. -/
theorem remainingWithin_of_source {depth cell : Nat} {it : Iterator} {source : Source}
    (here : σ.iterators[cell]? = some it) : it.source = some source →
    σ.remainingWithin (depth + 1) cell =
      match source with
      | .items outputs => outputs.length
      | .range next stop => (stop - next).toNat
      | .inner i => if i < cell then σ.remainingWithin depth i else 0 := by
  intro live
  rw [remainingWithin, here, Option.bind_some, live]
  cases source <;> rfl

/-- An iterator that yields has less to yield: its source has lost an output, or the
    iterator that the source takes its values from has yielded. -/
theorem remainingWithin_nextWithin_lt (depth : Nat) :
    ∀ (σ : Store) (cell : Nat) {v : Value}, (σ.nextWithin depth cell).1 = .yielded v →
      (σ.nextWithin depth cell).2.remainingWithin depth cell < σ.remainingWithin depth cell := by
  induction depth with
  | zero =>
      intro σ cell v h
      cases h
  | succ depth ih =>
      intro σ cell v hv
      cases here : σ.iterators[cell]? with
      | none => simp [nextWithin, here] at hv
      | some it =>
      cases live : it.source with
      | none => simp [nextWithin, here, live] at hv
      | some source =>
      have hsize : cell < σ.iterators.size := (Array.getElem?_eq_some_iff.1 here).1
      -- what the source does on the way takes away no cell
      have hpoll := poll_reaches_below (nextWithin_reaches depth) source cell σ
      simp only [nextWithin, here, live] at hv ⊢
      cases source with
      | items outputs =>
          cases outputs with
          | nil => simp [Source.poll, Step.ofOption] at hv
          | cons script outputs =>
              simp only [Source.poll] at hv hpoll ⊢
              generalize script.run _ (closeBelow cell) σ = ran at hv hpoll ⊢
              rcases ran with ⟨_ | w, τ⟩
              · cases hv
              · have hcell := Nat.lt_of_lt_of_le hsize hpoll.iterators_size
                rw [remainingWithin_of_source (getElem?_iterators_polled hcell _ _) rfl,
                  remainingWithin_of_source here live]
                exact Nat.lt_succ_self _
      | range next stop =>
          simp only [Source.poll] at hv ⊢
          split at hv
          · rename_i hlt
            simp only [hlt, if_true]
            rw [remainingWithin_of_source (getElem?_iterators_polled hsize _ _) rfl,
              remainingWithin_of_source here live]
            dsimp only
            omega
          · cases hv
      | inner j =>
          simp only [Source.poll] at hv hpoll ⊢
          by_cases hj : j < cell
          · -- the inner iterator stands below this one, so it has its bound by induction
            have hlt := @ih σ j
            simp only [hj, if_true] at hv hpoll ⊢
            generalize σ.nextWithin depth j = stepped at hv hpoll hlt ⊢
            rcases stepped with ⟨w | _, τ⟩
            · have hcell := Nat.lt_of_lt_of_le hsize hpoll.iterators_size
              rw [remainingWithin_of_source (getElem?_iterators_polled hcell _ _) rfl,
                remainingWithin_of_source here live]
              dsimp only
              rw [if_pos hj, if_pos hj, remainingWithin_record,
                remainingWithin_setIterator _ depth j hj]
              exact hlt rfl
            · cases hv
          · simp [hj, Step.value?, Step.ofOption] at hv

/-- An iterator that yields has less to yield. -/
theorem remaining_next_lt {cell : Nat} {v : Value} (h : (σ.next cell).1 = .yielded v) :
    (σ.next cell).2.remaining cell < σ.remaining cell :=
  remainingWithin_nextWithin_lt (cell + 1) σ cell h

end Store

end StructuralMatch
