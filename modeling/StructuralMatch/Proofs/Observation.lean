import StructuralMatch.Proofs.Consistency

/-! # Everything is observed once

    Over the life of a cache every property is read at most once, every value gets at
    most one iterator, what an iterator yields is taken over without loss, and new
    things are asked in the order in which the plain matches of the calls ask them
    (`Session.observes_once`).

    For an iterator that only the cache advances, the memo is compared with the trace
    of the store.  An entry of the log says where in the trace its access took place,
    so it can be said which polls were the cache's own (`OnlyAdvances`); those that
    were give exactly the values of the memo (`Pulled`). -/

namespace StructuralMatch

/-! ## Values in the trace and in the log -/

/-- The value of a poll of the iterator's source that gave one. -/
def Event.pulled? (i : Nat) (e : Event) : Option Value := (e.output? i).bind id

/-- The values that an iterator's source gave from some point of the trace on. -/
def Store.pulledFrom (σ : Store) (i start : Nat) : List Value :=
  (σ.events.drop start).filterMap (Event.pulled? i)

/-- Whether the access advanced the iterator. -/
def Access.Advances (i : Nat) (a : Access) : Prop := (a.step? i).isSome = true

/-- Whether the access reads the property, by its key or when the properties of its owner
    are copied. -/
def Access.reads (r : Ref) (k : Key) : Access → Bool
  | .read owner key _ => owner = r && key = k
  | .remainder owner _ => owner = .ref r
  | _ => false

/-- Whether the access makes an iterator for the value. -/
def Access.opens (r : Ref) : Access → Bool
  | .opened iterable _ => iterable = r
  | _ => false

namespace State

/-- From some point of the trace on, every poll of the iterator's source was made when the
    cache advanced the iterator. -/
def OnlyAdvances (s : State) (i start : Nat) : Prop :=
  ∀ (n turn : Nat) (output : Option Value), start ≤ n →
    s.store.events[n]? = some (.polled i turn output) →
      ∃ e ∈ s.cache.log, e.access.Advances i ∧ e.start ≤ n ∧ n < e.stop

/-- The cache did not advance the iterator before some point of the trace. -/
def NotBefore (s : State) (i start : Nat) : Prop :=
  ∀ e ∈ s.cache.log, e.access.Advances i → start ≤ e.start

/-- When only the cache advanced an iterator, the log has all the values that its source
    gave. -/
def Pulled (s : State) (i : Nat) : Prop :=
  ∀ start, s.NotBefore i start → s.OnlyAdvances i start →
    s.store.pulledFrom i start = (s.cache.advances i).filterMap (·.1.value?)

variable {s t : State} {i : Nat}

/-- An event that gives a value is a poll. -/
theorem eq_polled_of_output? {e : Event} {output : Option Value} (h : e.output? i = some output) :
    ∃ turn, e = .polled i turn output := by
  cases e with
  | polled j turn out =>
      rw [Event.output?, Option.ite_none_right_eq_some] at h
      obtain ⟨rfl, h⟩ := h
      exact ⟨turn, by rw [Option.some.inj h]⟩
  | _ => cases h

/-- The cache made the polls of an earlier state as well, when it advanced the iterator no
    later than that, or after its trace. -/
theorem OnlyAdvances.earlier {start : Nat} (h : t.OnlyAdvances i start) {new : List Event}
    (hevents : t.store.events = s.store.events ++ new)
    (hlog : ∀ e ∈ t.cache.log, e.access.Advances i →
      e ∈ s.cache.log ∨ s.store.events.length ≤ e.start) : s.OnlyAdvances i start := by
  intro n turn output hn hget
  have hlt := (List.getElem?_eq_some_iff.1 hget).1
  have hget' : t.store.events[n]? = some (.polled i turn output) := by
    rw [hevents, List.getElem?_append_left hlt, hget]
  obtain ⟨e, he, hadvances, hbegun, hended⟩ := h n turn output hn hget'
  rcases hlog e he hadvances with hold | hlate
  · exact ⟨e, hold, hadvances, hbegun, hended⟩
  · omega

/-- When the cache does not advance an iterator, nothing is pulled that counts. -/
theorem Pulled.quiet (hp : s.Pulled i) (hs : s.Sound) {new : List Event}
    (hevents : t.store.events = s.store.events ++ new) {more : List Entry}
    (hlog : t.cache.log = s.cache.log ++ more)
    (hmore : ∀ e ∈ more, e.access.step? i = none) : t.Pulled i := by
  intro start hstart honly
  have hold : ∀ e ∈ t.cache.log, e.access.Advances i → e ∈ s.cache.log := by
    intro e he hadvances
    rw [hlog] at he
    rcases List.mem_append.1 he with he | he
    · exact he
    · rw [Access.Advances, hmore e he] at hadvances
      cases hadvances
  -- a new poll would lie within an entry of the old log, which ends before it
  have hnone : ∀ e ∈ new.drop (start - s.store.events.length), e.pulled? i = none := by
    intro e he
    rw [Event.pulled?]
    cases houtput : e.output? i with
    | none => rfl
    | some output =>
        obtain ⟨turn, rfl⟩ := eq_polled_of_output? houtput
        obtain ⟨n, hn⟩ := List.mem_iff_getElem?.1 he
        rw [List.getElem?_drop] at hn
        have hget : t.store.events[s.store.events.length +
            (start - s.store.events.length + n)]? = some (.polled i turn output) := by
          rw [hevents, List.getElem?_append_right (Nat.le_add_right _ _),
            Nat.add_sub_cancel_left, hn]
        obtain ⟨e', he', hadvances, -, hlt⟩ := honly _ turn output (by omega) hget
        have hstop := (hs.bounded e' (hold e' he' hadvances)).2
        rw [Store.trace_size] at hstop
        omega
  have hsame : (t.cache.advances i).filterMap (·.1.value?) =
      (s.cache.advances i).filterMap (·.1.value?) := by
    have hadd : more.filterMap (·.access.step? i) = [] := List.filterMap_eq_nil_iff.2 hmore
    rw [Cache.advances, hlog, List.filterMap_append, hadd, List.append_nil, Cache.advances]
  rw [Store.pulledFrom, hevents, List.drop_append, List.filterMap_append,
    List.filterMap_eq_nil_iff.2 hnone, List.append_nil, hsame]
  refine hp start ?_ (honly.earlier hevents ?_)
  · intro e he
    exact hstart e (hlog ▸ List.mem_append_left _ he)
  · intro e he hadvances
    exact .inl (hold e he hadvances)

/-- When the cache advances an iterator, the value that it gets is the value that the
    source gives. -/
theorem Pulled.own (hp : s.Pulled i) {position : Nat} {step : Step}
    (heffect : s.store.next i = (step, t.store))
    (hlog : t.cache.log = s.cache.log ++
      [⟨.advanced i position step, s.store.trace.size, t.store.trace.size⟩]) : t.Pulled i := by
  intro start hstart honly
  have hadvance := Store.next_advance s.store i
  rw [heffect] at hadvance
  -- one advance is at most one poll, and its value is that of the step
  have hgiven : ∃ new, t.store.events = s.store.events ++ new ∧
      new.filterMap (Event.pulled? i) = step.value?.toList := by
    rcases hadvance.events with ⟨hdone, hsame⟩ | ⟨new, turn, hevents, hnone⟩
    · dsimp only at hdone hsame
      exact ⟨[], by rw [hsame, List.append_nil], by rw [hdone]; rfl⟩
    · refine ⟨new ++ [.polled i turn step.value?], by rw [hevents, List.append_assoc], ?_⟩
      have hpulled : ∀ e ∈ new, e.pulled? i = none :=
        fun e he => by rw [Event.pulled?, hnone e he]; rfl
      rw [List.filterMap_append, List.filterMap_eq_nil_iff.2 hpulled]
      cases hvalue : step.value? <;> simp [Event.pulled?]
  obtain ⟨new, hevents, hnew⟩ := hgiven
  have hbegin : start ≤ s.store.events.length :=
    hstart _ (hlog ▸ List.mem_append_right _ (List.mem_singleton_self _))
      (by simp [Access.Advances, Access.step?])
  have hvalues : (t.cache.advances i).filterMap (·.1.value?) =
      (s.cache.advances i).filterMap (·.1.value?) ++ step.value?.toList := by
    rw [Cache.advances, hlog, List.filterMap_append, List.filterMap_append, Cache.advances]
    cases hvalue : step.value? <;> simp [Access.step?, hvalue]
  rw [Store.pulledFrom, hevents, List.drop_append_of_le_length hbegin, List.filterMap_append,
    hnew, hvalues]
  refine congrArg (· ++ step.value?.toList) (hp start ?_ (honly.earlier hevents ?_))
  · intro e he
    exact hstart e (hlog ▸ List.mem_append_left _ he)
  · intro e he _
    rw [hlog] at he
    rcases List.mem_append.1 he with hold | hnew
    · exact .inl hold
    · rw [List.mem_singleton.1 hnew]
      exact .inr (Nat.le_refl _)

/-- A move keeps the values of the log complete. -/
theorem Move.pulled (h : Move s t) (hs : s.Sound) (hp : s.Pulled i) : t.Pulled i := by
  obtain ⟨new, hevents, -⟩ := h.leads.events
  rcases h.account with ⟨-, hlog⟩ | ⟨a, heffect, -, hlog⟩
  · exact hp.quiet hs hevents (hlog.trans (List.append_nil _).symm) (by simp)
  · cases hstep : a.step? i with
    | none => exact hp.quiet hs hevents hlog fun e he => List.mem_singleton.1 he ▸ hstep
    | some stepped =>
        cases a with
        | advanced j position step =>
            rw [Access.step?, Option.ite_none_right_eq_some] at hstep
            obtain ⟨rfl, -⟩ := hstep
            exact hp.own heffect hlog
        | _ => cases hstep

/-- Work keeps the values of the log complete. -/
theorem Works.pulled (h : Works s t) (hs : s.Sound) (hp : s.Pulled i) : t.Pulled i := by
  induction h with
  | refl => exact hp
  | tail before last ih => exact last.pulled (before.sound hs) ih

/-- What leaves the log alone keeps its values complete. -/
theorem Pulled.of_log_eq (hp : s.Pulled i) (hs : s.Sound) (hleads : s.store.Leads t.store)
    (hlog : t.cache.log = s.cache.log) : t.Pulled i := by
  obtain ⟨new, hevents, -⟩ := hleads.events
  exact hp.quiet hs hevents (hlog.trans (List.append_nil _).symm) (by simp)

end State

/-! ## Counting in the log -/

namespace Cache

variable {c : Cache}

/-- When nothing was copied, a property was read as often as a value was read of it. -/
theorem countP_reads (hcopies : c.copies = []) (r : Ref) (k : Key) :
    c.log.countP (·.access.reads r k) = (c.readings r k).length := by
  rw [readings, List.length_filterMap_eq_countP]
  refine List.countP_congr ?_
  intro e he
  have hcopied : e.access.copied? = none := List.filterMap_eq_nil_iff.1 hcopies e he
  cases ha : e.access with
  | read owner key v =>
      by_cases howner : owner = r <;> by_cases hkey : key = k <;>
        simp [Access.reads, Access.value?, howner, hkey]
  | remainder owner excluded =>
      rw [ha] at hcopied
      cases hcopied
  | _ => simp [Access.reads, Access.value?]

/-- As many iterators were made for a value as the log shows. -/
theorem countP_opens (r : Ref) : c.log.countP (·.access.opens r) = (c.openings r).length := by
  rw [openings, List.length_filterMap_eq_countP]
  refine List.countP_congr ?_
  intro e _
  cases e.access with
  | opened iterable i =>
      by_cases hiterable : iterable = r <;> simp [Access.opens, Access.iterator?, hiterable]
  | _ => simp [Access.opens, Access.iterator?]

/-- The values of a faithful memo are those that the iterator gave when it was advanced. -/
theorem Faithful.values_eq (hc : c.Faithful) (i : Nat) :
    Memo.valuesOf (c.memo (.cell i)).steps ++ (c.memo (.cell i)).tail =
      (c.advances i).filterMap (·.1.value?) := by
  obtain ⟨vs, ended, hstands, -⟩ := hc.advances i
  have hmemo := hstands.drop_eq (Nat.zero_le _)
  rw [List.drop_zero, Nat.zero_sub, List.drop_zero, List.drop_zero] at hmemo
  rw [hmemo, hc.filterMap_advances hstands]

end Cache

/-! ## Along a session -/

open State

namespace Session

variable {turns : List Turn} {s : State}

/-- In a session the log has all the values of an iterator that only the cache advanced. -/
theorem pulled (h : Session turns s) (i : Nat) : s.Pulled i := by
  induction h with
  | @start σ made =>
      intro start _ honly
      refine List.filterMap_eq_nil_iff.2 ?_
      intro e he
      rw [Event.pulled?]
      cases houtput : e.output? i with
      | none => rfl
      | some output =>
          obtain ⟨turn, rfl⟩ := eq_polled_of_output? houtput
          obtain ⟨n, hn⟩ := List.mem_iff_getElem?.1 he
          rw [List.getElem?_drop] at hn
          obtain ⟨e, he, -⟩ := honly _ turn output (Nat.le_add_right _ _) hn
          cases he
  | call before c held ih =>
      exact (c.perform_proceeds before.sound before.settled held).works.pulled before.sound ih
  | @close turns s before ih =>
      exact ih.of_log_eq before.sound s.close_leads s.close_remembers.log
  | outside before done ih => exact ih.of_log_eq before.sound done rfl

/-- The log of a session is what the calls added to it, and that accounts for all that
    they did to the store. -/
theorem accounts (h : Session turns s) :
    s.cache.log = turns.flatMap (·.entries) ∧
      ∀ turn ∈ turns, Accounts turn.entries turn.before turn.after := by
  induction h with
  | start made => exact ⟨rfl, by simp⟩
  | @call turns s before c held ih =>
      obtain ⟨hlog, haccounts⟩ := c.turn_accounts before.sound before.settled held
      refine ⟨by rw [hlog, ih.1, List.flatMap_append, List.flatMap_singleton], ?_⟩
      intro turn hturn
      rcases List.mem_append.1 hturn with hturn | hturn
      · exact ih.2 turn hturn
      · rw [List.mem_singleton.1 hturn]
        exact haccounts
  | @close turns s before ih => exact ⟨s.close_remembers.log.trans ih.1, ih.2⟩
  | outside before done ih => exact ih

/-- Without named remainders a session copies nothing, and what it asks is what the plain
    matches of its calls ask, less what was asked before. -/
theorem asks (h : Session turns s) (hfree : ∀ turn ∈ turns, turn.call.toPattern.remainderFree)
    {S : Snapshot} (hS : S.Covers s) :
    s.cache.copies = [] ∧ s.cache.questions =
      (turns.flatMap fun turn => (turn.call.plain S turn.verdicts).asked).eraseDups := by
  induction h with
  | start made => exact ⟨rfl, rfl⟩
  | @call turns s before c held ih =>
      have hproceeds := c.perform_proceeds before.sound before.settled held
      obtain ⟨hnone, hasked⟩ := ih
        (fun turn hturn => hfree turn (List.mem_append_left _ hturn))
        (hS.before before.sound hproceeds.works)
      -- the last call asks what its plain match asks, less what the log has already
      have hlast := hfree (c.turn s) (List.mem_append_right _ (List.mem_singleton_self _))
      obtain ⟨hcopies, new, hverdicts, hall⟩ :=
        c.perform_follows hlast before.sound before.settled held hS
      have hnew : new = (c.turn s).verdicts := List.append_cancel_left
        (hverdicts.symm.trans (c.turn_verdicts before.sound before.settled held))
      obtain ⟨-, -, hquestions⟩ := hall []
      rw [List.append_nil, hnew] at hquestions
      refine ⟨hcopies.trans hnone, ?_⟩
      rw [hquestions, hasked, Question.noteAll_eraseDups, List.flatMap_append,
        List.flatMap_singleton]
      rfl
  | @close turns s before ih =>
      have hremembers := s.close_remembers
      have hcovers := hS.earlier before.sound (hremembers.sound before.sound) s.close_leads
        (hremembers.log ▸ List.prefix_refl _)
      rw [Cache.copies, Cache.questions, hremembers.log]
      exact ih hfree hcovers
  | @outside turns s before σ done ih =>
      exact ih hfree (hS.earlier before.sound (before.sound.outside done) done
        (List.prefix_refl _))

end Session

/-- Whatever was observed for a cache, was observed once, without loss and in order. -/
structure ObservedOnce (turns : List Turn) (s : State) : Prop where
  /-- The log is what the calls added to it, and that is all that they did. -/
  log : s.cache.log = turns.flatMap (·.entries)
  accounts : ∀ turn ∈ turns, Accounts turn.entries turn.before turn.after
  /-- Every property was read at most once. -/
  reads : ∀ (r : Ref) (k : Key), s.cache.log.countP (·.access.reads r k) ≤ 1
  /-- For every value at most one iterator was made, and that is the one it gets. -/
  opens : ∀ r : Ref, s.cache.log.countP (·.access.opens r) ≤ 1
  again : ∀ r : Ref, ∀ i ∈ s.cache.openings r, s.iteratorFor (.ref r) = (some (.cell i), s)
  /-- The memo of an iterator that only the cache advanced has all that its source gave. -/
  values : ∀ i start : Nat, s.NotBefore i start → s.OnlyAdvances i start →
    Memo.valuesOf (s.cache.memo (.cell i)).steps ++ (s.cache.memo (.cell i)).tail =
      s.store.pulledFrom i start
  /-- No source was polled after it had reported exhaustion. -/
  ended : ∀ i : Nat, none ∉ (s.store.polls i).dropLast
  /-- New things were asked in the order in which the plain matches ask them. -/
  order : s.cache.questions =
    (turns.flatMap fun turn => (turn.call.plain s.snapshot turn.verdicts).asked).eraseDups

/-- **Everything is observed once**: the cache of a session without named remainders
    observes everything at most once, without loss, and in the order of the patterns. -/
theorem Session.observes_once {turns : List Turn} {s : State} (h : Session turns s)
    (hfree : ∀ turn ∈ turns, turn.call.toPattern.remainderFree) : ObservedOnce turns s := by
  have hsound := h.sound
  obtain ⟨hlog, haccounts⟩ := h.accounts
  obtain ⟨hcopies, horder⟩ := h.asks hfree hsound.covers_snapshot
  refine ⟨hlog, haccounts, ?_, ?_, ?_, ?_, ?_, horder⟩
  · intro r k
    rw [Cache.countP_reads hcopies, hsound.faithful.readings]
    exact Option.length_toList_le
  · intro r
    rw [Cache.countP_opens, hsound.faithful.openings]
    exact Option.length_toList_le
  · intro r i hi
    rw [hsound.faithful.openings] at hi
    have hsource : s.cache.sources.get? r = some i := Option.mem_toList.1 hi
    rw [State.iteratorFor, hsource]
  · intro i start hstart honly
    rw [hsound.faithful.values_eq, h.pulled i start hstart honly]
  · exact (h.leads.orderly Store.orderly_empty).last

/-- Two matches of one object read its property once and make one iterator, which only
    they advance. -/
theorem Session.observes_once_fickle :
    ObservedOnce Fickle.turns Fickle.finish ∧ Fickle.finish.OnlyAdvances 0 0 ∧
      Fickle.finish.store.pulledFrom 0 0 = [.text "one", .text "two"] ∧
        Fickle.finish.cache.questions =
          [.property (.object 0) ⟨"a"⟩, .iterator (.iterator 0), .position 0 0, .position 0 1,
            .position 0 2] := by
  refine ⟨Session.observes_once Fickle.session (by decide), ?_, by decide, by decide⟩
  intro n turn output _ hget
  have hlt : n < 4 := (List.getElem?_eq_some_iff.1 hget).1
  have hall : ∀ n < 4, (Fickle.finish.store.events[n]?.bind (Event.output? 0)).isSome →
      ∃ e ∈ Fickle.finish.cache.log, (e.access.step? 0).isSome ∧ e.start ≤ n ∧ n < e.stop := by
    decide
  exact hall n hlt (by rw [hget]; rfl)

end StructuralMatch
