import StructuralMatch.Proofs.Halting
import StructuralMatch.Proofs.Quiet
import StructuralMatch.Proofs.Store.Supply
import StructuralMatch.Proofs.Visits

/-! # The footprint of an array match

    How far an array pattern advances an iterator, and what the cache remembers of it,
    depends on the length of its body, on the rest marker, and on the values that the
    iterator has still to give (`Store.Supplies`).  `Session.array_footprint` says it
    for every case.

    Parts without array patterns and custom matchers only look at properties.  What
    they leave alone is said by `Looks`; that the getters among them spare the cells of
    the iterator is a condition on what happened in the course of their accesses. -/

namespace StructuralMatch

/-! ## Parts that only look -/

/-- Whether a pattern is neither an array pattern nor a custom matcher. -/
def Pattern.plain : Pattern → Bool
  | .array _ => false
  | .custom _ => false
  | _ => true

/-- Whether an access is that of a property or a copy of properties. -/
def Access.Looks : Access → Prop
  | .read _ _ _ | .remainder _ _ => True
  | _ => False

/-- What happened in the course of an access. -/
def Entry.course (e : Entry) (σ : Store) : List Event := (σ.events.take e.stop).drop e.start

namespace State

variable {s t u : State}

/-- Nothing was done but to look at properties. -/
structure Looks (s t : State) : Prop where
  memos : t.cache.memos = s.cache.memos
  sources : t.cache.sources = s.cache.sources
  opened : t.cache.opened = s.cache.opened
  log : ∃ es, t.cache.log = s.cache.log ++ es ∧ ∀ e ∈ es, e.access.Looks

theorem Looks.refl (s : State) : Looks s s := ⟨rfl, rfl, rfl, [], (List.append_nil _).symm, by simp⟩

theorem Looks.trans (h₁ : Looks s t) (h₂ : Looks t u) : Looks s u := by
  obtain ⟨es, hlog, hes⟩ := h₁.log
  obtain ⟨fs, hlog', hfs⟩ := h₂.log
  refine ⟨h₂.memos.trans h₁.memos, h₂.sources.trans h₁.sources, h₂.opened.trans h₁.opened,
    es ++ fs, by rw [hlog', hlog, List.append_assoc], ?_⟩
  intro e he
  rcases List.mem_append.1 he with he | he
  · exact hes e he
  · exact hfs e he

theorem read_looks (s : State) (v : Value) (k : Key) : Looks s (s.read v k).2 := by
  cases v with
  | prim p => exact .refl s
  | ref r =>
      rw [read]
      dsimp only [Value.identity]
      split
      · exact .refl s
      · exact ⟨rfl, rfl, rfl, [_], rfl, by simp [Access.Looks]⟩

/-- Parts without array patterns and custom matchers only look. -/
theorem looks_carried : Carried Pattern.plain Looks where
  refl := .refl
  trans := fun _ _ => .trans
  register := by
    intro s v
    cases v with
    | prim p => exact .refl s
    | ref r =>
        show Looks s { s with cache := s.cache.visit r }
        rw [Cache.visit]
        split
        · exact .refl s
        · exact ⟨rfl, rfl, rfl, [], (List.append_nil _).symm, by simp⟩
  read := fun {s} _ v k _ _ => s.read_looks v k
  remainder := fun _ _ => ⟨rfl, rfl, rfl, [_], rfl, by simp [Access.Looks]⟩
  iteratorFor := fun harray => nomatch harray
  step := fun harray => nomatch harray
  drainFrom := fun harray => nomatch harray
  collect := fun harray => nomatch harray
  consult := fun hcustom => nomatch hcustom

/-- Entries that were put down from this place of the log on, the accesses to properties
    among which spared the cells. -/
def Undisturbed (cells : Nat → Prop) (base : Nat) (final : State) : Prop :=
  ∀ e ∈ final.cache.log.drop base, e.access.Looks →
    ∀ event ∈ e.course final.store, event.Spares cells

/-- Looking that spares the cells is a run that spares them. -/
theorem Accounts.spares {cells : Nat → Prop} {es : List Entry} {σ τ υ : Store}
    (h : Accounts es σ τ) (hlater : τ.Leads υ)
    (hes : ∀ e ∈ es, ∀ event ∈ e.course υ, event.Spares cells) :
    σ.Reaches (Event.Spares cells) τ := by
  induction h with
  | nil => exact .refl _
  | @snoc es σ τ ρ a before effect ih =>
      obtain ⟨new, hnew, -⟩ := effect.leads.events
      obtain ⟨more, hmore, -⟩ := hlater.events
      have hfirst := ih (effect.leads.trans hlater) fun e he =>
        hes e (List.mem_append_left _ he)
      have hcourse : Entry.course ⟨a, τ.trace.size, ρ.trace.size⟩ υ = new := by
        rw [Entry.course, hmore, Store.trace_size, Store.trace_size, List.take_left', hnew,
          List.drop_left]
        rfl
      refine hfirst.trans (effect.leads.of_events hnew fun event hevent => ?_)
      exact hes _ (List.mem_append_right _ (List.mem_singleton_self _)) event (hcourse ▸ hevent)

/-- A part that only looks spares the cells if nothing disturbs them. -/
theorem Looks.spares {cells : Nat → Prop} {base : Nat} {final : State} (h : Looks s t)
    (hworks : Works s t) (hlater : Works t final) (hbase : base ≤ s.cache.log.length)
    (hquiet : Undisturbed cells base final) : s.store.Reaches (Event.Spares cells) t.store := by
  obtain ⟨es, hlog, haccounts⟩ := hworks.accounts
  obtain ⟨looks, hlooks, hall⟩ := h.log
  have hsame : looks = es := List.append_cancel_left (hlooks.symm.trans hlog)
  subst hsame
  obtain ⟨more, hmore⟩ := hlater.log_extends
  refine haccounts.spares hlater.leads fun e he => ?_
  refine hquiet e ?_ (hall e he)
  rw [← hmore, hlog, List.append_assoc, List.drop_append_of_le_length hbase]
  exact List.mem_append_right _ (List.mem_append_left _ he)

end State

/-! ## Positional reads and drains -/

namespace Memo

/-- What is known of an iterator after positional reads, and without a drain. -/
def reads (vs : List Value) (ended : Bool) : Memo := ⟨Step.run vs ended, [], false⟩

/-- What is known after positional reads and a drain of the rest. -/
def drain (vs tail : List Value) : Memo := ⟨Step.run vs false, tail, true⟩

theorem stands_reads (vs : List Value) (ended : Bool) : (reads vs ended).Stands vs ended := by
  cases ended with
  | false => simpa [reads, Step.run_false] using Stands.going vs []
  | true => simpa [reads, Step.run_true] using Stands.stepped vs

/-- After a positional read something is known. -/
theorem reads_ne_empty {vs : List Value} {ended : Bool} (h : vs ≠ [] ∨ ended = true) :
    reads vs ended ≠ {} := by
  intro hempty
  have hsteps : Step.run vs ended = [] := congrArg Memo.steps hempty
  rw [Step.run, List.append_eq_nil_iff] at hsteps
  rcases h with hvs | rfl
  · exact hvs (List.map_eq_nil_iff.1 hsteps.1)
  · cases hsteps.2

theorem settled_reads (vs : List Value) (ended : Bool) : (reads vs ended).Settled := fun _ => rfl

end Memo

namespace State

variable {s t u : State}

/-- Between two states an iterator was advanced by so many values, and its memo is this one
    afterwards.  No other iterator was opened, taken charge of or advanced. -/
structure Advances (i : Nat) (s t : State) (m : Memo) (count : Nat) : Prop where
  memo : t.cache.memo (.cell i) = m
  others : ∀ g, g ≠ .cell i → t.cache.memos.get? g = s.cache.memos.get? g
  sources : t.cache.sources = s.cache.sources
  opened : (t.cache.adopt (.cell i)).opened = (s.cache.adopt (.cell i)).opened
  pulled : t.store.pulledBy i = s.store.pulledBy i + count

variable {i : Nat} {m m' : Memo} {count more : Nat}

theorem Advances.trans (h₁ : Advances i s t m count) (h₂ : Advances i t u m' more) :
    Advances i s u m' (count + more) where
  memo := h₂.memo
  others := fun g hg => (h₂.others g hg).trans (h₁.others g hg)
  sources := h₂.sources.trans h₁.sources
  opened := h₂.opened.trans h₁.opened
  pulled := by rw [h₂.pulled, h₁.pulled, Nat.add_assoc]

/-- Looking advances nothing. -/
theorem Looks.advances {cells : Nat → Prop} (h : Looks s t) (hi : cells i)
    (hu : s.Usable (.cell i)) (hspares : s.store.Reaches (Event.Spares cells) t.store) :
    Advances i s t (s.cache.memo (.cell i)) 0 where
  memo := by rw [Cache.memo, h.memos, Cache.memo]
  others := fun g _ => by rw [h.memos]
  sources := h.sources
  opened := by
    rw [Cache.adopt, Cache.adopt, h.memos]
    split
    · exact h.opened
    · show t.cache.opened ++ _ = s.cache.opened ++ _
      rw [h.opened]
  pulled := hspares.pulledBy_eq hi (by simpa [Usable, Store.holds] using hu)

/-- Taking charge of the iterator advances nothing. -/
theorem adopt_advances (s : State) (i : Nat) :
    Advances i s (s.adopt (.cell i)) (s.cache.memo (.cell i)) 0 where
  memo := Cache.memo_adopt _ _ _
  others := fun _ hg => Cache.get?_adopt_of_ne (Ne.symm hg) _
  sources := Cache.sources_adopt _ _
  opened := by
    have hknown := Cache.contains_adopt_self s.cache (.cell i)
    show ((s.cache.adopt (.cell i)).adopt (.cell i)).opened = _
    rw [Cache.adopt, if_pos hknown]
  pulled := rfl

/-- Making an array advances nothing. -/
theorem collect_advances (s : State) (i : Nat) (items : List Value) :
    Advances i s (s.collect items).2 (s.cache.memo (.cell i)) 0 where
  memo := rfl
  others := fun _ _ => rfl
  sources := rfl
  opened := by
    have hmemos : (s.collect items).2.cache.memos = s.cache.memos := rfl
    rw [Cache.adopt, Cache.adopt, hmemos]
    split <;> rfl
  pulled := rfl

/-- Advancing it once. -/
theorem pull_advances (hknown : s.cache.memos.contains (.cell i) = true)
    (add : Memo → Step → Memo) :
    Advances i s (s.pull add (.cell i)).2 (add (s.cache.memo (.cell i)) (s.store.next i).1)
      (s.store.next i).1.value?.toList.length where
  memo := (Cache.memo_learn _ _ _ _).trans (if_pos rfl)
  others := fun _ hg => Cache.get?_learn_of_ne (Ne.symm hg) _ _
  sources := rfl
  opened := by
    have hknown' : (s.pull add (.cell i)).2.cache.memos.contains (.cell i) = true :=
      (Cache.contains_learn ..).trans (by simp)
    rw [Cache.adopt, if_pos hknown', Cache.adopt, if_pos hknown]
    rfl
  pulled := s.store.pulledBy_next i

/-- A positional read of the first position that is not known. -/
theorem step_advances {ys : List Value} (hmemo : s.cache.memo (.cell i) = .reads ys false) :
    (s.step (.cell i) ys.length).1 = (s.store.next i).1 ∧
      (s.step (.cell i) ys.length).2.store = (s.store.next i).2 ∧
        Advances i s (s.step (.cell i) ys.length).2
          (.reads (ys ++ (s.store.next i).1.value?.toList) (s.store.next i).1.isDone)
          (s.store.next i).1.value?.toList.length := by
  have hadopted : (s.adopt (.cell i)).cache.memo (.cell i) = .reads ys false :=
    (Cache.memo_adopt _ _ _).trans hmemo
  -- the memo ends right before the position, so the read advances once
  have hunknown : (Memo.reads ys false).at? ys.length = none := by
    rw [(Memo.stands_reads ys false).at?_eq (Memo.settled_reads ys false) (Nat.le_refl _),
      Step.getElem?_run_length]
    rfl
  have hlength : (Memo.reads ys false).steps.length = ys.length := by
    simp [Memo.reads, Step.length_run]
  have hpull := pull_advances (Cache.contains_adopt_self s.cache (.cell i)) Memo.addStep
    (s := s.adopt (.cell i))
  have hadd : (Memo.reads ys false).addStep (s.store.next i).1 =
      .reads (ys ++ (s.store.next i).1.value?.toList) (s.store.next i).1.isDone := by
    rw [Memo.addStep, Memo.reads, Step.run_concat, Memo.reads]
  have hstore : (s.adopt (.cell i)).store = s.store := rfl
  rw [hadopted, hstore, hadd] at hpull
  have hstep : s.step (.cell i) ys.length = ((s.store.next i).1,
      ((s.adopt (.cell i)).pull Memo.addStep (.cell i)).2) := by
    -- the step that was pulled is the last one of the memo
    have hfound : ((((s.adopt (.cell i)).pull Memo.addStep (.cell i)).2.cache.memo
        (.cell i)).steps[ys.length]?).getD .done = (s.store.next i).1 := by
      rw [hpull.memo, Memo.reads, ← Step.run_concat]
      simp [Step.run_false]
    simp only [State.step, hadopted, hunknown, hlength, Nat.add_sub_cancel_left, repeatedly_one]
    rw [hfound]
  rw [hstep]
  refine ⟨rfl, rfl, ?_⟩
  simpa using (s.adopt_advances i).trans hpull

/-- A positional read of an iterator that supplies nothing more. -/
theorem step_exhausted {cells : Nat → Prop} {ys : List Value}
    (hmemo : s.cache.memo (.cell i) = .reads ys false) (hzs : s.store.Supplies cells i []) :
    ∃ t, s.step (.cell i) ys.length = (.done, t) ∧ Advances i s t (.reads ys true) 0 := by
  obtain ⟨hstep, -, hadvances⟩ := step_advances hmemo
  rw [hzs.done] at hstep hadvances
  rw [show Step.done.value?.toList = ([] : List Value) from rfl, List.append_nil] at hadvances
  exact ⟨_, Prod.ext hstep rfl, hadvances⟩

/-- A positional read of an iterator that supplies a value. -/
theorem step_supplied {cells : Nat → Prop} {ys zs : List Value} {x : Value}
    (hmemo : s.cache.memo (.cell i) = .reads ys false)
    (hzs : s.store.Supplies cells i (x :: zs)) :
    ∃ t, s.step (.cell i) ys.length = (.yielded x, t) ∧
      Advances i s t (.reads (ys ++ [x]) false) 1 ∧ t.store.Supplies cells i zs := by
  obtain ⟨hstep, hstore, hadvances⟩ := step_advances hmemo
  obtain ⟨hx, hrest⟩ := hzs.yielded
  rw [hx] at hstep hadvances
  exact ⟨_, Prod.ext hstep rfl, hadvances, hstore ▸ hrest⟩

/-- Advancing an iterator to its end puts what it supplies behind the positional reads. -/
theorem repeatedly_advances {cells : Nat → Prop} {ys : List Value} (zs : List Value) :
    ∀ {s : State} {tail : List Value} (count : Nat), s.Usable (.cell i) →
      s.cache.memos.contains (.cell i) = true →
        s.cache.memo (.cell i) = ⟨Step.run ys false, tail, false⟩ →
          s.store.Supplies cells i zs → s.remaining (.cell i) < count →
            Advances i s (repeatedly (pull Memo.addTail (.cell i)) count s)
              (.drain ys (tail ++ zs)) zs.length := by
  induction zs with
  | nil =>
      intro s tail count hu hknown hmemo hzs hlt
      obtain ⟨count, rfl⟩ : ∃ n, count = n + 1 := ⟨count - 1, by omega⟩
      have hfirst := pull_advances hknown Memo.addTail
      -- with nothing left to supply, the first pull reports exhaustion
      have hstep : (s.pull Memo.addTail (.cell i)).1 = .done := hzs.done
      rw [hmemo, hzs.done] at hfirst
      rw [repeatedly]
      generalize s.pull Memo.addTail (.cell i) = pulled at hfirst hstep ⊢
      obtain ⟨step, t⟩ := pulled
      subst hstep
      rw [List.append_nil]
      exact hfirst
  | cons x zs ih =>
      intro s tail count hu hknown hmemo hzs hlt
      obtain ⟨count, rfl⟩ : ∃ n, count = n + 1 := ⟨count - 1, by omega⟩
      obtain ⟨hx, hrest⟩ := hzs.yielded
      have hfirst := pull_advances hknown Memo.addTail
      have hstep : (s.pull Memo.addTail (.cell i)).1 = .yielded x := hx
      have hstore : (s.pull Memo.addTail (.cell i)).2.store = (s.store.next i).2 := rfl
      -- what the iterator can still yield bounds the pulls that follow
      have hless := remaining_pull_lt hu Memo.addTail hstep
      have hu' : (s.pull Memo.addTail (.cell i)).2.Usable (.cell i) :=
        (Store.next_reaches s.store i).keeps.holds hu
      have hknown' : (s.pull Memo.addTail (.cell i)).2.cache.memos.contains (.cell i) = true :=
        (Cache.contains_learn ..).trans (by simp)
      rw [hmemo, hx] at hfirst
      rw [← hstore] at hrest
      rw [repeatedly]
      generalize s.pull Memo.addTail (.cell i) = pulled at hfirst hstep hrest hless hu' hknown' ⊢
      obtain ⟨step, t⟩ := pulled
      subst hstep
      have hlater := ih count hu' hknown' hfirst.memo hrest (by omega)
      have hall := hfirst.trans hlater
      rwa [List.append_assoc, Nat.add_comm] at hall

/-- A drain behind positional reads. -/
theorem drainFrom_advances {cells : Nat → Prop} {ys zs : List Value} (hu : s.Usable (.cell i))
    (hmemo : s.cache.memo (.cell i) = .reads ys false) (hzs : s.store.Supplies cells i zs) :
    (s.drainFrom (.cell i) ys.length).1 = zs ∧
      Advances i s (s.drainFrom (.cell i) ys.length).2 (.drain ys zs) zs.length := by
  have hadopted : (s.adopt (.cell i)).cache.memo (.cell i) = .reads ys false :=
    (Cache.memo_adopt _ _ _).trans hmemo
  have hdrop : (Memo.reads ys false).steps.drop ys.length = [] :=
    List.drop_eq_nil_of_le (by simp [Memo.reads, Step.length_run])
  have hlength : (Memo.reads ys false).steps.length = ys.length := by
    simp [Memo.reads, Step.length_run]
  have hdrains := repeatedly_advances zs (s := s.adopt (.cell i))
    ((s.adopt (.cell i)).remaining (.cell i) + 1) hu (Cache.contains_adopt_self _ _) hadopted hzs
    (Nat.lt_succ_self _)
  have hdrain : (s.adopt (.cell i)).drain (.cell i) =
      repeatedly (pull Memo.addTail (.cell i)) ((s.adopt (.cell i)).remaining (.cell i) + 1)
        (s.adopt (.cell i)) := by
    rw [State.drain, hadopted]
    rfl
  rw [← hdrain, List.nil_append] at hdrains
  have hfrom : s.drainFrom (.cell i) ys.length =
      (zs, (s.adopt (.cell i)).drain (.cell i)) := by
    simp only [State.drainFrom, hadopted, hdrop, hlength, hdrains.memo]
    simp [Memo.drain, Memo.valuesOf]
  rw [hfrom]
  refine ⟨rfl, ?_⟩
  simpa using (s.adopt_advances i).trans hdrains

end State

/-! ## The body of an array pattern -/

open State

/-- A part without custom matchers does not fail. -/
theorem matchAt_not_failed {p : Pattern} (hplain : p.every Pattern.plain = true)
    (place : Option Key) {v : Value} {s : State} (hs : s.Sound) (hset : s.Settled)
    (held : s.store.holds v = true) (e : MatchError) : (matchAt p place v s).1 ≠ .failed e := by
  intro hfailed
  obtain ⟨hverdicts, houtcome⟩ := matchAt_attested p place v s
  obtain ⟨es, hlog, hlooks⟩ := (matchAt_carries looks_carried p place v s hplain hs hset held).log
  -- a failure is that of a custom matcher, whose verdict would be in the log
  have hnone : (visitsAt p place v s).filterMap Visit.verdict? = [] := by
    have hes : es.filterMap (·.access.verdict?) = [] := by
      rw [List.filterMap_eq_nil_iff]
      intro e he
      have hlook := hlooks e he
      cases haccess : e.access with
      | consulted m verdict =>
          rw [haccess] at hlook
          exact hlook.elim
      | _ => rfl
    rw [Cache.verdicts, hlog, List.filterMap_append, hes, List.append_nil] at hverdicts
    exact List.append_right_eq_self.1 hverdicts.symm
  generalize matchAt p place v s = run at hfailed houtcome
  obtain ⟨verdict, t⟩ := run
  dsimp only at hfailed houtcome
  subst hfailed
  cases houtcome with
  | @failed m w e fault =>
      obtain ⟨before, hvisits, -⟩ := fault.last
      have hverdict : w.verdict? = some (.failed e) := by
        rw [Visit.verdict?, fault.custom, ← fault.fails]
      rw [List.filterMap_eq_nil_iff, hvisits] at hnone
      have hnot := hnone w (List.mem_append_right _ (List.mem_singleton_self w))
      rw [hverdict] at hnot
      cases hnot

/-- A part that only looks, and spares the iterator, leaves it as it was when a value had
    been read for the part. -/
theorem matchAt_passes {cells : Nat → Prop} {i : Nat} (hi : cells i) {base : Nat} {final : State}
    (hquiet : Undisturbed cells base final) {p : Pattern} (hplain : p.every Pattern.plain = true)
    (place : Option Key) {x : Value} {s t : State} {ys zs : List Value} (ht : t.Sound)
    (hset : t.Settled) (hx : t.store.holds x = true) (hu : t.Usable (.cell i))
    (hbase : base ≤ t.cache.log.length) (hread : Advances i s t (.reads ys false) 1)
    (hzs : t.store.Supplies cells i zs) (hlater : Works (matchAt p place x t).2 final) :
    Advances i s (matchAt p place x t).2 (.reads ys false) 1 ∧
      (matchAt p place x t).2.store.Supplies cells i zs := by
  have hworks := (matchAt_proceeds p place x t ht hset hx).works
  have hlooks := matchAt_carries looks_carried p place x t hplain ht hset hx
  have hspares := hlooks.spares hworks hlater hbase hquiet
  have hsame := hlooks.advances hi hu hspares
  rw [hread.memo] at hsame
  exact ⟨hread.trans hsame, hzs.after hspares⟩

/-- The rest marker at the end of elements, on its own. -/
def Pattern.marker (elements : List (Option Pattern)) : List (Option Pattern) :=
  match (splitRest elements).2 with
  | some name => [some (.rest name)]
  | none => []

theorem Pattern.marker_cons {e : Option Pattern} {elements : List (Option Pattern)}
    (h : ∀ p, e = some p → p.trailing? elements = none) :
    marker (e :: elements) = marker elements := by
  rw [marker, splitRest_cons h, marker]

/-- How matching a body of `n` elements ends at an iterator that has given `ys` and supplies
    `zs`, where the rest marker comes after it. -/
inductive BodyEnds (cells : Nat → Prop) (i n : Nat) (marker : List (Option Pattern))
    (ys zs : List Value) (s : State) : Option Halt → Verdict Bindings × State → Prop where
  /-- A part does not match. -/
  | declined {k : Nat} {u : State} (inside : k < n) (given : k < zs.length)
      (advances : Advances i s u (.reads (ys ++ zs.take (k + 1)) false) (k + 1)) :
      BodyEnds cells i n marker ys zs s (some ⟨ys.length + k, .declined, u⟩) (.unmatched, u)
  /-- The values do not suffice. -/
  | absent {u : State} (short : zs.length < n)
      (advances : Advances i s u (.reads (ys ++ zs) true) zs.length) :
      BodyEnds cells i n marker ys zs s (some ⟨ys.length + zs.length, .absent, u⟩) (.unmatched, u)
  /-- All elements match. -/
  | through {c : Bindings} {u : State} (enough : n ≤ zs.length)
      (advances : Advances i s u (.reads (ys ++ zs.take n) false) n)
      (sound : u.Sound) (settled : u.Settled) (usable : u.Usable (.cell i))
      (supplies : u.store.Supplies cells i (zs.drop n)) :
      BodyEnds cells i n marker ys zs s none
        (matchElements marker (.cell i) (ys.length + n) c u)

section Body

variable {cells : Nat → Prop} {i n : Nat} {marker : List (Option Pattern)} {ys zs : List Value}
  {x : Value} {s u : State} {halt : Option Halt} {run : Verdict Bindings × State}

/-- One more element in front, for which the iterator gave a value. -/
theorem BodyEnds.cons (hfirst : Advances i s u (.reads (ys ++ [x]) false) 1)
    (h : BodyEnds cells i n marker (ys ++ [x]) zs u halt run) :
    BodyEnds cells i (n + 1) marker ys (x :: zs) s halt run := by
  cases h with
  | @declined k w inside given advances =>
      have hposition : (ys ++ [x]).length + k = ys.length + (k + 1) := by simp; omega
      rw [hposition]
      refine .declined (Nat.succ_lt_succ inside) (Nat.succ_lt_succ given) ?_
      have hall := hfirst.trans advances
      rwa [List.append_assoc, Nat.add_comm 1] at hall
  | @absent w short advances =>
      have hposition : (ys ++ [x]).length + zs.length = ys.length + (x :: zs).length := by
        simp; omega
      rw [hposition]
      refine .absent (Nat.succ_lt_succ short) ?_
      have hall := hfirst.trans advances
      rwa [List.append_assoc, Nat.add_comm 1] at hall
  | @through c w enough advances sound settled usable supplies =>
      have hposition : (ys ++ [x]).length + n = ys.length + (n + 1) := by simp; omega
      rw [hposition]
      refine .through (Nat.succ_le_succ enough) ?_ sound settled usable supplies
      have hall := hfirst.trans advances
      rwa [List.append_assoc, Nat.add_comm 1] at hall

/-- The first position up to which nothing was taken. -/
theorem BodyEnds.start (hs : s.Sound) (hset : s.Settled)
    (hmemo : s.cache.memo (.cell i) = .reads ys false) (hu : s.Usable (.cell i))
    (hzs : s.store.Supplies cells i zs) (b : Bindings) :
    BodyEnds cells i 0 marker ys zs s none (matchElements marker (.cell i) ys.length b s) := by
  have hnothing : Advances i s s (.reads (ys ++ zs.take 0) false) 0 :=
    ⟨by rw [hmemo, List.take_zero, List.append_nil], fun _ _ => rfl, rfl, rfl, rfl⟩
  exact .through (Nat.zero_le _) hnothing hs hset hu hzs

end Body

/-- Matching the elements of an array pattern whose parts only look, at an iterator that
    has given some values and supplies others. -/
theorem matchElements_body {cells : Nat → Prop} {i : Nat} (hi : cells i) {base : Nat}
    {final : State} (hquiet : Undisturbed cells base final) (elements : List (Option Pattern)) :
    ∀ (b : Bindings) (s : State) (ys zs : List Value),
      Pattern.everyElement Pattern.plain elements = true → s.Sound → s.Settled →
        s.Usable (.cell i) → s.cache.memo (.cell i) = .reads ys false →
          s.store.Supplies cells i zs → base ≤ s.cache.log.length →
            (matchElements elements (.cell i) ys.length b s).2 = final →
              BodyEnds cells i (Pattern.splitRest elements).1.length (Pattern.marker elements)
                ys zs s (haltElements elements (.cell i) ys.length s)
                (matchElements elements (.cell i) ys.length b s) := by
  induction elements with
  | nil =>
      intro b s ys zs _ hs hset hu hmemo hzs hbase hfinal
      exact .start hs hset hmemo hu hzs b
  | cons element elements ih =>
      intro b s ys zs hplain hs hset hu hmemo hzs hbase hfinal
      have hreached : s.Reached (.cell i) ys.length :=
        ⟨ys, false, hmemo ▸ Memo.stands_reads ys false, Nat.le_refl _⟩
      obtain ⟨hlook, hyielded⟩ := step_reached hs hset hu hreached
      have ht := hlook.works.sound hs
      have hu' := hlook.works.usable hu
      have hlog := Nat.le_trans hbase hlook.works.log_extends.length_le
      cases element with
      | none =>
          rw [Pattern.everyElement] at hplain
          rw [Pattern.splitRest_cons (by simp), Pattern.marker_cons (by simp), List.length_cons,
            haltElements]
          rw [matchElements] at hfinal ⊢
          cases zs with
          | nil =>
              -- the iterator ends at the hole
              obtain ⟨t, hstep, hadvances⟩ := step_exhausted hmemo hzs
              rw [hstep]
              exact .absent (Nat.succ_pos _) (by rwa [List.append_nil])
          | cons x zs =>
              obtain ⟨t, hstep, hadvances, hsupplies⟩ := step_supplied hmemo hzs
              rw [hstep] at hlook ht hu' hlog hfinal ⊢
              have hlength : (ys ++ [x]).length = ys.length + 1 := by simp
              dsimp only at hfinal ⊢
              rw [← hlength] at hfinal ⊢
              exact (ih b t (ys ++ [x]) zs hplain ht hlook.settled hu' hadvances.memo hsupplies
                hlog hfinal).cons hadvances
      | some p =>
          cases htrailing : p.trailing? elements with
          | some name =>
              -- the rest marker stands behind the body, where nothing has been taken
              obtain ⟨rfl, rfl⟩ : p = .rest name ∧ elements = [] := by
                cases p <;> cases elements <;> simp_all [Pattern.trailing?]
              exact .start hs hset hmemo hu hzs b
          | none =>
              have hbody : ∀ q, some p = some q → q.trailing? elements = none := by
                rintro q ⟨⟩
                exact htrailing
              rw [Pattern.everyElement, Bool.and_eq_true] at hplain
              rw [Pattern.splitRest_cons hbody, Pattern.marker_cons hbody, List.length_cons,
                haltElements, htrailing]
              rw [matchElements, htrailing] at hfinal ⊢
              dsimp only at hfinal ⊢
              cases zs with
              | nil =>
                  -- the iterator ends before the part is put against a value
                  obtain ⟨t, hstep, hadvances⟩ := step_exhausted hmemo hzs
                  rw [hstep]
                  exact .absent (Nat.succ_pos _) (by rwa [List.append_nil])
              | cons x zs =>
                  obtain ⟨t, hstep, hadvances, hsupplies⟩ := step_supplied hmemo hzs
                  obtain ⟨hr, hx⟩ := hyielded x (by rw [hstep])
                  rw [hstep] at hlook ht hu' hlog hfinal hr hx ⊢
                  dsimp only at hlook ht hu' hlog hfinal hr hx ⊢
                  have hpart := matchAt_proceeds p (some (.index ys.length)) x t ht hlook.settled hx
                  have hpasses := matchAt_passes hi hquiet hplain.1 (some (.index ys.length))
                    ht hlook.settled hx hu' hlog hadvances hsupplies
                  have hnot := matchAt_not_failed hplain.1 (some (.index ys.length)) ht
                    hlook.settled hx
                  have hw := hpart.works.sound ht
                  have hr' := hpart.works.reached hr
                  generalize matchAt p (some (.index ys.length)) x t = matched at *
                  rcases matched with ⟨c | _ | e, u⟩
                  · have hlength : (ys ++ [x]).length = ys.length + 1 := by simp
                    have hthere := hpart.works.usable hu'
                    have hrest := matchElements_proceeds elements (.cell i) (ys.length + 1)
                      (b.merge c) u hw hpart.settled hthere hr'
                    dsimp only at hfinal ⊢
                    rw [hfinal] at hrest
                    -- the part only looked, so the iterator still has the other values to give
                    obtain ⟨hall, hgiven⟩ := hpasses hrest.works
                    rw [← hlength] at hfinal ⊢
                    exact (ih (b.merge c) u (ys ++ [x]) zs hplain.2 hw hpart.settled hthere hall.memo
                      hgiven (Nat.le_trans hlog hpart.works.log_extends.length_le) hfinal).cons hall
                  · -- the part declined, and the match ends here
                    obtain rfl : u = final := hfinal
                    exact .declined (k := 0) (Nat.succ_pos _) (Nat.succ_pos _) (hpasses (.refl u)).1
                  · exact absurd rfl (hnot e)

/-! ## Behind the body -/

section Finish

variable {cells : Nat → Prop} {i : Nat} {ys zs : List Value} {x : Value} {s : State}

/-- Without a rest marker the match succeeds when the iterator has nothing more to give. -/
theorem finish_exhausted (hmemo : s.cache.memo (.cell i) = .reads ys false)
    (hzs : s.store.Supplies cells i []) (c : Bindings) :
    ∃ t, matchElements [] (.cell i) ys.length c s = (.matched c, t) ∧
      Advances i s t (.reads ys true) 0 := by
  obtain ⟨t, hstep, hadvances⟩ := step_exhausted hmemo hzs
  refine ⟨t, ?_, hadvances⟩
  rw [matchElements, hstep]
  rfl

/-- Without a rest marker the match ends at the first value too many. -/
theorem finish_supplied (hmemo : s.cache.memo (.cell i) = .reads ys false)
    (hzs : s.store.Supplies cells i (x :: zs)) (c : Bindings) :
    ∃ t, matchElements [] (.cell i) ys.length c s = (.unmatched, t) ∧
      Advances i s t (.reads (ys ++ [x]) false) 1 := by
  obtain ⟨t, hstep, hadvances, -⟩ := step_supplied hmemo hzs
  refine ⟨t, ?_, hadvances⟩
  rw [matchElements, hstep]
  rfl

/-- A rest marker takes everything, and binds it in an array if it has a name. -/
theorem finish_rest (hs : s.Sound) (hset : s.Settled) (hu : s.Usable (.cell i))
    (hmemo : s.cache.memo (.cell i) = .reads ys false) (hzs : s.store.Supplies cells i zs)
    (name : Option Key) (c : Bindings) :
    ∃ d t, matchElements [some (.rest name)] (.cell i) ys.length c s = (.matched d, t) ∧
      Advances i s t (.drain ys zs) zs.length ∧
        ∀ key, name = some key → ∃ cell : Nat, d.get? key = some (.ref (.array cell)) ∧
          t.store.arrays[cell]? = some zs := by
  have hreached : s.Reached (.cell i) ys.length :=
    ⟨ys, false, hmemo ▸ Memo.stands_reads ys false, Nat.le_refl _⟩
  obtain ⟨-, hheld⟩ := drainFrom_proceeds hs hset hu hreached
  obtain ⟨hitems, hadvances⟩ := drainFrom_advances hu hmemo hzs
  rw [hitems] at hheld
  have hmatch : matchElements [some (.rest name)] (.cell i) ys.length c s =
      (.matched (bindCollected name (s.drainFrom (.cell i) ys.length).1 c
          (s.drainFrom (.cell i) ys.length).2).1,
        (bindCollected name (s.drainFrom (.cell i) ys.length).1 c
          (s.drainFrom (.cell i) ys.length).2).2) := by
    rw [matchElements]
    rfl
  rw [hmatch, hitems]
  generalize (s.drainFrom (.cell i) ys.length).2 = t at hheld hadvances ⊢
  cases name with
  | none => exact ⟨_, _, rfl, hadvances, fun key hkey => nomatch hkey⟩
  | some key =>
      have hcollect := t.collect_advances i zs
      rw [hadvances.memo] at hcollect
      refine ⟨_, _, rfl, hadvances.trans hcollect, ?_⟩
      rintro key' ⟨⟩
      refine ⟨t.store.arrays.size, ?_, collect_array hheld⟩
      simp [bindCollected, State.collect, Store.newArray]

end Finish

/-! ## The footprint -/

/-- What an array match leaves behind: what is remembered of the iterator, and how many
    values it has yielded meanwhile.  The cache has taken charge of this iterator, and of
    others it knows what it knew. -/
structure Footprint (s t : State) (i : Nat) (steps : List Step) (count : Nat) : Prop where
  steps : t.cache.steps? i = some steps
  pulled : t.store.pulledBy i = s.store.pulledBy i + count
  others : ∀ g, g ≠ .cell i → t.cache.memos.get? g = s.cache.memos.get? g
  sources : t.cache.sources = s.cache.sources
  opened : t.cache.opened = s.cache.opened ++ [.cell i]

/-- What the match leaves behind of an iterator that the cache had not seen. -/
theorem State.Advances.footprint {i : Nat} {s t : State} {m : Memo} {count : Nat}
    (h : Advances i s t m count) (hm : m ≠ {}) (unseen : s.cache.steps? i = none) :
    Footprint s t i m.steps count := by
  have hget : t.cache.memos.get? (.cell i) = some m := by
    have hmemo := h.memo
    rw [Cache.memo] at hmemo
    cases hknown : t.cache.memos.get? (.cell i) with
    | none => exact absurd (by rw [← hmemo, hknown]; rfl) hm
    | some m' => rw [← hmemo, hknown]; rfl
  have hnew : s.cache.memos.get? (.cell i) = none := Option.map_eq_none_iff.1 unseen
  refine ⟨by rw [Cache.steps?, hget]; rfl, h.pulled, h.others, h.sources, ?_⟩
  have hopened := h.opened
  rw [Cache.adopt, Cache.adopt, Assoc.contains, Assoc.contains, hget, hnew] at hopened
  exact hopened

/-- **The footprint of an array match**, for an iterator that the cache has not seen and that
    supplies `xs`, and for a pattern with a body of `n` elements that only look at
    properties, in a way that spares the iterator. -/
theorem Session.array_footprint {turns : List Turn} {s : State} (h : Session turns s) {i : Nat}
    (held : s.store.holds (.ref (.iterator i)) = true) (unseen : s.cache.steps? i = none)
    (cells : Nat → Prop) (hi : cells i) {xs : List Value} (hxs : s.store.Supplies cells i xs)
    {a : ArrayPattern} (hplain : Pattern.everyElement Pattern.plain a.elements = true)
    (hquiet : Undisturbed cells s.cache.log.length (matchArray a i s).2) :
    -- the first part that does not match, at position `k`
    (∀ halt k, a.haltOn? i s = some halt → halt.obstacle = .declined → halt.position = k →
      k < a.body.length ∧ k < xs.length ∧ (matchArray a i s).1 = .unmatched ∧
        Footprint s (matchArray a i s).2 i ((xs.take (k + 1)).map .yielded) (k + 1)) ∧
    -- or no such part
    ((∀ halt, a.haltOn? i s = some halt → halt.obstacle ≠ .declined) →
      (xs.length < a.body.length → (matchArray a i s).1 = .unmatched ∧
        Footprint s (matchArray a i s).2 i (Step.run xs true) xs.length) ∧
      ((Pattern.splitRest a.elements).2 = none → xs.length = a.body.length →
        (∃ b, (matchArray a i s).1 = .matched b) ∧
          Footprint s (matchArray a i s).2 i (Step.run xs true) xs.length) ∧
      ((Pattern.splitRest a.elements).2 = none → a.body.length < xs.length →
        (matchArray a i s).1 = .unmatched ∧
          Footprint s (matchArray a i s).2 i ((xs.take (a.body.length + 1)).map .yielded)
            (a.body.length + 1)) ∧
      ∀ name, (Pattern.splitRest a.elements).2 = some name → a.body.length ≤ xs.length →
        ∃ b, (matchArray a i s).1 = .matched b ∧
          Footprint s (matchArray a i s).2 i ((xs.take a.body.length).map .yielded) xs.length ∧
            ∀ key, name = some key → ∃ cell : Nat, b.get? key = some (.ref (.array cell)) ∧
              (matchArray a i s).2.store.arrays[cell]? = some (xs.drop a.body.length)) := by
  have hmemo : s.cache.memo (.cell i) = .reads [] false := by
    rw [Cache.memo, Option.map_eq_none_iff.1 unseen]
    rfl
  -- first the body: a part declined, or the iterator ended within it, or it was passed
  have hbody := matchElements_body hi hquiet a.elements .empty s [] xs hplain h.sound h.settled held
    hmemo hxs (Nat.le_refl _) rfl
  have hrun : matchElements a.elements (.cell i) ([] : List Value).length .empty s =
      matchArray a i s := rfl
  have hhalt : haltElements a.elements (.cell i) ([] : List Value).length s = a.haltOn? i s := rfl
  have hn : (Pattern.splitRest a.elements).1.length = a.body.length := rfl
  rw [hrun, hhalt, hn] at hbody
  generalize matchArray a i s = run at hbody ⊢
  generalize a.haltOn? i s = halted at hbody ⊢
  generalize a.body.length = n at hbody ⊢
  cases hbody with
  | @declined k u inside given advances =>
      -- the value that was declined was taken as well
      have hsome : [] ++ xs.take (k + 1) ≠ [] := by
        simpa using List.ne_nil_of_length_pos (Nat.zero_lt_of_lt given)
      have hfoot := advances.footprint (Memo.reads_ne_empty (.inl hsome)) unseen
      rw [Memo.reads, Step.run_false, List.nil_append] at hfoot
      refine ⟨?_, fun hnot => absurd rfl (hnot _ rfl)⟩
      rintro halt j ⟨⟩ - rfl
      dsimp only
      rw [List.length_nil, Nat.zero_add]
      exact ⟨inside, given, rfl, hfoot⟩
  | @absent u short advances =>
      -- all values were taken, and so was the report of exhaustion
      have hfoot := advances.footprint (Memo.reads_ne_empty (.inr rfl)) unseen
      rw [Memo.reads, List.nil_append] at hfoot
      refine ⟨?_, fun _ => ⟨fun _ => ⟨rfl, hfoot⟩, ?_, ?_, ?_⟩⟩
      · rintro halt j ⟨⟩ hdeclined
        cases hdeclined
      · intro _ hlength
        omega
      · intro _ hlength
        omega
      · intro name _ hlength
        omega
  | @through c u enough advances sound settled usable supplies =>
      have hmemo := advances.memo
      rw [List.nil_append] at hmemo
      -- behind the body it depends on the marker, and on how many values are left
      have hposition : ([] : List Value).length + n = (xs.take n).length := by
        rw [List.length_nil, Nat.zero_add, List.length_take_of_le enough]
      rw [hposition]
      refine ⟨?_, fun _ => ⟨fun hlength => absurd enough (Nat.not_le.2 hlength), ?_, ?_, ?_⟩⟩
      · rintro halt j ⟨⟩
      · intro hrest hlength
        have hmarker : Pattern.marker a.elements = [] := by rw [Pattern.marker, hrest]
        rw [List.drop_eq_nil_of_le (Nat.le_of_eq hlength)] at supplies
        obtain ⟨t, hmatch, hadvances⟩ := finish_exhausted hmemo supplies c
        have hfoot := (advances.trans hadvances).footprint (Memo.reads_ne_empty (.inr rfl)) unseen
        rw [Memo.reads, List.take_of_length_le (Nat.le_of_eq hlength), Nat.add_zero,
          ← hlength] at hfoot
        rw [hmarker, hmatch]
        exact ⟨⟨c, rfl⟩, hfoot⟩
      · intro hrest hlength
        have hmarker : Pattern.marker a.elements = [] := by rw [Pattern.marker, hrest]
        -- one value too many was taken to find out that there is one
        have htake : xs.take n ++ [xs[n]] = xs.take (n + 1) := List.take_append_getElem hlength
        rw [List.drop_eq_getElem_cons hlength] at supplies
        obtain ⟨t, hmatch, hadvances⟩ := finish_supplied hmemo supplies c
        have hsome : xs.take n ++ [xs[n]] ≠ [] := List.append_ne_nil_of_right_ne_nil _ (by simp)
        have hfoot := (advances.trans hadvances).footprint (Memo.reads_ne_empty (.inl hsome)) unseen
        rw [Memo.reads, Step.run_false, htake] at hfoot
        rw [hmarker, hmatch]
        exact ⟨rfl, hfoot⟩
      · intro name hrest hlength
        have hmarker : Pattern.marker a.elements = [some (.rest name)] := by
          rw [Pattern.marker, hrest]
        obtain ⟨d, t, hmatch, hadvances, hbound⟩ :=
          finish_rest sound settled usable hmemo supplies name c
        have hsome : Memo.drain (xs.take n) (xs.drop n) ≠ {} :=
          fun hempty => Bool.noConfusion (congrArg Memo.drained hempty)
        have hfoot := (advances.trans hadvances).footprint hsome unseen
        rw [Memo.drain, Step.run_false, List.length_drop, Nat.add_sub_cancel' enough] at hfoot
        rw [hmarker, hmatch]
        exact ⟨d, rfl, hfoot, hbound⟩

namespace Generator

/-- A generator of an object with a getter and of two texts. -/
def blueprint : Blueprint :=
  .iterator (.mk .generator (.items
    [some (.object (.mk none none [(⟨"a"⟩, .getter (some "a") (.values [.existing (.text "one")]))]
        none)),
      some (.existing (.text "two")), some (.existing (.text "three"))]) none)

/-- A new cache, and the generator. -/
def start : State := { store := (blueprint.build .empty).2 }

/-- What the generator gives. -/
def values : List Value := [.ref (.object 0), .text "two", .text "three"]

/-- The property of the first element, and what is left. -/
def pattern : ArrayPattern where
  elements := [some (.object [(⟨"a"⟩, .identifier (some ⟨"x"⟩))] none), some (.rest (some ⟨"r"⟩))]

theorem session : Session [] start := .start (blueprint.build_reaches .empty)

theorem supplies : start.store.Supplies (· = 0) 0 values := by
  have hheld : ∀ x ∈ values, start.store.holds x = true := by decide
  have hiterator : start.store.iterators[0]? =
      some ⟨.generator, some (.ofValues values), none, 0, false⟩ := rfl
  exact Store.supplies_ofValues (· = 0) rfl values hiterator rfl hheld

/-- The getter runs, and nothing happens to the generator meanwhile. -/
theorem undisturbed : Undisturbed (· = 0) 0 (matchArray pattern 0 start).2 := by
  intro e he hlooks event hevent
  have hlog : (matchArray pattern 0 start).2.cache.log.drop 0 =
      [⟨.advanced 0 0 (.yielded (.ref (.object 0))), 0, 1⟩,
        ⟨.read (.object 0) ⟨"a"⟩ (.text "one"), 1, 2⟩,
        ⟨.advanced 0 1 (.yielded (.text "two")), 2, 3⟩,
        ⟨.advanced 0 2 (.yielded (.text "three")), 3, 4⟩,
        ⟨.advanced 0 3 .done, 4, 5⟩,
        ⟨.collected [.text "two", .text "three"], 5, 5⟩] := by decide
  have hcourse : Entry.course ⟨.read (.object 0) ⟨"a"⟩ (.text "one"), 1, 2⟩
      (matchArray pattern 0 start).2.store = [.ran 0] := by decide
  rw [hlog] at he
  simp only [List.mem_cons, List.not_mem_nil, or_false] at he
  rcases he with rfl | rfl | rfl | rfl | rfl | rfl
  case inr.inl =>
    rw [hcourse, List.mem_singleton] at hevent
    rw [hevent]
    exact fun _ _ htouches => htouches
  all_goals exact hlooks.elim

end Generator

/-- A generator of three values at one element and a rest marker: one positional step is
    remembered, all three values are taken, and the last two are bound. -/
theorem Session.array_footprint_generator :
    ∃ b, (matchArray Generator.pattern 0 Generator.start).1 = .matched b ∧
      Footprint Generator.start (matchArray Generator.pattern 0 Generator.start).2 0
        [.yielded (.ref (.object 0))] 3 ∧
      ∃ cell : Nat, b.get? ⟨"r"⟩ = some (.ref (.array cell)) ∧
        (matchArray Generator.pattern 0 Generator.start).2.store.arrays[cell]? =
          some [.text "two", .text "three"] := by
  have hall := Session.array_footprint Generator.session (by decide) rfl (· = 0) rfl
    Generator.supplies (a := Generator.pattern) (by decide) Generator.undisturbed
  have hthrough : (Generator.pattern.haltOn? 0 Generator.start).isNone = true := by decide
  have hnot : ∀ halt, Generator.pattern.haltOn? 0 Generator.start = some halt →
      halt.obstacle ≠ .declined := by
    intro halt hhalt
    rw [hhalt] at hthrough
    cases hthrough
  obtain ⟨b, hmatched, hfoot, hbound⟩ := (hall.2 hnot).2.2.2 (some ⟨"r"⟩) rfl (by decide)
  exact ⟨b, hmatched, hfoot, hbound _ rfl⟩

end StructuralMatch
