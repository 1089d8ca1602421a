import StructuralMatch.Proofs.Simulation

/-! # Sessions

    A session is the life of one cache: a program calls the engine again and again,
    for whatever values it holds, closes the iterators now and then, and does in
    between whatever programs do.  Every call is put down with its outcome, with what
    it added to the log, and with the store before and after it.

    Every state of a session is sound, and no drain is going on between calls. -/

namespace StructuralMatch

/-! ## Calls -/

/-- A call of the engine. -/
inductive Call where
  | pattern (p : Pattern) (v : Value)
  | object (o : ObjectPattern) (v : Value)
  | array (a : ArrayPattern) (iterator : Nat)

/-- A call and what came of it. -/
structure Turn where
  call : Call
  outcome : Verdict Bindings
  /-- What was added to the log. -/
  entries : List Entry
  before : Store
  after : Store

/-- The verdicts of the custom matchers that were asked. -/
def Turn.verdicts (turn : Turn) : List (Verdict Unit) :=
  turn.entries.filterMap (·.access.verdict?)

namespace Call

/-- Carry out a call. -/
def perform : Call → State → Verdict Bindings × State
  | .pattern p v, s => matchPattern p v s
  | .object o v, s => matchObject o v s
  | .array a i, s => matchArray a i s

/-- What a call is about. -/
def subject : Call → Value
  | .pattern _ v => v
  | .object _ v => v
  | .array _ i => .ref (.iterator i)

/-- The pattern of a call. -/
def toPattern : Call → Pattern
  | .pattern p _ => p
  | .object o _ => o.toPattern
  | .array a _ => a.toPattern

/-- The plain match of a call. -/
def plain (S : Snapshot) : Call → Plain Captures
  | .pattern p v => S.readAt p none v
  | .object o v => S.readAt o.toPattern none v
  | .array a i => S.readElements a.elements ⟨some i, S.yields i⟩ 0 []

/-- The call as it turned out on a state. -/
def turn (c : Call) (s : State) : Turn where
  call := c
  outcome := (c.perform s).1
  entries := (c.perform s).2.cache.log.drop s.cache.log.length
  before := s.store
  after := (c.perform s).2.store

end Call

/-- The calls on one cache so far, and the state after them. -/
inductive Session : List Turn → State → Prop where
  /-- A new cache in a store that programs have made. -/
  | start {σ : Store} (made : Store.empty.Leads σ) : Session [] { store := σ }
  | call {turns : List Turn} {s : State} (before : Session turns s) (c : Call)
      (held : s.store.holds c.subject = true) : Session (turns ++ [c.turn s]) (c.perform s).2
  | close {turns : List Turn} {s : State} (before : Session turns s) : Session turns s.close.2
  /-- Whatever else programs do. -/
  | outside {turns : List Turn} {s : State} (before : Session turns s) {σ : Store}
      (done : s.store.Leads σ) : Session turns { s with store := σ }

/-! ## Closing leaves the memory alone -/

namespace Cache

/-- Stopping a text keeps the memory faithful. -/
theorem Faithful.close_text {c : Cache} (hc : c.Faithful) (n : Nat) :
    (c.setSpelling n (c.spelling n).close.2).Faithful := by
  refine ⟨hc.readings, hc.openings, hc.advances, ?_, ?_⟩
  · intro k t ht
    by_cases hk : n = k
    · subst hk
      have hn : n < c.texts.size := by
        have := (Array.getElem?_eq_some_iff.1 ht).1
        simpa [setSpelling] using this
      have ht : t = (c.spelling n).close.2 := by simpa [setSpelling, hn] using ht.symm
      obtain ⟨hcontains, vs, ended, hstands, htells⟩ := hc.texts n _ (getElem?_texts hn)
      refine ⟨hcontains, vs, ended, hstands, htells.plain, ?_⟩
      rw [ht]
      intro h
      cases h
    · exact hc.texts k t (by simpa [setSpelling, hk] using ht)
  · intro k hk
    exact hc.fresh k (by simpa [setSpelling] using hk)

end Cache

namespace State

variable {s : State}

/-- What closing leaves of a state: everything that was remembered. -/
structure Remembers (s t : State) : Prop where
  sound : s.Sound → t.Sound
  log : t.cache.log = s.cache.log
  memos : t.cache.memos = s.cache.memos

theorem Remembers.trans {s t u : State} (h₁ : Remembers s t) (h₂ : Remembers t u) :
    Remembers s u :=
  ⟨h₂.sound ∘ h₁.sound, h₂.log.trans h₁.log, h₂.memos.trans h₁.memos⟩

/-- What other code does leaves the state sound. -/
theorem Sound.outside (hs : s.Sound) {σ : Store} (done : s.store.Leads σ) :
    Sound { s with store := σ } where
  grounded := done.grounded hs.grounded
  held := fun e he => (hs.held e he).keeps done.keeps
  bounded := fun e he =>
    ⟨(hs.bounded e he).1, Nat.le_trans (hs.bounded e he).2 done.trace_size_le⟩
  faithful := hs.faithful

/-- Closing one iterator. -/
theorem closeHandle_remembers (s : State) (h : Handle) : Remembers s (s.closeHandle h).2 := by
  cases h with
  | cell i => exact ⟨fun hs => hs.outside (Store.close_reaches s.store i trivial), rfl, rfl⟩
  | text n => exact ⟨fun hs => ⟨hs.grounded, hs.held, hs.bounded, hs.faithful.close_text n⟩, rfl, rfl⟩

/-- Closing iterators one after another. -/
theorem closeAll_remembers : ∀ (hs : List Handle) (s : State), Remembers s (closeAll hs s).2
  | [], _ => ⟨id, rfl, rfl⟩
  | h :: hs, s => (closeHandle_remembers s h).trans (closeAll_remembers hs _)

/-- Closing everything that was handed out. -/
theorem close_remembers (s : State) : Remembers s s.close.2 := by
  -- emptying the list of what is to be closed forgets nothing
  have hempty : Remembers s { s with cache := { s.cache with opened := [] } } :=
    ⟨fun hs => ⟨hs.grounded, hs.held, hs.bounded, hs.faithful.readings, hs.faithful.openings,
      hs.faithful.advances, hs.faithful.texts, hs.faithful.fresh⟩, rfl, rfl⟩
  exact hempty.trans (closeAll_remembers _ _)

end State

/-! ## States of sessions -/

open State

/-- Carrying out a call for a value that is there is work. -/
theorem Call.perform_proceeds (c : Call) {s : State} (hs : s.Sound) (hset : s.Settled)
    (held : s.store.holds c.subject = true) : Proceeds s (c.perform s).2 := by
  cases c with
  | pattern p v => exact matchAt_proceeds p none v s hs hset held
  | object o v => exact matchAt_proceeds o.toPattern none v s hs hset held
  | array a i =>
      exact matchElements_proceeds a.elements (.cell i) 0 .empty s hs hset held
        (hs.reached_zero held)

/-- What a call adds to the log accounts for what it does to the store. -/
theorem Call.turn_accounts (c : Call) {s : State} (hs : s.Sound) (hset : s.Settled)
    (held : s.store.holds c.subject = true) :
    (c.perform s).2.cache.log = s.cache.log ++ (c.turn s).entries ∧
      Accounts (c.turn s).entries s.store (c.perform s).2.store := by
  obtain ⟨es, hlog, haccounts⟩ := (c.perform_proceeds hs hset held).works.accounts
  have hentries : (c.turn s).entries = es := by rw [Call.turn, hlog, List.drop_left]
  rw [hentries]
  exact ⟨hlog, haccounts⟩

/-- The verdicts put down for a call are those that were added. -/
theorem Call.turn_verdicts (c : Call) {s : State} (hs : s.Sound) (hset : s.Settled)
    (held : s.store.holds c.subject = true) :
    (c.perform s).2.cache.verdicts = s.cache.verdicts ++ (c.turn s).verdicts := by
  rw [Cache.verdicts, (c.turn_accounts hs hset held).1, List.filterMap_append]
  rfl

/-- A call without named remainders follows its plain match on any snapshot that covers
    the state it ends in. -/
theorem Call.perform_follows (c : Call) {S : Snapshot} {s : State}
    (hfree : c.toPattern.remainderFree = true) (hs : s.Sound) (hset : s.Settled)
    (held : s.store.holds c.subject = true) (hS : S.Covers (c.perform s).2) :
    Follows s (c.perform s) (c.plain S) := by
  cases c with
  | pattern p v => exact matchAt_follows S p none v s hfree hs hset held hS
  | object o v => exact matchAt_follows S o.toPattern none v s hfree hs hset held hS
  | array a i =>
      exact matchElements_follows S a.elements (.cell i) ⟨some i, S.yields i⟩ 0 .empty [] s hfree
        hs hset held (hs.reached_zero held) (.cell i) (Bindings.realise_empty _) hS

namespace Session

variable {turns : List Turn} {s : State}

/-- The states of a session are sound. -/
theorem sound_settled (h : Session turns s) : s.Sound ∧ s.Settled := by
  induction h with
  | start made =>
      exact ⟨⟨made.grounded Store.grounded_empty, by simp,
        by simp, Cache.faithful_empty⟩, fun h => Memo.settled_empty⟩
  | call before c held ih =>
      have hproceeds := c.perform_proceeds ih.1 ih.2 held
      exact ⟨hproceeds.works.sound ih.1, hproceeds.settled⟩
  | @close turns s before ih =>
      refine ⟨(close_remembers s).sound ih.1, ?_⟩
      intro h
      rw [Cache.memo, (close_remembers s).memos]
      exact ih.2 h
  | outside before done ih => exact ⟨ih.1.outside done, ih.2⟩

theorem sound (h : Session turns s) : s.Sound := h.sound_settled.1

theorem settled (h : Session turns s) : s.Settled := h.sound_settled.2

/-- The store of a session is one that programs have made. -/
theorem leads (h : Session turns s) : Store.empty.Leads s.store := by
  induction h with
  | start made => exact made
  | call before c held ih =>
      exact ih.trans (c.perform_proceeds before.sound before.settled held).works.leads
  | @close turns s before ih => exact ih.trans s.close_leads
  | outside before done ih => exact ih.trans done

end Session

/-! ## A session on something fickle -/

namespace Fickle

/-- An object whose property is a new iterator each time it is read. -/
def blueprint : Blueprint :=
  .object (.mk none none
    [(⟨"a"⟩, .getter none (.fresh (.iterator (.mk .generator
      (.items [some (.existing (.text "one")), some (.existing (.text "two"))]) none))))] none)

/-- A new cache, and the object. -/
def start : State := { store := (blueprint.build .empty).2 }

/-- A match of the object whose property has these elements. -/
def look (elements : List (Option Pattern)) : Call :=
  .object { entries := [(⟨"a"⟩, .array elements)] } (.ref (.object 0))

/-- One element, which is one too few. -/
def short : Call := look [some (.identifier (some ⟨"x"⟩))]

/-- One element and what is left. -/
def long : Call := look [some (.identifier (some ⟨"x"⟩)), some (.rest (some ⟨"xs"⟩))]

/-- The state after both calls. -/
def finish : State := (long.perform (short.perform start).2).2

/-- Both calls, as they turned out. -/
def turns : List Turn := [short.turn start, long.turn (short.perform start).2]

/-- A match that fails and one that does not, on one cache. -/
theorem session : Session turns finish := by
  have hstart : Session [] start := .start (blueprint.build_reaches .empty)
  exact (hstart.call short (by decide)).call long (by decide)

end Fickle

end StructuralMatch
