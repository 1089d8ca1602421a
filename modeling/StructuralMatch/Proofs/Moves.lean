import StructuralMatch.Matching.Course
import StructuralMatch.Proofs.Faithful
import StructuralMatch.Proofs.Store.Polling

/-! # Moves of a match

    A match works on a state by small moves: it visits values, reads properties that
    it does not know, opens, takes charge of and advances iterators, spells texts,
    makes arrays and objects, and asks matchers.  `Move` lists them, each with what is
    known when it is made and with what it does to the store.

    Every move either leaves the store alone or does to it exactly what it logs
    (`Move.account`), the state stays sound (`Move.sound`), and no memo loses
    anything (`Move.run_extends`).  What a whole match does follows by induction. -/

namespace StructuralMatch

/-- Whether the memory of a cache does not show the access. -/
def Access.Unseen : Access → Prop
  | .consulted _ _ | .collected _ | .remainder _ _ => True
  | _ => False

namespace State

/-- One move of a match. -/
inductive Move : State → State → Prop where
  /-- A value is visited. -/
  | visit (s : State) (r : Ref) : Move s { s with cache := s.cache.visit r }
  /-- A property is read that is not known. -/
  | read (s : State) {r : Ref} {k : Key} {x : Value} {σ : Store}
      (held : s.store.holds (.ref r) = true) (new : s.cache.property? (.ref r) k = none)
      (effect : s.store.get (.ref r) k = (x, σ)) :
      Move s ⟨(s.cache.remember r k x).record (.read r k x) s.store σ, σ⟩
  /-- An iterator is made for a value that has none, and the cache takes charge of it. -/
  | assign (s : State) {r : Ref} {i : Nat} {σ : Store} (held : s.store.holds (.ref r) = true)
      (new : s.cache.sources.get? r = none) (effect : s.store.iterate (.ref r) = (some i, σ)) :
      Move s ⟨((s.cache.assign r i).record (.opened r i) s.store σ).adopt (.cell i), σ⟩
  /-- The cache takes charge of an iterator. -/
  | adopt (s : State) {i : Nat} (held : s.store.holds (.ref (.iterator i)) = true) :
      Move s (s.adopt (.cell i))
  /-- An iterator is advanced whose memo waits for more. -/
  | advance (s : State) {i : Nat} {step : Step} {σ : Store} {vs : List Value} {m : Memo}
      (held : s.store.holds (.ref (.iterator i)) = true)
      (known : s.cache.memos.contains (.cell i) = true)
      (waits : (s.cache.memo (.cell i)).Stands vs false) (effect : s.store.next i = (step, σ))
      (learned : m.Stands (vs ++ step.value?.toList) step.isDone) :
      Move s ⟨(s.cache.record (.advanced i vs.length step) s.store σ).learn (.cell i) m, σ⟩
  /-- A text begins to be spelled. -/
  | spell (s : State) (text : String) : Move s (s.spell text).2
  /-- A letter is spelled for a memo that waits for more. -/
  | letter (s : State) {n : Nat} {vs : List Value} {m : Memo} (there : n < s.cache.texts.size)
      (known : s.cache.memos.contains (.text n) = true)
      (waits : (s.cache.memo (.text n)).Stands vs false)
      (learned : m.Stands (vs ++ (s.cache.spelling n).next.1.value?.toList)
        (s.cache.spelling n).next.1.isDone) :
      Move s { s with
        cache := (s.cache.setSpelling n (s.cache.spelling n).next.2).learn (.text n) m }
  /-- Something is done that the memory does not show. -/
  | unseen (s : State) {a : Access} {σ : Store} (kind : a.Unseen) (held : a.Held s.store)
      (effect : a.Effect s.store σ) : Move s ⟨s.cache.record a s.store σ, σ⟩

/-- Moves of a match, one after another. -/
inductive Works : State → State → Prop where
  | refl (s : State) : Works s s
  | tail {s t u : State} (works : Works s t) (last : Move t u) : Works s u

variable {s t u : State}

theorem Move.works (h : Move s t) : Works s t := .tail (.refl s) h

/-- Work goes on. -/
theorem Works.trans (h₁ : Works s t) (h₂ : Works t u) : Works s u := by
  induction h₂ with
  | refl => exact h₁
  | tail _ last ih => exact .tail ih last

/-! ## The log accounts for the store -/

/-- Entries that turn one store into another. -/
inductive Accounts : List Entry → Store → Store → Prop where
  | nil (σ : Store) : Accounts [] σ σ
  | snoc {es : List Entry} {σ τ υ : Store} {a : Access} (before : Accounts es σ τ)
      (effect : a.Effect τ υ) : Accounts (es ++ [⟨a, τ.trace.size, υ.trace.size⟩]) σ υ

/-- A move leaves the store alone, or it does exactly what it logs, to a value that is
    there. -/
theorem Move.account (h : Move s t) :
    (t.store = s.store ∧ t.cache.log = s.cache.log) ∨
      ∃ a : Access, a.Effect s.store t.store ∧ (∀ v ∈ a.subject?, s.store.holds v = true) ∧
        t.cache.log = s.cache.log ++ [⟨a, s.store.trace.size, t.store.trace.size⟩] := by
  have hthere : ∀ {v w : Value}, s.store.holds v = true → w ∈ some v → s.store.holds w = true :=
    fun hv hw => Option.some.inj hw ▸ hv
  cases h with
  | visit r => exact .inl ⟨rfl, Cache.log_visit _ _⟩
  | read held new effect => exact .inr ⟨.read _ _ _, effect, fun _ => hthere held, rfl⟩
  | assign held new effect =>
      exact .inr ⟨.opened _ _, effect, fun _ => hthere held, Cache.log_adopt _ _⟩
  | adopt held => exact .inl ⟨rfl, Cache.log_adopt _ _⟩
  | advance held known waits effect learned =>
      exact .inr ⟨.advanced _ _ _, effect, fun _ => hthere held, rfl⟩
  | spell text => exact .inl ⟨rfl, Cache.log_adopt _ _⟩
  | letter there known waits learned => exact .inl ⟨rfl, rfl⟩
  | unseen kind held effect => exact .inr ⟨_, effect, held.subject, rfl⟩

/-- An entry of the log after a move was there before, or it is that of the move. -/
theorem Move.mem_log (h : Move s t) {e : Entry} (he : e ∈ t.cache.log) :
    e ∈ s.cache.log ∨ e.access.Effect s.store t.store ∧
      (∀ v ∈ e.access.subject?, s.store.holds v = true) ∧
        e.start = s.store.trace.size ∧ e.stop = t.store.trace.size := by
  rcases h.account with ⟨-, hlog⟩ | ⟨a, heffect, hthere, hlog⟩
  · exact .inl (hlog ▸ he)
  · rw [hlog] at he
    rcases List.mem_append.1 he with hold | hnew
    · exact .inl hold
    · rw [List.mem_singleton.1 hnew]
      exact .inr ⟨heffect, hthere, rfl, rfl⟩

/-- A move is a run of changes of the store. -/
theorem Move.leads (h : Move s t) : s.store.Leads t.store := by
  rcases h.account with ⟨hstore, -⟩ | ⟨a, heffect, -, -⟩
  · exact hstore ▸ .refl _
  · exact heffect.leads

/-- Work is a run of changes of the store. -/
theorem Works.leads (h : Works s t) : s.store.Leads t.store := by
  induction h with
  | refl => exact .refl _
  | tail _ last ih => exact ih.trans last.leads

/-- Work adds entries to the log, and they account for all that it does to the store. -/
theorem Works.accounts (h : Works s t) :
    ∃ es, t.cache.log = s.cache.log ++ es ∧ Accounts es s.store t.store := by
  induction h with
  | refl => exact ⟨[], (List.append_nil _).symm, .nil _⟩
  | tail _ last ih =>
      obtain ⟨es, hlog, haccounts⟩ := ih
      rcases last.account with ⟨hstore, hsame⟩ | ⟨a, heffect, -, hadd⟩
      · exact ⟨es, hsame.trans hlog, hstore ▸ haccounts⟩
      · exact ⟨es ++ [_], by rw [hadd, hlog, List.append_assoc], .snoc haccounts heffect⟩

/-- Work keeps what is in the log. -/
theorem Works.log_extends (h : Works s t) : s.cache.log <+: t.cache.log := by
  obtain ⟨es, hlog, -⟩ := h.accounts
  exact ⟨es, hlog.symm⟩

/-! ## Sound states -/

/-- A state in which everything that is mentioned is there, the log is about the trace so
    far, and the memory is faithful. -/
structure Sound (s : State) : Prop where
  grounded : s.store.Grounded
  held : ∀ e ∈ s.cache.log, e.access.Held s.store
  bounded : ∀ e ∈ s.cache.log, e.start ≤ e.stop ∧ e.stop ≤ s.store.trace.size
  faithful : s.cache.Faithful

/-- What a move mentions in the log is there. -/
theorem Move.held (h : Move s t) (hs : s.store.Grounded) :
    ∀ e ∈ t.cache.log, e ∈ s.cache.log ∨ e.access.Held t.store := by
  have hnew : ∀ {a : Access} {es : List Entry} {σ τ : Store}, a.Held τ →
      ∀ e ∈ es ++ [⟨a, σ.trace.size, τ.trace.size⟩], e ∈ es ∨ e.access.Held τ := by
    intro a es σ τ ha e he
    rcases List.mem_append.1 he with he | he
    · exact .inl he
    · exact .inr (List.mem_singleton.1 he ▸ ha)
  have hleads := h.leads
  cases h with
  | visit r => exact fun e he => .inl (Cache.log_visit s.cache r ▸ he)
  | @read r k x σ held new effect =>
      refine hnew (a := .read r k x) ⟨hleads.keeps.holds held, ?_⟩
      have hx := hs.holds_get (.ref r) k
      rwa [effect] at hx
  | @assign r i σ held new effect =>
      have hopened : (Access.opened r i).Held σ := by
        refine ⟨hleads.keeps.holds held, ?_, Store.holds_of_iterate held effect⟩
        -- what gets an iterator can be iterated over, and goes on being so
        rw [hleads.keeps.isIterable_eq held, ← hs.isSome_iterate, effect]
        rfl
      intro e he
      rw [Cache.log_adopt] at he
      exact hnew hopened e he
  | adopt held => exact fun e he => .inl (Cache.log_adopt s.cache _ ▸ he)
  | @advance i step σ vs m held known waits effect learned =>
      refine hnew (a := .advanced i vs.length step) ⟨hleads.keeps.holds held, ?_⟩
      have hadvance := Store.next_advance s.store i
      rw [effect] at hadvance
      exact hadvance.held
  | spell text =>
      intro e he
      have hlog : (s.spell text).2.cache.log = s.cache.log := Cache.log_adopt _ _
      exact .inl (hlog ▸ he)
  | letter there known waits learned => exact fun e he => .inl he
  | unseen kind held effect => exact hnew (held.keeps hleads.keeps)

/-- A move keeps the memory faithful. -/
theorem Move.faithful (h : Move s t) (hs : s.cache.Faithful) : t.cache.Faithful := by
  cases h with
  | visit r => exact hs.visit r
  | read held new effect => exact hs.remember new _ _ _
  | assign held new effect => exact (hs.assign new _ _ _).adopt _
  | adopt held => exact hs.adopt _
  | advance held known waits effect learned => exact hs.learn_cell waits _ learned _ _
  | spell text => exact hs.spell text
  | letter there known waits learned => exact hs.learn_text there waits learned
  | @unseen a σ kind held effect =>
      refine hs.record ?_ ?_ ?_ _ _ <;> intros <;>
        cases a <;> first | rfl | exact kind.elim

/-- A move keeps the state sound. -/
theorem Move.sound (h : Move s t) (hs : s.Sound) : t.Sound where
  grounded := h.leads.grounded hs.grounded
  held := by
    intro e he
    rcases h.held hs.grounded e he with hold | hnew
    · exact (hs.held e hold).keeps h.leads.keeps
    · exact hnew
  bounded := by
    have hsize := h.leads.trace_size_le
    intro e he
    rcases h.mem_log he with hold | ⟨-, -, hstart, hstop⟩
    · exact ⟨(hs.bounded e hold).1, Nat.le_trans (hs.bounded e hold).2 hsize⟩
    · rw [hstart, hstop]
      exact ⟨hsize, Nat.le_refl _⟩
  faithful := h.faithful hs.faithful

/-- Work keeps the state sound. -/
theorem Works.sound (h : Works s t) (hs : s.Sound) : t.Sound := by
  induction h with
  | refl => exact hs
  | tail _ last ih => exact last.sound ih

/-! ## Memos only grow -/

/-- Adding a step to a memo that waits for more adds to what it stands for, and leaves
    the other memos alone. -/
theorem run_extends_learn {c : Cache} {h g : Handle} {vs ws : List Value} {ended : Bool}
    {m : Memo} {step : Step} (waits : (c.memo h).Stands vs false)
    (learned : m.Stands (vs ++ step.value?.toList) step.isDone)
    (hg : (c.memo g).Stands ws ended) :
    ∃ ws' ended', ((c.learn h m).memo g).Stands ws' ended' ∧
      Step.run ws ended <+: Step.run ws' ended' := by
  rw [Cache.memo_learn]
  by_cases heq : h = g
  · subst heq
    obtain ⟨rfl, rfl⟩ := waits.unique hg
    refine ⟨_, _, by simpa using learned, ?_⟩
    rw [← Step.run_concat]
    exact List.prefix_append _ _
  · exact ⟨ws, ended, by simpa [heq] using hg, List.prefix_refl _⟩

/-- A move adds to what a memo stands for, if anything. -/
theorem Move.run_extends (h : Move s t) (g : Handle) {vs : List Value} {ended : Bool}
    (hg : (s.cache.memo g).Stands vs ended) :
    ∃ ws ended', (t.cache.memo g).Stands ws ended' ∧
      Step.run vs ended <+: Step.run ws ended' := by
  have hsame : t.cache.memo g = s.cache.memo g → ∃ ws ended',
      (t.cache.memo g).Stands ws ended' ∧ Step.run vs ended <+: Step.run ws ended' :=
    fun heq => ⟨vs, ended, heq ▸ hg, List.prefix_refl _⟩
  cases h with
  | visit r =>
      refine hsame ?_
      rw [Cache.visit]
      split <;> rfl
  | read held new effect => exact hsame rfl
  | assign held new effect => exact hsame (Cache.memo_adopt _ _ _)
  | adopt held => exact hsame (Cache.memo_adopt _ _ _)
  | advance held known waits effect learned => exact run_extends_learn waits learned hg
  | spell text => exact hsame (Cache.memo_adopt _ _ _)
  | letter there known waits learned => exact run_extends_learn waits learned hg
  | unseen kind held effect => exact hsame rfl

/-- Work adds to what a memo stands for, if anything. -/
theorem Works.run_extends (h : Works s t) (g : Handle) {vs : List Value} {ended : Bool}
    (hg : (s.cache.memo g).Stands vs ended) :
    ∃ ws ended', (t.cache.memo g).Stands ws ended' ∧
      Step.run vs ended <+: Step.run ws ended' := by
  induction h with
  | refl => exact ⟨vs, ended, hg, List.prefix_refl _⟩
  | tail _ last ih =>
      obtain ⟨ws, ended', hws, hextends⟩ := ih
      obtain ⟨us, ended'', hus, hextends'⟩ := last.run_extends g hws
      exact ⟨us, ended'', hus, hextends.trans hextends'⟩

/-! ## Handles stay usable -/

/-- The iterator behind a handle is there. -/
def Usable (s : State) : Handle → Prop
  | .cell i => s.store.holds (.ref (.iterator i)) = true
  | .text n => n < s.cache.texts.size

/-- A text that is spelled stays the same text, and open or closed. -/
def SpellsOn (c d : Cache) : Prop :=
  ∀ (n : Nat) (t : Spelling), c.texts[n]? = some t →
    ∃ t' : Spelling, d.texts[n]? = some t' ∧ t'.text = t.text ∧ t'.closed = t.closed

theorem SpellsOn.of_texts_eq {c d : Cache} (h : d.texts = c.texts) : SpellsOn c d :=
  fun _ t ht => ⟨t, h ▸ ht, rfl, rfl⟩

/-- A move goes on spelling. -/
theorem Move.spellsOn (h : Move s t) : SpellsOn s.cache t.cache := by
  cases h with
  | visit r =>
      refine .of_texts_eq ?_
      rw [Cache.visit]
      split <;> rfl
  | assign held new effect => exact .of_texts_eq (Cache.texts_adopt _ _)
  | adopt held => exact .of_texts_eq (Cache.texts_adopt _ _)
  | spell text =>
      intro n t ht
      refine ⟨t, ?_, rfl, rfl⟩
      have htexts : (s.spell text).2.cache.texts = s.cache.texts.push (.begin text) :=
        Cache.texts_adopt _ _
      rw [htexts]
      exact Store.getElem?_push_of_some ht
  | @letter n vs m there known waits learned =>
      intro k t ht
      by_cases hk : n = k
      · subst hk
        rw [Cache.getElem?_texts there, Option.some.injEq] at ht
        subst ht
        refine ⟨(s.cache.spelling n).next.2, by simp [Cache.learn, Cache.setSpelling, there], ?_⟩
        rw [Spelling.next]
        split <;> exact ⟨rfl, rfl⟩
      · exact ⟨t, by simpa [Cache.learn, Cache.setSpelling, hk] using ht, rfl, rfl⟩
  | _ => exact .of_texts_eq rfl

/-- Work goes on spelling. -/
theorem Works.spellsOn (h : Works s t) : SpellsOn s.cache t.cache := by
  induction h with
  | refl => exact .of_texts_eq rfl
  | tail _ last ih =>
      intro n t ht
      obtain ⟨t', ht', htext, hclosed⟩ := ih n t ht
      obtain ⟨t'', ht'', htext', hclosed'⟩ := last.spellsOn n t' ht'
      exact ⟨t'', ht'', htext'.trans htext, hclosed'.trans hclosed⟩

/-- A usable handle stays usable. -/
theorem Works.usable (hw : Works s t) {h : Handle} (hu : s.Usable h) : t.Usable h := by
  cases h with
  | cell i => exact hw.leads.keeps.holds hu
  | text n =>
      obtain ⟨t', ht', -⟩ := hw.spellsOn n _ (Array.getElem?_eq_getElem hu)
      exact (Array.getElem?_eq_some_iff.1 ht').1

end State

end StructuralMatch
