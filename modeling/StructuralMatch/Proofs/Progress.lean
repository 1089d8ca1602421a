import StructuralMatch.Proofs.Operations

/-! # A match is work

    Matching a value that is there, on a sound state, is a sequence of operations
    (`matchAt_acts`), and each of them is a sequence of moves that ends between drains.
    So everything that moves or operations preserve holds after every match, whatever
    its outcome.

    The induction follows the pattern.  Along the elements of an array pattern the
    iterator has yielded up to the position that is read next (`Reached`). -/

namespace StructuralMatch

namespace State

variable {s t u : State}

/-- The iterator has yielded up to the position. -/
def Reached (s : State) (h : Handle) (p : Nat) : Prop :=
  ∃ vs ended, (s.cache.memo h).Stands vs ended ∧ p ≤ vs.length

/-- What has been reached stays so. -/
theorem Works.reached (hw : Works s t) {h : Handle} {p : Nat} (hr : s.Reached h p) :
    t.Reached h p := by
  obtain ⟨vs, ended, hm, hp⟩ := hr
  obtain ⟨ws, ended', hm', hextends⟩ := hw.run_extends h hm
  exact ⟨ws, ended', hm', Nat.le_trans hp (Step.values_extend hextends).length_le⟩

/-- Every iterator that is there has reached its beginning. -/
theorem Sound.reached_zero (hs : s.Sound) {h : Handle} (hu : s.Usable h) : s.Reached h 0 := by
  cases h with
  | cell i =>
      obtain ⟨vs, ended, hm, -⟩ := hs.faithful.advances i
      exact ⟨vs, ended, hm, Nat.zero_le _⟩
  | text n =>
      obtain ⟨-, vs, ended, hm, -⟩ := hs.faithful.texts n _ (Array.getElem?_eq_getElem hu)
      exact ⟨vs, ended, hm, Nat.zero_le _⟩

/-- What a match leaves behind. -/
structure Proceeds (s t : State) : Prop where
  works : Works s t
  settled : t.Settled

theorem Leaves.proceeds {asked : List Question} (h : Leaves s t asked) : Proceeds s t :=
  ⟨h.works, h.settled⟩

theorem Proceeds.trans (h₁ : Proceeds s t) (h₂ : Proceeds t u) : Proceeds s u :=
  ⟨h₁.works.trans h₂.works, h₂.settled⟩

/-- A positional read that yields has reached the next position, and the value is there. -/
theorem step_reached (hs : s.Sound) (hset : s.Settled) {h : Handle} (hu : s.Usable h) {p : Nat}
    (hr : s.Reached h p) :
    Proceeds s (s.step h p).2 ∧ ∀ x, (s.step h p).1 = .yielded x →
      (s.step h p).2.Reached h (p + 1) ∧ (s.step h p).2.store.holds x = true := by
  obtain ⟨vs, ended, hm, hp⟩ := hr
  obtain ⟨hleaves, ws, ended', hm', hfound⟩ := step_leaves hs hset hu hm hp
  refine ⟨hleaves.proceeds, ?_⟩
  intro x hx
  rw [hx] at hfound
  have hget := Step.getElem?_of_run_yielded hfound
  refine ⟨⟨ws, ended', hm', (List.getElem?_eq_some_iff.1 hget).1⟩, ?_⟩
  exact (hleaves.works.sound hs).holds_of_stands (hleaves.works.usable hu) hm' x
    (List.mem_of_getElem? hget)

/-- A drain, which gives values that are there. -/
theorem drainFrom_proceeds (hs : s.Sound) (hset : s.Settled) {h : Handle} (hu : s.Usable h)
    {p : Nat} (hr : s.Reached h p) :
    Proceeds s (s.drainFrom h p).2 ∧
      ∀ v ∈ (s.drainFrom h p).1, (s.drainFrom h p).2.store.holds v = true := by
  obtain ⟨vs, ended, hm, hp⟩ := hr
  obtain ⟨ws, hm', hitems, hleaves⟩ := drainFrom_leaves hs hset hu hm hp
  refine ⟨hleaves.proceeds, ?_⟩
  intro v hv
  rw [hitems] at hv
  exact (hleaves.works.sound hs).holds_of_stands (hleaves.works.usable hu) hm' v
    (List.mem_of_mem_drop hv)

/-- Reading a property, which gives a value that is there. -/
theorem read_proceeds (hs : s.Sound) (hset : s.Settled) {v : Value}
    (held : s.store.holds v = true) (k : Key) :
    Proceeds s (s.read v k).2 ∧ (s.read v k).2.store.holds (s.read v k).1 = true := by
  cases v with
  | prim p => exact ⟨⟨.refl s, hset⟩, rfl⟩
  | ref r =>
      obtain ⟨hleaves, hreadings⟩ := read_leaves hs hset held k
      exact ⟨hleaves.proceeds, (hleaves.works.sound hs).holds_of_readings
        (hreadings ▸ List.mem_singleton_self _)⟩

/-- Getting an iterator, which is there. -/
theorem iteratorFor_proceeds (hs : s.Sound) (hset : s.Settled) {v : Value}
    (held : s.store.holds v = true) :
    Proceeds s (s.iteratorFor v).2 ∧
      ∀ h, (s.iteratorFor v).1 = some h → (s.iteratorFor v).2.Usable h := by
  cases v with
  | prim p =>
      cases p with
      | text text =>
          obtain ⟨n, hn, hleaves, t, ht, -⟩ := iteratorFor_text hset text
          refine ⟨hleaves.proceeds, ?_⟩
          intro h hh
          rw [hn, Option.some.injEq] at hh
          subst hh
          exact (Array.getElem?_eq_some_iff.1 ht).1
      | _ =>
          refine ⟨⟨.refl s, hset⟩, ?_⟩
          intro h hh
          cases hh
  | ref r =>
      cases hfor : (s.iteratorFor (.ref r)).1 with
      | none =>
          obtain ⟨-, hsame⟩ := iteratorFor_none hs hfor
          exact ⟨hsame.symm ▸ ⟨.refl s, hset⟩, by simp⟩
      | some h =>
          obtain ⟨i, rfl, hleaves, -, husable⟩ := iteratorFor_some hs hset held hfor
          exact ⟨hleaves.proceeds, fun h' hh => Option.some.inj hh ▸ husable⟩

/-! ## Operations -/

/-- One operation by which a match looks at values that are there. -/
inductive Act : State → State → Prop where
  | register (s : State) (v : Value) : Act s (s.register v).2
  | read (s : State) {v : Value} (held : s.store.holds v = true) (k : Key) : Act s (s.read v k).2
  | iteratorFor (s : State) {v : Value} (held : s.store.holds v = true) : Act s (s.iteratorFor v).2
  | step (s : State) {h : Handle} (usable : s.Usable h) (p : Nat) : Act s (s.step h p).2
  | drainFrom (s : State) {h : Handle} {p : Nat} (usable : s.Usable h) (reached : s.Reached h p) :
      Act s (s.drainFrom h p).2
  | collect (s : State) (items : List Value) : Act s (s.collect items).2
  | remainder (s : State) {v : Value} (held : s.store.holds v = true) (keys : List Key) :
      Act s (s.remainder v keys).2
  | consult (s : State) (m : Matcher) (v : Value) : Act s (s.consult m v).2

/-- Operations of a match, one after another. -/
inductive Acts : State → State → Prop where
  | refl (s : State) : Acts s s
  | tail {s t u : State} (acts : Acts s t) (last : Act t u) : Acts s u

theorem Act.acts (h : Act s t) : Acts s t := .tail (.refl s) h

/-- Operations follow one another. -/
theorem Acts.trans (h₁ : Acts s t) (h₂ : Acts t u) : Acts s u := by
  induction h₂ with
  | refl => exact h₁
  | tail _ last ih => exact .tail ih last

/-- An operation is work. -/
theorem Act.proceeds (h : Act s t) (hs : s.Sound) (hset : s.Settled) : Proceeds s t := by
  cases h with
  | register v => exact (register_leaves hset v).proceeds
  | read held k => exact (read_proceeds hs hset held k).1
  | iteratorFor held => exact (iteratorFor_proceeds hs hset held).1
  | step usable p =>
      obtain ⟨hworks, hsettled, -⟩ := step_answers hs hset usable p
      exact ⟨hworks, hsettled⟩
  | drainFrom usable reached => exact (drainFrom_proceeds hs hset usable reached).1
  | collect items => exact (collect_leaves hset items).proceeds
  | remainder held keys => exact ⟨remainder_works held keys, hset⟩
  | consult m v =>
      have hconsults := consult_consults hset m v
      exact ⟨hconsults.works, hconsults.settled⟩

/-- Operations are work. -/
theorem Acts.proceeds (h : Acts s t) (hs : s.Sound) (hset : s.Settled) : Proceeds s t := by
  induction h with
  | refl => exact ⟨.refl s, hset⟩
  | tail _ last ih => exact ih.trans (last.proceeds (ih.works.sound hs) ih.settled)

theorem bindCollected_acts (name : Option Key) (items : List Value) (b : Bindings) (s : State) :
    Acts s (bindCollected name items b s).2 := by
  cases name with
  | none => exact .refl s
  | some name => exact (Act.collect s items).acts

theorem bindRemainder_acts (marker : Option RestMarker) (keys : List Key) {v : Value}
    (held : s.store.holds v = true) (b : Bindings) : Acts s (bindRemainder marker keys v b s).2 := by
  rw [bindRemainder]
  split
  · exact .refl s
  · exact (Act.remainder s held keys).acts

theorem bindCollected_proceeds (hset : s.Settled) (name : Option Key) (items : List Value)
    (b : Bindings) : Proceeds s (bindCollected name items b s).2 := by
  cases name with
  | none => exact ⟨.refl s, hset⟩
  | some name => exact (collect_leaves hset items).proceeds

end State

open State

mutual

/-- Matching a pattern against a value that is there is a sequence of operations. -/
theorem matchAt_acts : ∀ (p : Pattern) (place : Option Key) (v : Value) (s : State),
    s.Sound → s.Settled → s.store.holds v = true → Acts s (matchAt p place v s).2
  | .custom m, place, v, s, hs, hset, held => by
      rw [matchAt]
      exact (Act.consult s m v).acts
  | .identifier name, place, v, s, hs, hset, held => by
      rw [matchAt]
      exact .refl s
  | .rest name, place, v, s, hs, hset, held => by
      rw [matchAt]
      exact .refl s
  | .regex r, place, v, s, hs, hset, held => by
      rw [matchAt]
      exact .refl s
  | .literal q, place, v, s, hs, hset, held => by
      rw [matchAt]
      exact .refl s
  | .array elements, place, v, s, hs, hset, held => by
      have hact := (Act.iteratorFor s held).acts
      obtain ⟨hopen, husable⟩ := iteratorFor_proceeds hs hset held
      have ht := hopen.works.sound hs
      rw [matchAt]
      generalize s.iteratorFor v = opened at hact hopen husable ht ⊢
      rcases opened with ⟨_ | h, t⟩
      · exact hact
      · exact hact.trans (matchElements_acts elements h 0 .empty t ht hopen.settled
          (husable h rfl) (ht.reached_zero (husable h rfl)))
  | .object entries marker, place, v, s, hs, hset, held => by
      have hact := (Act.register s v).acts
      have hregister := hact.proceeds hs hset
      have ht := hregister.works.sound hs
      have held' := hregister.works.leads.keeps.holds held
      rw [matchAt]
      generalize s.register v = registered at hact hregister ht held' ⊢
      rcases registered with ⟨_ | _, t⟩
      · exact hact
      · have hentries := matchEntries_acts entries v .empty t ht hregister.settled held'
        have hkeeps := (hentries.proceeds ht hregister.settled).works.leads.keeps
        dsimp only
        generalize matchEntries entries v .empty t = matched at hentries hkeeps ⊢
        rcases matched with ⟨b | _ | e, u⟩
        · exact (hact.trans hentries).trans (bindRemainder_acts marker _ (hkeeps.holds held') b)
        · exact hact.trans hentries
        · exact hact.trans hentries

/-- Matching entries is a sequence of operations. -/
theorem matchEntries_acts : ∀ (entries : List (Key × Pattern)) (v : Value) (b : Bindings)
    (s : State), s.Sound → s.Settled → s.store.holds v = true →
      Acts s (matchEntries entries v b s).2
  | [], v, b, s, hs, hset, held => by
      rw [matchEntries]
      exact .refl s
  | (k, p) :: entries, v, b, s, hs, hset, held => by
      rw [matchEntries]
      split
      · have hact := (Act.read s held k).acts
        obtain ⟨hread, hx⟩ := read_proceeds hs hset held k
        have ht := hread.works.sound hs
        have held' := hread.works.leads.keeps.holds held
        generalize s.read v k = readed at hact hread hx ht held' ⊢
        obtain ⟨x, t⟩ := readed
        have hp := matchAt_acts p (some k) x t ht hread.settled hx
        have hwork := hp.proceeds ht hread.settled
        dsimp only
        generalize matchAt p (some k) x t = matched at hp hwork ⊢
        rcases matched with ⟨c | _ | e, u⟩
        · -- the other entries are matched in whatever state the part left
          exact (hact.trans hp).trans (matchEntries_acts entries v (b.merge c) u
            (hwork.works.sound ht) hwork.settled (hwork.works.leads.keeps.holds held'))
        · exact hact.trans hp
        · exact hact.trans hp
      · exact .refl s

/-- Matching elements is a sequence of operations. -/
theorem matchElements_acts : ∀ (elements : List (Option Pattern)) (h : Handle)
    (position : Nat) (b : Bindings) (s : State), s.Sound → s.Settled → s.Usable h →
      s.Reached h position → Acts s (matchElements elements h position b s).2
  | [], h, position, b, s, hs, hset, hu, hr => by
      rw [matchElements]
      exact (Act.step s hu position).acts
  | none :: elements, h, position, b, s, hs, hset, hu, hr => by
      have hact := (Act.step s hu position).acts
      obtain ⟨hstep, hyielded⟩ := step_reached hs hset hu hr
      have ht := hstep.works.sound hs
      have hu' := hstep.works.usable hu
      rw [matchElements]
      generalize s.step h position = stepped at hact hstep hyielded ht hu' ⊢
      rcases stepped with ⟨x | _, t⟩
      · exact hact.trans (matchElements_acts elements h (position + 1) b t ht hstep.settled
          hu' (hyielded x rfl).1)
      · exact hact
  | some p :: elements, h, position, b, s, hs, hset, hu, hr => by
      rw [matchElements]
      split
      · exact (Act.drainFrom s hu hr).acts.trans (bindCollected_acts ..)
      · have hact := (Act.step s hu position).acts
        obtain ⟨hstep, hyielded⟩ := step_reached hs hset hu hr
        have ht := hstep.works.sound hs
        have hu' := hstep.works.usable hu
        generalize s.step h position = stepped at hact hstep hyielded ht hu' ⊢
        rcases stepped with ⟨x | _, t⟩
        · obtain ⟨hreached, hx⟩ := hyielded x rfl
          have hp := matchAt_acts p (some (.index position)) x t ht hstep.settled hx
          have hwork := hp.proceeds ht hstep.settled
          dsimp only
          generalize matchAt p (some (.index position)) x t = matched at hp hwork ⊢
          rcases matched with ⟨c | _ | e, u⟩
          · -- the part may have advanced this very iterator, but the position stays reached
            exact (hact.trans hp).trans (matchElements_acts elements h (position + 1)
              (b.merge c) u (hwork.works.sound ht) hwork.settled (hwork.works.usable hu')
              (hwork.works.reached hreached))
          · exact hact.trans hp
          · exact hact.trans hp
        · exact hact

end

/-- Matching a pattern against a value that is there is work. -/
theorem matchAt_proceeds (p : Pattern) (place : Option Key) (v : Value) (s : State) (hs : s.Sound)
    (hset : s.Settled) (held : s.store.holds v = true) : Proceeds s (matchAt p place v s).2 :=
  (matchAt_acts p place v s hs hset held).proceeds hs hset

/-- Matching entries is work. -/
theorem matchEntries_proceeds (entries : List (Key × Pattern)) (v : Value) (b : Bindings)
    (s : State) (hs : s.Sound) (hset : s.Settled) (held : s.store.holds v = true) :
    Proceeds s (matchEntries entries v b s).2 :=
  (matchEntries_acts entries v b s hs hset held).proceeds hs hset

/-- Matching elements is work. -/
theorem matchElements_proceeds (elements : List (Option Pattern)) (h : Handle) (position : Nat)
    (b : Bindings) (s : State) (hs : s.Sound) (hset : s.Settled) (hu : s.Usable h)
    (hr : s.Reached h position) : Proceeds s (matchElements elements h position b s).2 :=
  (matchElements_acts elements h position b s hs hset hu hr).proceeds hs hset

end StructuralMatch
