import StructuralMatch.Proofs.Simulation

/-! # Induction over a match

    What every operation of a match respects, a whole match respects.  Here this is
    said of relations between states, so that it can be used for anything that stays,
    grows or is left alone (`State.Carried`).

    Not every pattern brings about every operation.  A relation is only asked to
    respect those that patterns of the admitted kinds bring about, and a property is
    only ever read where it is there (`matchAt_carries`). -/

namespace StructuralMatch

namespace Pattern

mutual

/-- Every pattern passes the test that admits all. -/
theorem every_true : ∀ p : Pattern, p.every (fun _ => true) = true
  | .object entries _ => by rw [every, everyEntry_true entries]; rfl
  | .array elements => by rw [every, everyElement_true elements]; rfl
  | .literal _ | .regex _ | .identifier _ | .rest _ | .custom _ => rfl

theorem everyEntry_true : ∀ entries : List (Key × Pattern),
    everyEntry (fun _ => true) entries = true
  | [] => rfl
  | (_, p) :: entries => by rw [everyEntry, every_true p, everyEntry_true entries]; rfl

theorem everyElement_true : ∀ elements : List (Option Pattern),
    everyElement (fun _ => true) elements = true
  | [] => rfl
  | none :: elements => by rw [everyElement, everyElement_true elements]
  | some p :: elements => by rw [everyElement, every_true p, everyElement_true elements]; rfl

end

end Pattern

namespace State

/-- A relation between states that every operation of a match respects, as far as patterns
    of the admitted kinds bring it about. -/
structure Carried (admits : Pattern → Bool) (R : State → State → Prop) : Prop where
  refl : ∀ s, R s s
  trans : ∀ {s t u : State}, t.Sound → Works t u → R s t → R t u → R s u
  register : ∀ (s : State) (v : Value), R s (s.register v).2
  read : ∀ {s : State}, s.Sound → ∀ {v : Value} {k : Key}, s.store.holds v = true →
    s.store.hasProperty v k = true → R s (s.read v k).2
  remainder : ∀ {s : State} {v : Value}, s.store.holds v = true → ∀ keys : List Key,
    R s (s.remainder v keys).2
  iteratorFor : ∀ {elements : List (Option Pattern)}, admits (.array elements) = true →
    ∀ (s : State) (v : Value), R s (s.iteratorFor v).2
  step : ∀ {elements : List (Option Pattern)}, admits (.array elements) = true →
    ∀ (s : State) (h : Handle) (position : Nat), R s (s.step h position).2
  drainFrom : ∀ {elements : List (Option Pattern)}, admits (.array elements) = true →
    ∀ (s : State) (h : Handle) (position : Nat), R s (s.drainFrom h position).2
  collect : ∀ {elements : List (Option Pattern)}, admits (.array elements) = true →
    ∀ (s : State) (items : List Value), R s (s.collect items).2
  consult : ∀ {m : Matcher}, admits (.custom m) = true → ∀ (s : State) (v : Value),
    R s (s.consult m v).2

variable {admits : Pattern → Bool} {R : State → State → Prop} {s : State}

theorem Carried.bindCollected (hR : Carried admits R) {elements : List (Option Pattern)}
    (harray : admits (.array elements) = true) (name : Option Key) (items : List Value)
    (b : Bindings) : R s (bindCollected name items b s).2 := by
  cases name with
  | none => exact hR.refl s
  | some name => exact hR.collect harray s items

theorem Carried.bindRemainder (hR : Carried admits R) (marker : Option RestMarker)
    (keys : List Key) {v : Value} (held : s.store.holds v = true) (b : Bindings) :
    R s (bindRemainder marker keys v b s).2 := by
  rw [StructuralMatch.bindRemainder]
  split
  · exact hR.refl s
  · exact hR.remainder held keys

end State

open State

variable {admits : Pattern → Bool} {R : State → State → Prop}

mutual

/-- A match of a pattern of admitted kinds respects what its operations respect. -/
theorem matchAt_carries (hR : Carried admits R) : ∀ (p : Pattern) (place : Option Key) (v : Value)
    (s : State), p.every admits = true → s.Sound → s.Settled → s.store.holds v = true →
      R s (matchAt p place v s).2
  | .custom m, place, v, s, hp, hs, hset, held => by
      have hcustom : admits (.custom m) = true := hp
      rw [matchAt]
      exact hR.consult hcustom s v
  | .identifier name, place, v, s, hp, hs, hset, held => by
      rw [matchAt]
      exact hR.refl s
  | .rest name, place, v, s, hp, hs, hset, held => by
      rw [matchAt]
      exact hR.refl s
  | .regex r, place, v, s, hp, hs, hset, held => by
      rw [matchAt]
      exact hR.refl s
  | .literal q, place, v, s, hp, hs, hset, held => by
      rw [matchAt]
      exact hR.refl s
  | .array elements, place, v, s, hp, hs, hset, held => by
      rw [Pattern.every, Bool.and_eq_true] at hp
      obtain ⟨harray, helements⟩ := hp
      have hfor := hR.iteratorFor harray s v
      obtain ⟨hopen, husable⟩ := iteratorFor_proceeds hs hset held
      have ht := hopen.works.sound hs
      rw [matchAt]
      generalize s.iteratorFor v = opened at hfor hopen husable ht ⊢
      rcases opened with ⟨_ | h, t⟩
      · exact hfor
      · have hu := husable h rfl
        have hwork := matchElements_proceeds elements h 0 .empty t ht hopen.settled hu
          (ht.reached_zero hu)
        exact hR.trans ht hwork.works hfor (matchElements_carries hR elements harray elements h 0
          .empty t helements ht hopen.settled hu (ht.reached_zero hu))
  | .object entries marker, place, v, s, hp, hs, hset, held => by
      rw [Pattern.every, Bool.and_eq_true] at hp
      have hregister := hR.register s v
      have hvisit := (Act.register s v).proceeds hs hset
      have ht := hvisit.works.sound hs
      have held' := hvisit.works.leads.keeps.holds held
      rw [matchAt]
      generalize s.register v = registered at hregister hvisit ht held' ⊢
      rcases registered with ⟨_ | _, t⟩
      · exact hregister
      · have hwork := matchEntries_proceeds entries v .empty t ht hvisit.settled held'
        -- the relation leads over the entries first, and over the remainder if all of them match
        have hall := hR.trans ht hwork.works hregister
          (matchEntries_carries hR entries v .empty t hp.2 ht hvisit.settled held')
        have hu := hwork.works.sound ht
        dsimp only
        generalize matchEntries entries v .empty t = matched at hwork hall hu ⊢
        rcases matched with ⟨b | _ | e, u⟩
        · have hthere := hwork.works.leads.keeps.holds held'
          have hbind := (bindRemainder_acts marker (entries.map Prod.fst) hthere b).proceeds hu
            hwork.settled
          exact hR.trans hu hbind.works hall (hR.bindRemainder marker _ hthere b)
        · exact hall
        · exact hall

/-- Matching entries respects what its operations respect. -/
theorem matchEntries_carries (hR : Carried admits R) : ∀ (entries : List (Key × Pattern))
    (v : Value) (b : Bindings) (s : State), Pattern.everyEntry admits entries = true → s.Sound →
      s.Settled → s.store.holds v = true → R s (matchEntries entries v b s).2
  | [], v, b, s, hp, hs, hset, held => by
      rw [matchEntries]
      exact hR.refl s
  | (k, p) :: entries, v, b, s, hp, hs, hset, held => by
      rw [Pattern.everyEntry, Bool.and_eq_true] at hp
      rw [matchEntries]
      split
      · rename_i hpresent
        have hread := hR.read hs held hpresent
        obtain ⟨hlook, hx⟩ := read_proceeds hs hset held k
        have ht := hlook.works.sound hs
        have held' := hlook.works.leads.keeps.holds held
        generalize s.read v k = readed at hread hlook hx ht held' ⊢
        obtain ⟨x, t⟩ := readed
        have hpart := matchAt_proceeds p (some k) x t ht hlook.settled hx
        have hfirst := hR.trans ht hpart.works hread
          (matchAt_carries hR p (some k) x t hp.1 ht hlook.settled hx)
        have hu := hpart.works.sound ht
        dsimp only
        generalize matchAt p (some k) x t = matched at hpart hfirst hu ⊢
        rcases matched with ⟨c | _ | e, u⟩
        · have hthere := hpart.works.leads.keeps.holds held'
          -- only after a match of the part are the other entries looked at
          have hrest := matchEntries_proceeds entries v (b.merge c) u hu hpart.settled hthere
          exact hR.trans hu hrest.works hfirst
            (matchEntries_carries hR entries v (b.merge c) u hp.2 hu hpart.settled hthere)
        · exact hfirst
        · exact hfirst
      · exact hR.refl s

/-- Matching elements respects what its operations respect. -/
theorem matchElements_carries (hR : Carried admits R) (all : List (Option Pattern))
    (harray : admits (.array all) = true) : ∀ (elements : List (Option Pattern)) (h : Handle)
    (position : Nat) (b : Bindings) (s : State), Pattern.everyElement admits elements = true →
      s.Sound → s.Settled → s.Usable h → s.Reached h position →
        R s (matchElements elements h position b s).2
  | [], h, position, b, s, hp, hs, hset, hu, hr => by
      rw [matchElements]
      exact hR.step harray s h position
  | none :: elements, h, position, b, s, hp, hs, hset, hu, hr => by
      rw [Pattern.everyElement] at hp
      have hstep := hR.step harray s h position
      obtain ⟨hlook, hyielded⟩ := step_reached hs hset hu hr
      have ht := hlook.works.sound hs
      have hu' := hlook.works.usable hu
      rw [matchElements]
      generalize s.step h position = stepped at hstep hlook hyielded ht hu' ⊢
      rcases stepped with ⟨x | _, t⟩
      · have hreached := (hyielded x rfl).1
        have hrest := matchElements_proceeds elements h (position + 1) b t ht hlook.settled hu'
          hreached
        exact hR.trans ht hrest.works hstep (matchElements_carries hR all harray elements h
          (position + 1) b t hp ht hlook.settled hu' hreached)
      · exact hstep
  | some p :: elements, h, position, b, s, hp, hs, hset, hu, hr => by
      rw [Pattern.everyElement, Bool.and_eq_true] at hp
      rw [matchElements]
      split
      · -- a trailing rest drains and binds what it got
        have hdrain := (drainFrom_proceeds hs hset hu hr).1
        have ht := hdrain.works.sound hs
        exact hR.trans ht (bindCollected_proceeds hdrain.settled _ _ b).works
          (hR.drainFrom harray s h position) (hR.bindCollected harray _ _ b)
      · have hstep := hR.step harray s h position
        obtain ⟨hlook, hyielded⟩ := step_reached hs hset hu hr
        have ht := hlook.works.sound hs
        have hu' := hlook.works.usable hu
        generalize s.step h position = stepped at hstep hlook hyielded ht hu' ⊢
        rcases stepped with ⟨x | _, t⟩
        · obtain ⟨hreached, hx⟩ := hyielded x rfl
          have hpart := matchAt_proceeds p (some (.index position)) x t ht hlook.settled hx
          have hfirst := hR.trans ht hpart.works hstep
            (matchAt_carries hR p (some (.index position)) x t hp.1 ht hlook.settled hx)
          have hw := hpart.works.sound ht
          dsimp only
          generalize matchAt p (some (.index position)) x t = matched at hpart hfirst hw ⊢
          rcases matched with ⟨c | _ | e, u⟩
          · -- the part may have gone on with this very iterator, which is only further on then
            have hreached' := hpart.works.reached hreached
            have hthere := hpart.works.usable hu'
            have hrest := matchElements_proceeds elements h (position + 1) (b.merge c) u hw
              hpart.settled hthere hreached'
            exact hR.trans hw hrest.works hfirst (matchElements_carries hR all harray elements h
              (position + 1) (b.merge c) u hp.2 hw hpart.settled hthere hreached')
          · exact hfirst
          · exact hfirst
        · exact hstep

end

end StructuralMatch
