import StructuralMatch.Proofs.Abreast

/-! # A match again

    A pattern without custom matchers and without named remainders that was matched
    against a value comes out the same whenever it is matched again on the same
    cache, and the replay is quiet (`Session.replays`).

    The induction follows the pattern, with the first run and the replay side by
    side.  What comes later in the first run is what lies between a place in it and
    the replay, so the replay knows the answer at every place. -/

namespace StructuralMatch

namespace State

variable {o s t : State}

/-- A replay gives the same outcome, quietly. -/
structure Replays (o : State) (first : Verdict Bindings) (again : Verdict Bindings × State) :
    Prop where
  outcome : first.Repeats o.store again.2.store again.1
  quiet : Quiet o again.2

/-- Both runs collect the elements that are left, the replay in a new array. -/
theorem replays_bindCollected {b b' : Bindings} (ha : Abreast o s t) (name : Option Key)
    {items : List Value} (held : ∀ v ∈ items, s.store.holds v = true)
    (hb : b.Renewed o.store t.store b') (ht : Onward (bindCollected name items b s).2 t) :
    Replays o (.matched (bindCollected name items b s).1)
      (.matched (bindCollected name items b' t).1, (bindCollected name items b' t).2) := by
  cases name with
  | none => exact ⟨.matched hb, ha.quiet⟩
  | some k =>
      have hact := (Act.collect s items).acts
      have hact' := (Act.collect t items).acts
      have ha₁ := ha.ahead hact
      have hkeeps₁ := (hact.proceeds ha.sound ha.settled).works.leads.keeps
      have hkeeps := (ht.leads ha₁.sound ha₁.settled).keeps
      have hkeeps' := (hact'.proceeds ha.sound' ha.settled').works.leads.keeps
      have hfirst := hkeeps.arrays (collect_array held)
      have hagain := collect_array fun v hv => hkeeps.holds (hkeeps₁.holds (held v hv))
      -- the replay has made nothing but arrays
      have hnew : o.store.arrays.size ≤ t.store.arrays.size := by
        obtain ⟨made, hmade⟩ := ha.quiet.store
        rw [hmade, Array.size_append]
        exact Nat.le_add_right _ _
      have harray := Value.Renewed.array (hkeeps'.arrays hfirst) hagain hnew
      exact ⟨.matched (Assoc.Related.insert (hb.keeps hkeeps') k harray), ha.quiet.collect items⟩

/-- Both runs match a part. -/
theorem Abreast.part (ha : Abreast o s t) {p : Pattern} {place : Option Key} {x : Value}
    (hx : s.store.holds x = true) {y : Verdict Bindings} {s₁ : State}
    (hfirst : matchAt p place x s = (y, s₁)) (ht : Onward s₁ t)
    (hreplays : Replays o y (matchAt p place x t)) :
    ∃ y' t₁, matchAt p place x t = (y', t₁) ∧ Acts t t₁ ∧ Abreast o s₁ t₁ ∧
      y.Repeats o.store t₁.store y' := by
  have hacts := matchAt_acts p place x s ha.sound ha.settled hx
  rw [hfirst] at hacts
  have hx' := ((hacts.onward.trans ht).leads ha.sound ha.settled).keeps.holds hx
  have hacts' := matchAt_acts p place x t ha.sound' ha.settled' hx'
  rcases hagain : matchAt p place x t with ⟨y', t₁⟩
  rw [hagain] at hacts' hreplays
  exact ⟨y', t₁, rfl, hacts', (ha.ahead hacts).caught hacts' hreplays.quiet, hreplays.outcome⟩

end State

/-! ## Going down -/

open State

variable {o : State}

mutual

/-- A pattern that was matched is matched again. -/
theorem matchAt_replays : ∀ (p : Pattern) (place : Option Key) (v : Value) (s t : State),
    p.customFree = true → p.remainderFree = true → Abreast o s t → s.store.holds v = true →
      Onward (matchAt p place v s).2 t →
        Replays o (matchAt p place v s).1 (matchAt p place v t)
  | .custom m, place, v, s, t, hcustom, hfree, ha, held, ht => nomatch hcustom
  | .identifier name, place, v, s, t, hcustom, hfree, ha, held, ht => by
      rw [matchAt, matchAt]
      exact ⟨.matched (.refl _), ha.quiet⟩
  | .rest name, place, v, s, t, hcustom, hfree, ha, held, ht => by
      rw [matchAt, matchAt]
      exact ⟨.matched (.refl _), ha.quiet⟩
  | .regex r, place, v, s, t, hcustom, hfree, ha, held, ht => by
      rw [matchAt] at ht
      have hkeeps := (ht.leads ha.sound ha.settled).keeps
      have hregex : matchRegex r v t.store = matchRegex r v s.store := by
        rw [matchRegex, matchRegex, hkeeps.text_eq ha.sound.grounded held]
      rw [matchAt, matchAt, hregex]
      refine ⟨.refl ?_, ha.quiet⟩
      intro e he
      rw [matchRegex] at he
      split at he <;> cases he
  | .literal q, place, v, s, t, hcustom, hfree, ha, held, ht => by
      rw [matchAt, matchAt]
      refine ⟨.refl ?_, ha.quiet⟩
      intro e he
      rw [matchLiteral] at he
      split at he <;> cases he
  | .array elements, place, v, s, t, hcustom, hfree, ha, held, ht => by
      have hcustom : Pattern.everyElement Pattern.asksNoMatcher elements = true := hcustom
      have hfree : Pattern.everyElement Pattern.namesNoRemainder elements = true := hfree
      -- the replay comes after the whole first run, so the value is still there
      have honward : Onward s t :=
        (matchAt_acts (.array elements) place v s ha.sound ha.settled held).onward.trans ht
      have held' := (honward.leads ha.sound ha.settled).keeps.holds held
      obtain ⟨hopen, husable⟩ := iteratorFor_proceeds ha.sound ha.settled held
      rw [matchAt] at ht ⊢
      rw [matchAt]
      rcases hfirst : s.iteratorFor v with ⟨_ | h, s₁⟩
      · rw [hfirst] at ht
        obtain ⟨t₁, hagain, hquiet⟩ := ha.iteratorFor_none held hfirst ht
        rw [hagain]
        exact ⟨.unmatched, hquiet⟩
      · rw [hfirst] at ht hopen husable
        have hs := hopen.works.sound ha.sound
        -- matching the elements comes between the opening and the replay
        have hrest := matchElements_acts elements h 0 .empty s₁ hs hopen.settled (husable h rfl)
          (hs.reached_zero (husable h rfl))
        obtain ⟨h', t₁, hagain, hact', ha₁, hpoised⟩ :=
          ha.iteratorFor held held' hfirst (hrest.onward.trans ht)
        rw [hagain]
        exact matchElements_replays elements h h' 0 .empty .empty s₁ t₁ hcustom hfree ha₁ hpoised
          (.refl _) (ht.trans hact'.onward)
  | .object entries marker, place, .prim q, s, t, hcustom, hfree, ha, held, ht => by
      rw [matchAt, matchAt]
      exact ⟨.unmatched, ha.quiet⟩
  | .object entries marker, place, .ref r, s, t, hcustom, hfree, ha, held, ht => by
      have hcustom : Pattern.everyEntry Pattern.asksNoMatcher entries = true := hcustom
      have hfree : ((marker.bind (·.name)).isNone &&
          Pattern.everyEntry Pattern.namesNoRemainder entries) = true := hfree
      obtain ⟨hmarker, hfree⟩ := Bool.and_eq_true_iff.1 hfree
      have hact := (Act.register s (.ref r)).acts
      have held₁ := (hact.proceeds ha.sound ha.settled).works.leads.keeps.holds held
      have ha₁ := ha.ahead hact
      rw [matchAt_object hmarker, matchAt_object hmarker]
      rw [matchAt_object hmarker] at ht
      have hacts := matchEntries_acts entries (.ref r) .empty _ ha₁.sound ha₁.settled held₁
      -- the first run visited the value, so the replay need not
      have hvisited : t.cache.properties.contains r = true :=
        (hacts.onward.trans ht).grows.properties_contains (Cache.contains_visit s.cache r)
      have hregister : (t.register (.ref r)).2 = t := by
        simp only [State.register, Value.identity, Cache.visit, hvisited, if_true]
      rw [hregister]
      exact matchEntries_replays entries r .empty .empty _ t hcustom hfree ha₁ held₁ (.refl _) ht

/-- Entries that were matched are matched again. -/
theorem matchEntries_replays : ∀ (entries : List (Key × Pattern)) (r : Ref) (b b' : Bindings)
    (s t : State), Pattern.everyEntry Pattern.asksNoMatcher entries = true →
      Pattern.everyEntry Pattern.namesNoRemainder entries = true → Abreast o s t →
        s.store.holds (.ref r) = true → b.Renewed o.store t.store b' →
          Onward (matchEntries entries (.ref r) b s).2 t →
            Replays o (matchEntries entries (.ref r) b s).1 (matchEntries entries (.ref r) b' t)
  | [], r, b, b', s, t, hcustom, hfree, ha, held, hb, ht => by
      rw [matchEntries, matchEntries]
      exact ⟨.matched hb, ha.quiet⟩
  | (k, p) :: entries, r, b, b', s, t, hcustom, hfree, ha, held, hb, ht => by
      obtain ⟨hcustomp, hcustom⟩ := Bool.and_eq_true_iff.1 hcustom
      obtain ⟨hfreep, hfree⟩ := Bool.and_eq_true_iff.1 hfree
      have honward : Onward s t := (matchEntries_acts ((k, p) :: entries) (.ref r) b s ha.sound
        ha.settled held).onward.trans ht
      have hkeeps := (honward.leads ha.sound ha.settled).keeps
      have hpresent := hkeeps.hasProperty_eq ha.sound.grounded held k
      rw [matchEntries] at ht ⊢
      rw [matchEntries, hpresent]
      by_cases hhas : s.store.hasProperty (.ref r) k = true
      · rw [if_pos hhas] at ht ⊢
        rw [if_pos hhas]
        have hact := (Act.read s held k).acts
        have hx := (read_proceeds ha.sound ha.settled held k).2
        have hknown := read_twins ha held k
        have held₁ := (hact.proceeds ha.sound ha.settled).works.leads.keeps.holds held
        generalize s.read (.ref r) k = read at ht hact hx hknown held₁ ⊢
        obtain ⟨x, s₁⟩ := read
        have ha₁ := ha.ahead hact
        have hpart := matchAt_acts p (some k) x s₁ ha₁.sound ha₁.settled hx
        have hreplays := matchAt_replays p (some k) x s₁ t hcustomp hfreep ha₁ hx
        dsimp only at ht hknown ⊢
        rcases hfirst : matchAt p (some k) x s₁ with ⟨c | _ | e, s₂⟩
        · rw [hfirst] at ht hpart hreplays
          have ha₂ := ha₁.ahead hpart
          have held₂ := (hpart.proceeds ha₁.sound ha₁.settled).works.leads.keeps.holds held₁
          have hrest := matchEntries_acts entries (.ref r) (b.merge c) s₂ ha₂.sound ha₂.settled
            held₂
          -- the rest of the first run lies between the part and the replay
          have ht₂ : Onward s₂ t := hrest.onward.trans ht
          obtain ⟨y, t₂, hagain, hpart', hboth, houtcome⟩ :=
            ha₁.part hx hfirst ht₂ (hreplays ht₂)
          have hkeeps' := (hpart'.proceeds ha.sound' ha.settled').works.leads.keeps
          rw [hknown (hpart.onward.trans ht₂)]
          dsimp only
          rw [hagain]
          cases houtcome with
          | @matched _ c' hc =>
              exact matchEntries_replays entries r (b.merge c) (b'.merge c') s₂ t₂ hcustom hfree
                hboth held₂ ((hb.keeps hkeeps').merge hc) (ht.trans hpart'.onward)
        · rw [hfirst] at ht hpart hreplays
          obtain ⟨y, t₂, hagain, -, hboth, houtcome⟩ := ha₁.part hx hfirst ht (hreplays ht)
          rw [hknown (hpart.onward.trans ht)]
          dsimp only
          rw [hagain]
          cases houtcome
          exact ⟨.unmatched, hboth.quiet⟩
        · -- no part fails, since no matcher is asked
          rw [hfirst] at ht hreplays
          cases (hreplays ht).outcome
      · rw [if_neg hhas, if_neg hhas]
        exact ⟨.unmatched, ha.quiet⟩

/-- So are elements, through the handle of the first run or, for a text, a new one. -/
theorem matchElements_replays : ∀ (elements : List (Option Pattern)) (h h' : Handle)
    (position : Nat) (b b' : Bindings) (s t : State),
      Pattern.everyElement Pattern.asksNoMatcher elements = true →
        Pattern.everyElement Pattern.namesNoRemainder elements = true → Abreast o s t →
          Poised o s t h h' position → b.Renewed o.store t.store b' →
            Onward (matchElements elements h position b s).2 t →
              Replays o (matchElements elements h position b s).1
                (matchElements elements h' position b' t)
  | [], h, h', position, b, b', s, t, hcustom, hfree, ha, hp, hb, ht => by
      rw [matchElements] at ht ⊢
      rw [matchElements]
      rcases hfirst : s.step h position with ⟨step, s₁⟩
      rw [hfirst] at ht
      obtain ⟨t₁, hagain, hact', ha₁, -⟩ := ha.step hp hfirst ht
      have hkeeps' := (hact'.proceeds ha.sound' ha.settled').works.leads.keeps
      rw [hagain]
      cases step with
      | done => exact ⟨.matched (hb.keeps hkeeps'), ha₁.quiet⟩
      | yielded x => exact ⟨.unmatched, ha₁.quiet⟩
  | none :: elements, h, h', position, b, b', s, t, hcustom, hfree, ha, hp, hb, ht => by
      obtain ⟨hstep, hyielded⟩ := step_reached ha.sound ha.settled hp.usable hp.reached
      rw [matchElements] at ht ⊢
      rw [matchElements]
      rcases hfirst : s.step h position with ⟨x | _, s₁⟩
      · rw [hfirst] at ht hstep hyielded
        -- what was matched behind the hole comes between its step and the replay
        have hrest := matchElements_acts elements h (position + 1) b s₁
          (hstep.works.sound ha.sound) hstep.settled (hstep.works.usable hp.usable)
          (hyielded x rfl).1
        obtain ⟨t₁, hagain, hact', ha₁, hpoised⟩ := ha.step hp hfirst (hrest.onward.trans ht)
        have hkeeps' := (hact'.proceeds ha.sound' ha.settled').works.leads.keeps
        rw [hagain]
        exact matchElements_replays elements h h' (position + 1) b b' s₁ t₁ hcustom hfree ha₁
          (hpoised x rfl) (hb.keeps hkeeps') (ht.trans hact'.onward)
      · rw [hfirst] at ht
        obtain ⟨t₁, hagain, hact', ha₁, -⟩ := ha.step hp hfirst ht
        rw [hagain]
        exact ⟨.unmatched, ha₁.quiet⟩
  | some p :: elements, h, h', position, b, b', s, t, hcustom, hfree, ha, hp, hb, ht => by
      obtain ⟨hcustomp, hcustom⟩ := Bool.and_eq_true_iff.1 hcustom
      obtain ⟨hfreep, hfree⟩ := Bool.and_eq_true_iff.1 hfree
      rw [matchElements] at ht ⊢
      rw [matchElements]
      cases htrailing : p.trailing? elements with
      | some name =>
          rw [htrailing] at ht
          have hheld := (drainFrom_proceeds ha.sound ha.settled hp.usable hp.reached).2
          dsimp only at ht ⊢
          rcases hfirst : s.drainFrom h position with ⟨items, s₁⟩
          rw [hfirst] at ht hheld
          obtain ⟨t₁, hagain, hact', ha₁⟩ := ha.drainFrom hp hfirst
            ((bindCollected_acts name items b s₁).onward.trans ht)
          have hkeeps' := (hact'.proceeds ha.sound' ha.settled').works.leads.keeps
          rw [hagain]
          -- the array of the first run was made before the replay drained
          exact replays_bindCollected ha₁ name hheld (hb.keeps hkeeps') (ht.trans hact'.onward)
      | none =>
          rw [htrailing] at ht
          obtain ⟨hstep, hyielded⟩ := step_reached ha.sound ha.settled hp.usable hp.reached
          dsimp only at ht ⊢
          rcases hfirst : s.step h position with ⟨x | _, s₁⟩
          · rw [hfirst] at ht hstep hyielded
            obtain ⟨hreached, hx⟩ := hyielded x rfl
            have hs := hstep.works.sound ha.sound
            have hpart := matchAt_acts p (some (.index position)) x s₁ hs hstep.settled hx
            have hreplays := matchAt_replays p (some (.index position)) x s₁
            dsimp only at ht ⊢
            rcases hmatch : matchAt p (some (.index position)) x s₁ with ⟨c | _ | e, s₂⟩
            · rw [hmatch] at ht hpart hreplays
              have hwork := hpart.proceeds hs hstep.settled
              have hrest := matchElements_acts elements h (position + 1) (b.merge c) s₂
                (hwork.works.sound hs) hwork.settled
                (hwork.works.usable (hstep.works.usable hp.usable)) (hwork.works.reached hreached)
              -- the replay comes after the rest of the first run, and has gone one step itself
              have ht₂ : Onward s₂ t := hrest.onward.trans ht
              obtain ⟨t₁, hagain, hact', ha₁, hpoised⟩ :=
                ha.step hp hfirst (hpart.onward.trans ht₂)
              have ht₁ : Onward s₂ t₁ := ht₂.trans hact'.onward
              obtain ⟨y, t₂, hagain', hpart', hboth, houtcome⟩ :=
                ha₁.part hx hmatch ht₁ (hreplays t₁ hcustomp hfreep ha₁ hx ht₁)
              have hkeeps' := (hact'.proceeds ha.sound' ha.settled').works.leads.keeps
              have hwork' := hpart'.proceeds ha₁.sound' ha₁.settled'
              have hb' := (hb.keeps hkeeps').keeps hwork'.works.leads.keeps
              rw [hagain]
              dsimp only
              rw [hagain']
              cases houtcome with
              | @matched _ c' hc =>
                  exact matchElements_replays elements h h' (position + 1) (b.merge c)
                    (b'.merge c') s₂ t₂ hcustom hfree hboth
                    ((hpoised x rfl).later hwork.works hwork'.works) (hb'.merge hc)
                    (ht.trans (hact'.trans hpart').onward)
            · rw [hmatch] at ht hpart hreplays
              obtain ⟨t₁, hagain, hact', ha₁, -⟩ := ha.step hp hfirst (hpart.onward.trans ht)
              have ht₁ : Onward s₂ t₁ := ht.trans hact'.onward
              obtain ⟨y, t₂, hagain', -, hboth, houtcome⟩ :=
                ha₁.part hx hmatch ht₁ (hreplays t₁ hcustomp hfreep ha₁ hx ht₁)
              rw [hagain]
              dsimp only
              rw [hagain']
              cases houtcome
              exact ⟨.unmatched, hboth.quiet⟩
            · rw [hmatch] at ht hpart hreplays
              obtain ⟨t₁, -, hact', ha₁, -⟩ := ha.step hp hfirst (hpart.onward.trans ht)
              -- a part cannot have failed, since no matcher is asked
              cases (hreplays t₁ hcustomp hfreep ha₁ hx (ht.trans hact'.onward)).outcome
          · rw [hfirst] at ht
            obtain ⟨t₁, hagain, hact', ha₁, -⟩ := ha.step hp hfirst ht
            rw [hagain]
            exact ⟨.unmatched, ha₁.quiet⟩

end

/-! ## Sessions -/

/-- **A match can be repeated**: once a pattern without custom matchers and named remainders
    has been matched against a value, and whatever went on in between, matching it again on
    the same cache gives the same outcome; no getter and no factory runs, no source is
    polled, and nothing changes in memory, save that texts are spelled anew. -/
theorem Session.replays {turns : List Turn} {s t : State} (h : Session turns s) {p : Pattern}
    (hcustom : p.customFree = true) (hfree : p.remainderFree = true) {v : Value}
    (held : s.store.holds v = true) (ht : Onward (matchPattern p v s).2 t) :
    Replays t (matchPattern p v s).1 (matchPattern p v t) ∧
      (matchPattern p v t).2.store.trace = t.store.trace := by
  have hacts := matchAt_acts p none v s h.sound h.settled held
  have hproceeds := hacts.proceeds h.sound h.settled
  obtain ⟨hsound, hsettled⟩ :=
    ht.sound_settled (hproceeds.works.sound h.sound) hproceeds.settled
  have hreplays := matchAt_replays p none v s t hcustom hfree
    ⟨h.sound, h.settled, hsound, hsettled, .refl t⟩ held ht
  exact ⟨hreplays, hreplays.quiet.trace_eq⟩

/-- The long pattern has been matched, and the iterator behind it was closed. -/
def Fickle.closed : State := (matchPattern long.toPattern (.ref (.object 0)) start).2.close.2

/-- The long pattern matches once more, with a new array of what is left. -/
theorem Session.replays_fickle :
    (matchPattern Fickle.long.toPattern (.ref (.object 0)) Fickle.start).1 =
        .matched (.insert (.single ⟨"x"⟩ (.text "one")) ⟨"xs"⟩ (.ref (.array 0))) ∧
      (matchPattern Fickle.long.toPattern (.ref (.object 0)) Fickle.closed).1 =
          .matched (.insert (.single ⟨"x"⟩ (.text "one")) ⟨"xs"⟩ (.ref (.array 1))) ∧
        Replays Fickle.closed
            (matchPattern Fickle.long.toPattern (.ref (.object 0)) Fickle.start).1
            (matchPattern Fickle.long.toPattern (.ref (.object 0)) Fickle.closed) ∧
          (matchPattern Fickle.long.toPattern (.ref (.object 0)) Fickle.closed).2.store.trace =
            Fickle.closed.store.trace := by
  have hstart : Session [] Fickle.start := .start (Fickle.blueprint.build_reaches .empty)
  exact ⟨by decide, by decide,
    Session.replays hstart (by decide) (by decide) (by decide) (.close (.refl _))⟩

end StructuralMatch
