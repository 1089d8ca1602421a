import StructuralMatch.Matching.Course
import StructuralMatch.Proofs.Faithful

/-! # The course of a match

    A match puts patterns against values, one after another: its own pattern, and
    the parts of it as far as it comes.  These visits are listed here in order
    (`visitsAt`), each with the state in which it begins.

    The custom matchers among them are all that are asked, and when the match fails,
    the last visit is to a custom matcher and the only one that failed
    (`matchAt_attested`). -/

namespace StructuralMatch

/-- A pattern that is put against a value. -/
structure Visit where
  pattern : Pattern
  place : Option Key
  value : Value
  state : State

namespace Visit

/-- The verdict of the custom matcher that is asked at a visit. -/
def verdict? (w : Visit) : Option (Verdict Unit) :=
  match w.pattern with
  | .custom m => some (w.state.consult m w.value).1
  | _ => none

/-- No custom matcher fails at the visit. -/
def Passes (w : Visit) : Prop := ∀ e, w.verdict? ≠ some (.failed e)

end Visit

mutual

/-- The visits of a match, in order. -/
def visitsAt : Pattern → (place : Option Key) → Value → State → List Visit
  | .custom m, place, v, s => [⟨.custom m, place, v, s⟩]
  | .identifier name, place, v, s => [⟨.identifier name, place, v, s⟩]
  | .rest name, place, v, s => [⟨.rest name, place, v, s⟩]
  | .regex r, place, v, s => [⟨.regex r, place, v, s⟩]
  | .literal p, place, v, s => [⟨.literal p, place, v, s⟩]
  | .array elements, place, v, s =>
      ⟨.array elements, place, v, s⟩ ::
        match s.iteratorFor v with
        | (none, _) => []
        | (some h, s) => visitsElements elements h 0 s
  | .object entries marker, place, v, s =>
      ⟨.object entries marker, place, v, s⟩ ::
        match s.register v with
        | (false, _) => []
        | (true, s) => visitsEntries entries v s

/-- The visits to the patterns of entries. -/
def visitsEntries : List (Key × Pattern) → Value → State → List Visit
  | [], _, _ => []
  | (k, p) :: entries, v, s =>
      if s.store.hasProperty v k then
        let (x, s) := s.read v k
        visitsAt p (some k) x s ++
          match matchAt p (some k) x s with
          | (.matched _, s) => visitsEntries entries v s
          | _ => []
      else []

/-- The visits to the patterns of elements from a position on. -/
def visitsElements : List (Option Pattern) → Handle → (position : Nat) → State → List Visit
  | [], _, _, _ => []
  | none :: elements, h, position, s =>
      match s.step h position with
      | (.done, _) => []
      | (.yielded _, s) => visitsElements elements h (position + 1) s
  | some p :: elements, h, position, s =>
      match p.trailing? elements with
      | some _ => []
      | none =>
          match s.step h position with
          | (.done, _) => []
          | (.yielded x, s) =>
              visitsAt p (some (.index position)) x s ++
                match matchAt p (some (.index position)) x s with
                | (.matched _, s) => visitsElements elements h (position + 1) s
                | _ => []

end

/-! ## Verdicts in the log -/

namespace State

variable (s : State)

/-- Only custom matchers give verdicts. -/
theorem verdicts_register (v : Value) : (s.register v).2.cache.verdicts = s.cache.verdicts := by
  cases v with
  | prim p => rfl
  | ref r =>
      have hlog : (s.register (.ref r)).2.cache.log = s.cache.log := Cache.log_visit _ _
      rw [Cache.verdicts, hlog, Cache.verdicts]

/-- Reading a property gives none. -/
theorem verdicts_read (v : Value) (k : Key) :
    (s.read v k).2.cache.verdicts = s.cache.verdicts := by
  rw [read]
  split
  · rfl
  · split
    · rfl
    · exact (Cache.verdicts_record ..).trans (List.append_nil _)

theorem verdicts_adopt (h : Handle) : (s.adopt h).cache.verdicts = s.cache.verdicts := by
  rw [Cache.verdicts, adopt, Cache.log_adopt, Cache.verdicts]

/-- Getting an iterator gives none. -/
theorem verdicts_iteratorFor (v : Value) :
    (s.iteratorFor v).2.cache.verdicts = s.cache.verdicts := by
  cases v with
  | prim p =>
      cases p with
      | text text =>
          exact verdicts_adopt
            { s with cache := { s.cache with texts := s.cache.texts.push (.begin text) } } _
      | _ => rfl
  | ref r =>
      simp only [iteratorFor]
      split
      · rfl
      · split
        · rfl
        · rename_i i σ heffect
          have hadopt := verdicts_adopt
            ⟨(s.cache.assign r i).record (.opened r i) s.store σ, σ⟩ (.cell i)
          exact hadopt.trans ((Cache.verdicts_record ..).trans (List.append_nil _))

/-- Nor does an advance. -/
theorem verdicts_pull (add : Memo → Step → Memo) (h : Handle) :
    (s.pull add h).2.cache.verdicts = s.cache.verdicts := by
  cases h with
  | cell i => exact (Cache.verdicts_record ..).trans (List.append_nil _)
  | text n => rfl

theorem verdicts_step (h : Handle) (p : Nat) :
    (s.step h p).2.cache.verdicts = s.cache.verdicts :=
  step_preserves (P := fun t => t.cache.verdicts = s.cache.verdicts) (s.verdicts_adopt h)
    (fun t ht => (t.verdicts_pull _ h).trans ht) p

theorem verdicts_drainFrom (h : Handle) (p : Nat) :
    (s.drainFrom h p).2.cache.verdicts = s.cache.verdicts :=
  drainFrom_preserves (P := fun t => t.cache.verdicts = s.cache.verdicts) (s.verdicts_adopt h)
    (fun t ht => (t.verdicts_pull _ h).trans ht) p

theorem verdicts_bindCollected (name : Option Key) (items : List Value) (b : Bindings) :
    (bindCollected name items b s).2.cache.verdicts = s.cache.verdicts := by
  cases name with
  | none => rfl
  | some name => exact (Cache.verdicts_record ..).trans (List.append_nil _)

/-- Nor does copying what is left. -/
theorem verdicts_bindRemainder (marker : Option RestMarker) (keys : List Key) (v : Value)
    (b : Bindings) : (bindRemainder marker keys v b s).2.cache.verdicts = s.cache.verdicts := by
  rw [bindRemainder]
  split
  · rfl
  · exact (Cache.verdicts_record ..).trans (List.append_nil _)

end State

/-! ## What the visits tell -/

/-- The last visit is to a custom matcher, and the first that fails. -/
structure FirstFault (visits : List Visit) (m : Matcher) (w : Visit) (e : MatchError) : Prop where
  custom : w.pattern = .custom m
  fails : (w.state.consult m w.value).1 = .failed e
  last : ∃ before, visits = before ++ [w] ∧ ∀ u ∈ before, u.Passes

namespace FirstFault

variable {visits : List Visit} {m m' : Matcher} {w w' : Visit} {e e' : MatchError}

/-- Where there is a fault, not all visits pass. -/
theorem not_passes (h : FirstFault visits m w e) : ¬∀ u ∈ visits, u.Passes := by
  intro hall
  obtain ⟨before, rfl, -⟩ := h.last
  have hverdict : w.verdict? = some (.failed e) := by
    rw [Visit.verdict?, h.custom, ← h.fails]
  exact hall w (by simp) e hverdict

/-- There is one first fault at most. -/
theorem unique (h : FirstFault visits m w e) (h' : FirstFault visits m' w' e') :
    m = m' ∧ w = w' ∧ e = e' := by
  obtain ⟨before, hvisits, -⟩ := h.last
  obtain ⟨before', hvisits', -⟩ := h'.last
  -- both are the last visit
  have hlast : before ++ [w] = before' ++ [w'] := hvisits.symm.trans hvisits'
  obtain rfl : w = w' := List.singleton_inj.1 (List.append_inj' hlast rfl).2
  obtain rfl : m = m' := Pattern.custom.inj (h.custom.symm.trans h'.custom)
  exact ⟨rfl, rfl, Verdict.failed.inj (h.fails.symm.trans h'.fails)⟩

end FirstFault

/-- The outcome of a match that ended in this state is as its visits tell. -/
inductive Verdict.Follows (visits : List Visit) : Verdict Bindings → State → Prop where
  | matched {b : Bindings} {t : State} (passes : ∀ w ∈ visits, w.Passes) :
      Follows visits (.matched b) t
  | unmatched {t : State} (passes : ∀ w ∈ visits, w.Passes) : Follows visits .unmatched t
  | failed {m : Matcher} {w : Visit} {e : MatchError} (fault : FirstFault visits m w e) :
      Follows visits (.failed (e.blame m.name)) (w.state.consult m w.value).2

/-- The visits tell the verdicts of custom matchers that a match added to the log, and its
    outcome. -/
structure Attested (s : State) (visits : List Visit) (run : Verdict Bindings × State) : Prop where
  verdicts : run.2.cache.verdicts = s.cache.verdicts ++ visits.filterMap Visit.verdict?
  outcome : run.1.Follows visits run.2

section Combining

variable {s t : State} {visits more : List Visit} {run : Verdict Bindings × State} {w : Visit}

/-- Nothing is visited and no verdict is given. -/
theorem attested_nil {x : Verdict Bindings} (hx : ∀ e, x ≠ .failed e)
    (h : t.cache.verdicts = s.cache.verdicts) : Attested s [] (x, t) := by
  refine ⟨h.trans (List.append_nil _).symm, ?_⟩
  cases x with
  | matched b => exact .matched (by simp)
  | unmatched => exact .unmatched (by simp)
  | failed e => exact absurd rfl (hx e)

/-- Something is done first that gives no verdict. -/
theorem Attested.after (h : Attested t visits run) (hst : t.cache.verdicts = s.cache.verdicts) :
    Attested s visits run := ⟨h.verdicts.trans (by rw [hst]), h.outcome⟩

/-- Something is done in the end that gives no verdict. -/
theorem Attested.before {b c : Bindings} (h : Attested s visits (.matched b, t)) {u : State}
    (htu : u.cache.verdicts = t.cache.verdicts) : Attested s visits (.matched c, u) := by
  refine ⟨htu.trans h.verdicts, ?_⟩
  cases h.outcome with
  | matched passes => exact .matched passes

/-- A part matched, and the match goes on. -/
theorem Attested.append {b : Bindings} (h : Attested s visits (.matched b, t))
    (hmore : Attested t more run) : Attested s (visits ++ more) run := by
  have hpasses : ∀ w ∈ visits, w.Passes := by
    cases h.outcome with
    | matched passes => exact passes
  refine ⟨?_, ?_⟩
  · rw [hmore.verdicts, h.verdicts, List.filterMap_append, List.append_assoc]
  · obtain ⟨x, u⟩ := run
    have houtcome := hmore.outcome
    dsimp only at houtcome ⊢
    have hall : (∀ w ∈ more, w.Passes) → ∀ w ∈ visits ++ more, w.Passes := by
      intro hpasses' w hw
      rcases List.mem_append.1 hw with hw | hw
      · exact hpasses w hw
      · exact hpasses' w hw
    cases houtcome with
    | matched passes => exact .matched (hall passes)
    | unmatched passes => exact .unmatched (hall passes)
    | failed fault =>
        obtain ⟨before, rfl, hbefore⟩ := fault.last
        refine .failed ⟨fault.custom, fault.fails, visits ++ before, ?_, ?_⟩
        · rw [List.append_assoc]
        · intro w hw
          rcases List.mem_append.1 hw with hw | hw
          · exact hpasses w hw
          · exact hbefore w hw

/-- A visit to a pattern that is no custom matcher, in front. -/
theorem Attested.cons (h : Attested s visits run) (hw : w.verdict? = none) :
    Attested s (w :: visits) run := by
  have hfirst : Attested s [w] (.matched .empty, s) := by
    refine ⟨?_, .matched ?_⟩
    · rw [List.filterMap_cons_none hw]
      exact (List.append_nil _).symm
    · intro u hu e
      rw [List.mem_singleton.1 hu, hw]
      simp
  exact hfirst.append h

/-- A visit that asks no matcher and does not fail. -/
theorem attested_leaf {x : Verdict Bindings} (hx : ∀ e, x ≠ .failed e) (hw : w.verdict? = none) :
    Attested s [w] (x, s) := (attested_nil hx rfl).cons hw

/-- The visit to a custom matcher that fails. -/
theorem firstFault_custom {m : Matcher} {v : Value} {e : MatchError}
    (h : (s.consult m v).1 = .failed e) (place : Option Key) :
    FirstFault (visitsAt (.custom m) place v s) m ⟨.custom m, place, v, s⟩ e := by
  rw [visitsAt]
  exact ⟨rfl, h, [], rfl, by simp⟩

/-- A visit to a custom matcher. -/
theorem attested_custom (m : Matcher) (place : Option Key) (v : Value) (s : State) :
    Attested s (visitsAt (.custom m) place v s) (matchCustom m v s) := by
  refine ⟨?_, ?_⟩
  · rw [visitsAt]
    exact Cache.verdicts_record ..
  · have hpasses : (∀ e, (s.consult m v).1 ≠ .failed e) →
        ∀ w ∈ visitsAt (.custom m) place v s, w.Passes := by
      intro hnot w hw e he
      rw [visitsAt] at hw
      rw [List.mem_singleton.1 hw] at he
      exact hnot e (Option.some.inj he)
    rw [matchCustom]
    dsimp only
    cases hverdict : (s.consult m v).1 with
    | matched _ => exact .matched (hpasses (by simp [hverdict]))
    | unmatched => exact .unmatched (hpasses (by simp [hverdict]))
    | failed e => exact .failed (firstFault_custom hverdict place)

end Combining

mutual

/-- The visits of a match tell what came of it. -/
theorem matchAt_attested : ∀ (p : Pattern) (place : Option Key) (v : Value) (s : State),
    Attested s (visitsAt p place v s) (matchAt p place v s)
  | .custom m, place, v, s => by
      rw [matchAt]
      exact attested_custom m place v s
  | .identifier name, place, v, s => by
      rw [visitsAt, matchAt]
      exact attested_leaf (by simp) rfl
  | .rest name, place, v, s => by
      rw [visitsAt, matchAt]
      exact attested_leaf (by simp) rfl
  | .regex r, place, v, s => by
      rw [visitsAt, matchAt, matchRegex]
      split <;> exact attested_leaf (by simp) rfl
  | .literal q, place, v, s => by
      rw [visitsAt, matchAt, matchLiteral]
      split <;> exact attested_leaf (by simp) rfl
  | .array elements, place, v, s => by
      have hverdicts := s.verdicts_iteratorFor v
      rw [visitsAt, matchAt]
      refine .cons ?_ rfl
      generalize s.iteratorFor v = opened at hverdicts ⊢
      rcases opened with ⟨_ | h, t⟩
      · exact attested_nil (by simp) hverdicts
      · exact (matchElements_attested elements h 0 .empty t).after hverdicts
  | .object entries marker, place, v, s => by
      have hverdicts := s.verdicts_register v
      rw [visitsAt, matchAt]
      refine .cons ?_ rfl
      generalize s.register v = registered at hverdicts ⊢
      rcases registered with ⟨_ | _, t⟩
      · exact attested_nil (by simp) hverdicts
      · have hentries := (matchEntries_attested entries v .empty t).after hverdicts
        dsimp only
        generalize matchEntries entries v .empty t = matched at hentries ⊢
        rcases matched with ⟨b | _ | e, u⟩
        · -- binding what is left comes behind all visits
          exact hentries.before (u.verdicts_bindRemainder marker _ v b)
        · exact hentries
        · exact hentries

/-- The visits of entries do, too. -/
theorem matchEntries_attested : ∀ (entries : List (Key × Pattern)) (v : Value) (b : Bindings)
    (s : State), Attested s (visitsEntries entries v s) (matchEntries entries v b s)
  | [], v, b, s => by
      rw [visitsEntries, matchEntries]
      exact attested_nil (by simp) rfl
  | (k, p) :: entries, v, b, s => by
      rw [visitsEntries, matchEntries]
      split
      · have hverdicts := s.verdicts_read v k
        generalize s.read v k = readed at hverdicts ⊢
        obtain ⟨x, t⟩ := readed
        have hp := matchAt_attested p (some k) x t
        dsimp only
        refine .after ?_ hverdicts
        -- only after a match is the next entry visited
        generalize matchAt p (some k) x t = matched at hp ⊢
        rcases matched with ⟨c | _ | e, u⟩
        · exact hp.append (matchEntries_attested entries v (b.merge c) u)
        · rw [List.append_nil]
          exact hp
        · rw [List.append_nil]
          exact hp
      · exact attested_nil (by simp) rfl

/-- And so do those of elements. -/
theorem matchElements_attested : ∀ (elements : List (Option Pattern)) (h : Handle)
    (position : Nat) (b : Bindings) (s : State),
      Attested s (visitsElements elements h position s) (matchElements elements h position b s)
  | [], h, position, b, s => by
      have hverdicts := s.verdicts_step h position
      rw [visitsElements, matchElements]
      generalize s.step h position = stepped at hverdicts ⊢
      rcases stepped with ⟨x | _, t⟩
      · exact attested_nil (by simp) hverdicts
      · exact attested_nil (by simp) hverdicts
  | none :: elements, h, position, b, s => by
      have hverdicts := s.verdicts_step h position
      rw [visitsElements, matchElements]
      generalize s.step h position = stepped at hverdicts ⊢
      rcases stepped with ⟨x | _, t⟩
      · exact (matchElements_attested elements h (position + 1) b t).after hverdicts
      · exact attested_nil (by simp) hverdicts
  | some p :: elements, h, position, b, s => by
      rw [visitsElements, matchElements]
      cases p.trailing? elements with
      | some name =>
          exact attested_nil (by simp)
            ((State.verdicts_bindCollected ..).trans (s.verdicts_drainFrom h position))
      | none =>
          have hverdicts := s.verdicts_step h position
          dsimp only
          generalize s.step h position = stepped at hverdicts ⊢
          rcases stepped with ⟨x | _, t⟩
          · have hp := matchAt_attested p (some (.index position)) x t
            dsimp only
            refine .after ?_ hverdicts
            generalize matchAt p (some (.index position)) x t = matched at hp ⊢
            rcases matched with ⟨c | _ | e, u⟩
            · exact hp.append (matchElements_attested elements h (position + 1) (b.merge c) u)
            · rw [List.append_nil]
              exact hp
            · rw [List.append_nil]
              exact hp
          · exact attested_nil (by simp) hverdicts

end

end StructuralMatch
