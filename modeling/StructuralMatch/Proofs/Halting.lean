import StructuralMatch.Proofs.Presence

/-! # Where a match halts

    Entries and elements are matched one after another, and the first that is not
    there, does not match or fails halts the match.  `haltEntries` and `haltElements`
    say where that is, why, and which state it leaves behind.

    What stands after this place has left no trace: any pattern that begins the same
    way gives the same outcome and the same state, the store with its trace included
    (`halting_leaves_no_trace`).  And a key that is not there is not remembered, since
    only properties that are there ever are (`Session.remembers_present`). -/

namespace StructuralMatch

/-! ## Halts -/

/-- What can be in the way of a match. -/
inductive Obstacle where
  /-- The property or the element is not there. -/
  | absent
  /-- The part does not match. -/
  | declined
  /-- The part fails. -/
  | failed (e : MatchError)
deriving DecidableEq

/-- What the match comes to. -/
def Obstacle.verdict : Obstacle → Verdict Bindings
  | .absent => .unmatched
  | .declined => .unmatched
  | .failed e => .failed e

/-- The place where a match halts, and the state it leaves behind. -/
structure Halt where
  position : Nat
  obstacle : Obstacle
  state : State

/-- What a match comes to that halts. -/
def Halt.outcome (halt : Halt) : Verdict Bindings × State := (halt.obstacle.verdict, halt.state)

/-- Where matching entries halts; the first has this position. -/
def haltEntries : List (Key × Pattern) → Value → (position : Nat) → State → Option Halt
  | [], _, _, _ => none
  | (k, p) :: entries, v, position, s =>
      if s.store.hasProperty v k then
        let (x, s) := s.read v k
        match matchAt p (some k) x s with
        | (.matched _, s) => haltEntries entries v (position + 1) s
        | (.unmatched, s) => some ⟨position, .declined, s⟩
        | (.failed e, s) => some ⟨position, .failed e, s⟩
      else some ⟨position, .absent, s⟩

/-- Where matching elements halts, from a position on.  The rest marker at the end and the
    look for one element too many are no part of it. -/
def haltElements : List (Option Pattern) → Handle → (position : Nat) → State → Option Halt
  | [], _, _, _ => none
  | none :: elements, h, position, s =>
      match s.step h position with
      | (.done, s) => some ⟨position, .absent, s⟩
      | (.yielded _, s) => haltElements elements h (position + 1) s
  | some p :: elements, h, position, s =>
      match p.trailing? elements with
      | some _ => none
      | none =>
          match s.step h position with
          | (.done, s) => some ⟨position, .absent, s⟩
          | (.yielded x, s) =>
              match matchAt p (some (.index position)) x s with
              | (.matched _, s) => haltElements elements h (position + 1) s
              | (.unmatched, s) => some ⟨position, .declined, s⟩
              | (.failed e, s) => some ⟨position, .failed e, s⟩

/-- Where an object pattern halts at a value, if it does. -/
def ObjectPattern.halt? (o : ObjectPattern) (v : Value) (s : State) : Option Halt :=
  match s.register v with
  | (false, _) => none
  | (true, s) => haltEntries o.entries v 0 s

/-- Where an array pattern halts at the elements of a value, if it does. -/
def ArrayPattern.halt? (a : ArrayPattern) (v : Value) (s : State) : Option Halt :=
  match s.iteratorFor v with
  | (none, _) => none
  | (some h, s) => haltElements a.elements h 0 s

/-- Where an array pattern halts at an iterator, if it does. -/
def ArrayPattern.haltOn? (a : ArrayPattern) (cell : Nat) (s : State) : Option Halt :=
  haltElements a.elements (.cell cell) 0 s

/-- The elements before a rest marker at the end. -/
def ArrayPattern.body (a : ArrayPattern) : List (Option Pattern) :=
  (Pattern.splitRest a.elements).1

/-! ## Entries -/

section Entries

variable {entries entries' : List (Key × Pattern)} {v : Value} {position : Nat} {s : State}
  {halt : Halt}

theorem position_le_haltEntries (h : haltEntries entries v position s = some halt) :
    position ≤ halt.position := by
  induction entries generalizing position s with
  | nil => cases h
  | cons entry entries ih =>
      obtain ⟨k, p⟩ := entry
      rw [haltEntries] at h
      split at h
      · dsimp only at h
        split at h
        · exact Nat.le_of_succ_le (ih h)
        · exact Option.some.inj h ▸ Nat.le_refl _
        · exact Option.some.inj h ▸ Nat.le_refl _
      · exact Option.some.inj h ▸ Nat.le_refl _

/-- A halt decides what matching entries comes to. -/
theorem matchEntries_of_halt (h : haltEntries entries v position s = some halt) (b : Bindings) :
    matchEntries entries v b s = halt.outcome := by
  induction entries generalizing position s b with
  | nil => cases h
  | cons entry entries ih =>
      obtain ⟨k, p⟩ := entry
      rw [haltEntries] at h
      rw [matchEntries]
      split at h
      · rename_i hpresent
        rw [if_pos hpresent]
        dsimp only at h ⊢
        generalize matchAt p (some k) (s.read v k).1 (s.read v k).2 = matched at h ⊢
        rcases matched with ⟨c | _ | e, t⟩
        · exact ih h (b.merge c)
        · exact Option.some.inj h ▸ rfl
        · exact Option.some.inj h ▸ rfl
      · rename_i habsent
        rw [if_neg habsent]
        exact Option.some.inj h ▸ rfl

/-- Matching entries that never halts succeeds. -/
theorem matchEntries_of_no_halt (h : haltEntries entries v position s = none) (b : Bindings) :
    ∃ c t, matchEntries entries v b s = (.matched c, t) := by
  induction entries generalizing position s b with
  | nil => exact ⟨b, s, by rw [matchEntries]⟩
  | cons entry entries ih =>
      obtain ⟨k, p⟩ := entry
      rw [haltEntries] at h
      rw [matchEntries]
      split at h
      · rename_i hpresent
        rw [if_pos hpresent]
        dsimp only at h ⊢
        generalize matchAt p (some k) (s.read v k).1 (s.read v k).2 = matched at h ⊢
        rcases matched with ⟨c | _ | e, t⟩
        · exact ih h (b.merge c)
        · cases h
        · cases h
      · cases h

/-- Entries that begin the same way, up to where the match halts, halt in the same way. -/
theorem haltEntries_eq_of_take (h : haltEntries entries v position s = some halt)
    (htake : entries'.take (halt.position + 1 - position) =
      entries.take (halt.position + 1 - position)) :
    haltEntries entries' v position s = some halt := by
  induction entries generalizing entries' position s with
  | nil => cases h
  | cons entry entries ih =>
      have hle := position_le_haltEntries h
      -- at least the first entry is the same
      obtain ⟨n, hn⟩ : ∃ n, halt.position + 1 - position = n + 1 :=
        ⟨halt.position - position, by omega⟩
      rw [hn, List.take_succ_cons] at htake
      cases entries' with
      | nil => cases htake
      | cons entry' entries' =>
          rw [List.take_succ_cons, List.cons.injEq] at htake
          obtain ⟨rfl, hrest⟩ := htake
          obtain ⟨k, p⟩ := entry'
          rw [haltEntries] at h ⊢
          split at h
          · rename_i hpresent
            rw [if_pos hpresent]
            dsimp only at h ⊢
            generalize matchAt p (some k) (s.read v k).1 (s.read v k).2 = matched at h ⊢
            rcases matched with ⟨c | _ | e, t⟩
            · have hlater : halt.position + 1 - (position + 1) = n := by omega
              exact ih h (by rw [hlater]; exact hrest)
            · exact h
            · exact h
          · rename_i habsent
            rw [if_neg habsent]
            exact h

/-- Where an entry halts a match because its key is absent, the value has no such property. -/
theorem haltEntries_absent (h : haltEntries entries v position s = some halt)
    (habsent : halt.obstacle = .absent) :
    ∃ k p, entries[halt.position - position]? = some (k, p) ∧
      halt.state.store.hasProperty v k = false := by
  induction entries generalizing position s with
  | nil => cases h
  | cons entry entries ih =>
      obtain ⟨k, p⟩ := entry
      rw [haltEntries] at h
      split at h
      · dsimp only at h
        generalize matchAt p (some k) (s.read v k).1 (s.read v k).2 = matched at h
        rcases matched with ⟨c | _ | e, t⟩
        · obtain ⟨j, q, hentry, hnot⟩ := ih h
          have hlater : halt.position - position = halt.position - (position + 1) + 1 := by
            have := position_le_haltEntries h
            omega
          exact ⟨j, q, by rw [hlater]; exact hentry, hnot⟩
        · rw [← Option.some.inj h] at habsent
          cases habsent
        · rw [← Option.some.inj h] at habsent
          cases habsent
      · rename_i hnot
        rw [← Option.some.inj h, Nat.sub_self]
        exact ⟨k, p, rfl, Bool.eq_false_iff.2 hnot⟩

end Entries

/-! ## Elements -/

namespace Pattern

/-- An element that is not a rest marker at the end belongs to the body. -/
theorem splitRest_cons {e : Option Pattern} {elements : List (Option Pattern)}
    (h : ∀ p, e = some p → p.trailing? elements = none) :
    splitRest (e :: elements) = (e :: (splitRest elements).1, (splitRest elements).2) := by
  cases elements with
  | nil =>
      cases e with
      | none => rfl
      | some p =>
          cases p with
          | rest name => cases h _ rfl
          | _ => rfl
  | cons f rest =>
      simp only [splitRest, List.getLast?_cons_cons, List.dropLast_cons_cons]
      split <;> rfl

/-- The first element belongs to the body unless it is a rest marker at the end. -/
theorem trailing?_eq_none_of_body {p : Pattern} {elements : List (Option Pattern)}
    (h : 0 < (splitRest (some p :: elements)).1.length) : p.trailing? elements = none := by
  cases elements with
  | nil =>
      cases p with
      | rest name => exact absurd h (Nat.lt_irrefl 0)
      | _ => rfl
  | cons e elements => cases p <;> rfl

end Pattern

section Elements

variable {elements elements' : List (Option Pattern)} {h : Handle} {position : Nat} {s : State}
  {halt : Halt}

theorem position_le_haltElements (hhalt : haltElements elements h position s = some halt) :
    position ≤ halt.position := by
  induction elements generalizing position s with
  | nil => cases hhalt
  | cons element elements ih =>
      cases element with
      | none =>
          rw [haltElements] at hhalt
          split at hhalt
          · exact Option.some.inj hhalt ▸ Nat.le_refl _
          · exact Nat.le_of_succ_le (ih hhalt)
      | some p =>
          rw [haltElements] at hhalt
          split at hhalt
          · cases hhalt
          · split at hhalt
            · exact Option.some.inj hhalt ▸ Nat.le_refl _
            · split at hhalt
              · exact Nat.le_of_succ_le (ih hhalt)
              · exact Option.some.inj hhalt ▸ Nat.le_refl _
              · exact Option.some.inj hhalt ▸ Nat.le_refl _

/-- A halt decides what matching elements comes to. -/
theorem matchElements_of_halt (hhalt : haltElements elements h position s = some halt)
    (b : Bindings) : matchElements elements h position b s = halt.outcome := by
  induction elements generalizing position s b with
  | nil => cases hhalt
  | cons element elements ih =>
      cases element with
      | none =>
          rw [haltElements] at hhalt
          rw [matchElements]
          generalize s.step h position = stepped at hhalt ⊢
          rcases stepped with ⟨x | _, t⟩
          · exact ih hhalt b
          · exact Option.some.inj hhalt ▸ rfl
      | some p =>
          rw [haltElements] at hhalt
          rw [matchElements]
          cases htrailing : p.trailing? elements with
          | some name =>
              rw [htrailing] at hhalt
              cases hhalt
          | none =>
              rw [htrailing] at hhalt
              dsimp only at hhalt ⊢
              generalize s.step h position = stepped at hhalt ⊢
              rcases stepped with ⟨x | _, t⟩
              · dsimp only at hhalt ⊢
                generalize matchAt p (some (.index position)) x t = matched at hhalt ⊢
                rcases matched with ⟨c | _ | e, u⟩
                · exact ih hhalt (b.merge c)
                · exact Option.some.inj hhalt ▸ rfl
                · exact Option.some.inj hhalt ▸ rfl
              · exact Option.some.inj hhalt ▸ rfl

/-- Matching elements that never halts succeeds, or it finds an element too many. -/
theorem matchElements_of_no_halt (hhalt : haltElements elements h position s = none)
    (b : Bindings) : ∃ t, (∃ c, matchElements elements h position b s = (.matched c, t)) ∨
      (Pattern.splitRest elements).2 = none ∧
        matchElements elements h position b s = (.unmatched, t) := by
  induction elements generalizing position s b with
  | nil =>
      refine ⟨(s.step h position).2, ?_⟩
      rw [matchElements]
      dsimp only
      split
      · exact .inl ⟨b, rfl⟩
      · exact .inr ⟨rfl, rfl⟩
  | cons element elements ih =>
      cases element with
      | none =>
          rw [Pattern.splitRest_cons (by simp)]
          rw [haltElements] at hhalt
          rw [matchElements]
          generalize s.step h position = stepped at hhalt ⊢
          rcases stepped with ⟨x | _, t⟩
          · exact ih hhalt b
          · cases hhalt
      | some p =>
          rw [haltElements] at hhalt
          rw [matchElements]
          cases htrailing : p.trailing? elements with
          | some name => exact ⟨_, .inl ⟨_, rfl⟩⟩
          | none =>
              rw [htrailing] at hhalt
              rw [Pattern.splitRest_cons (by simpa using htrailing)]
              dsimp only at hhalt ⊢
              generalize s.step h position = stepped at hhalt ⊢
              rcases stepped with ⟨x | _, t⟩
              · dsimp only at hhalt ⊢
                generalize matchAt p (some (.index position)) x t = matched at hhalt ⊢
                rcases matched with ⟨c | _ | e, u⟩
                · exact ih hhalt (b.merge c)
                · cases hhalt
                · cases hhalt
              · cases hhalt

/-- Elements that begin the same way, up to where the match halts and with this place in
    their body, halt in the same way. -/
theorem haltElements_eq_of_take (hhalt : haltElements elements h position s = some halt)
    (htake : elements'.take (halt.position + 1 - position) =
      elements.take (halt.position + 1 - position))
    (hbody : halt.position - position < (Pattern.splitRest elements').1.length) :
    haltElements elements' h position s = some halt := by
  induction elements generalizing elements' position s with
  | nil => cases hhalt
  | cons element elements ih =>
      have hle := position_le_haltElements hhalt
      -- at least the first element is the same
      obtain ⟨n, hn⟩ : ∃ n, halt.position + 1 - position = n + 1 :=
        ⟨halt.position - position, by omega⟩
      rw [hn, List.take_succ_cons] at htake
      cases elements' with
      | nil => cases htake
      | cons element' elements' =>
          rw [List.take_succ_cons, List.cons.injEq] at htake
          obtain ⟨rfl, hrest⟩ := htake
          -- the place of the halt is in the body, so the first element is no trailing rest
          have hmark : ∀ p, element' = some p → p.trailing? elements' = none := by
            rintro p rfl
            exact Pattern.trailing?_eq_none_of_body (Nat.zero_lt_of_lt hbody)
          rw [Pattern.splitRest_cons hmark, List.length_cons] at hbody
          have hlater : halt.position + 1 - (position + 1) = n := by omega
          -- a halt further on is that of the other elements, by induction
          have hon : ∀ {t : State}, haltElements elements h (position + 1) t = some halt →
              haltElements elements' h (position + 1) t = some halt := by
            intro t ht
            have hnext := position_le_haltElements ht
            exact ih ht (by rw [hlater]; exact hrest) (by omega)
          cases element' with
          | none =>
              rw [haltElements] at hhalt ⊢
              generalize s.step h position = stepped at hhalt ⊢
              rcases stepped with ⟨x | _, t⟩
              · exact hon hhalt
              · exact hhalt
          | some p =>
              rw [haltElements] at hhalt ⊢
              rw [hmark p rfl]
              cases htrailing : p.trailing? elements with
              | some name =>
                  rw [htrailing] at hhalt
                  cases hhalt
              | none =>
                  rw [htrailing] at hhalt
                  dsimp only at hhalt ⊢
                  generalize s.step h position = stepped at hhalt ⊢
                  rcases stepped with ⟨x | _, t⟩
                  · dsimp only at hhalt ⊢
                    generalize matchAt p (some (.index position)) x t = matched at hhalt ⊢
                    rcases matched with ⟨c | _ | e, u⟩
                    · exact hon hhalt
                    · exact hhalt
                    · exact hhalt
                  · exact hhalt

end Elements

/-! ## What follows a halt leaves no trace -/

/-- Matching an object pattern comes to what its halt says, if it halts; it succeeds if it
    does not and the value has properties at all. -/
theorem ObjectPattern.outcome_of_halt? (o : ObjectPattern) (v : Value) (s : State) :
    match o.halt? v s with
    | some halt => matchObject o v s = halt.outcome
    | none => (s.register v).1 = true → ∃ b, (matchObject o v s).1 = .matched b := by
  rw [halt?, matchObject, matchPattern, toPattern, matchAt]
  generalize s.register v = registered
  rcases registered with ⟨_ | _, t⟩
  · exact fun h => nomatch h
  · dsimp only
    cases hhalt : haltEntries o.entries v 0 t with
    | some halt =>
        dsimp only
        rw [matchEntries_of_halt hhalt]
        obtain ⟨position, obstacle, u⟩ := halt
        cases obstacle <;> rfl
    | none =>
        obtain ⟨c, u, hmatched⟩ := matchEntries_of_no_halt hhalt .empty
        rw [hmatched]
        exact fun _ => ⟨_, rfl⟩

/-- An object pattern that begins the same way, up to where the match halts, halts in the
    same way. -/
theorem ObjectPattern.halt?_eq_of_take {o o' : ObjectPattern} {v : Value} {s : State} {halt : Halt}
    (h : o.halt? v s = some halt)
    (htake : o'.entries.take (halt.position + 1) = o.entries.take (halt.position + 1)) :
    o'.halt? v s = some halt := by
  rw [halt?] at h ⊢
  generalize s.register v = registered at h ⊢
  rcases registered with ⟨_ | _, t⟩
  · exact h
  · exact haltEntries_eq_of_take h htake

/-- Matching an array pattern comes to what its halt says, if it halts; it succeeds or finds
    an element too many if it does not and the value has elements at all. -/
theorem ArrayPattern.outcome_of_halt? (a : ArrayPattern) (v : Value) (s : State) :
    match a.halt? v s with
    | some halt => matchPattern a.toPattern v s = halt.outcome
    | none => (s.iteratorFor v).1.isSome = true →
        (∃ b, (matchPattern a.toPattern v s).1 = .matched b) ∨
          (Pattern.splitRest a.elements).2 = none ∧
            (matchPattern a.toPattern v s).1 = .unmatched := by
  rw [halt?, matchPattern, toPattern, matchAt]
  generalize s.iteratorFor v = opened
  rcases opened with ⟨_ | h, t⟩
  · exact fun h => nomatch h
  · dsimp only
    cases hhalt : haltElements a.elements h 0 t with
    | some halt => exact matchElements_of_halt hhalt .empty
    | none =>
        intro _
        obtain ⟨u, ⟨c, hmatched⟩ | ⟨hrest, hmany⟩⟩ := matchElements_of_no_halt hhalt .empty
        · exact .inl ⟨c, by rw [hmatched]⟩
        · exact .inr ⟨hrest, by rw [hmany]⟩

/-- An array pattern that begins the same way, up to where the match halts and with this
    place in its body, halts in the same way. -/
theorem ArrayPattern.halt?_eq_of_take {a a' : ArrayPattern} {v : Value} {s : State} {halt : Halt}
    (h : a.halt? v s = some halt)
    (htake : a'.elements.take (halt.position + 1) = a.elements.take (halt.position + 1))
    (hbody : halt.position < a'.body.length) : a'.halt? v s = some halt := by
  rw [halt?] at h ⊢
  generalize s.iteratorFor v = opened at h ⊢
  rcases opened with ⟨_ | handle, t⟩
  · exact h
  · exact haltElements_eq_of_take h htake hbody

/-- **What follows a halt leaves no trace.**  If matching an object pattern, or an array
    pattern against a value or an iterator, halts at a position, then any pattern that is
    the same up to there, with the position in its body, comes to the same outcome and
    leaves the same state: the same memory and the same trace of getters, factories, polls
    and custom matchers.  A key at which the match halts because it is absent is not
    remembered. -/
theorem halting_leaves_no_trace :
    (∀ (o o' : ObjectPattern) (v : Value) (s : State) (halt : Halt), o.halt? v s = some halt →
      o'.entries.take (halt.position + 1) = o.entries.take (halt.position + 1) →
        matchObject o v s = halt.outcome ∧ matchObject o' v s = matchObject o v s) ∧
    (∀ (a a' : ArrayPattern) (v : Value) (s : State) (halt : Halt), a.halt? v s = some halt →
      a'.elements.take (halt.position + 1) = a.elements.take (halt.position + 1) →
        halt.position < a'.body.length →
          matchPattern a.toPattern v s = halt.outcome ∧
            matchPattern a'.toPattern v s = matchPattern a.toPattern v s) ∧
    (∀ (a a' : ArrayPattern) (cell : Nat) (s : State) (halt : Halt),
      a.haltOn? cell s = some halt →
        a'.elements.take (halt.position + 1) = a.elements.take (halt.position + 1) →
          halt.position < a'.body.length →
            matchArray a cell s = halt.outcome ∧ matchArray a' cell s = matchArray a cell s) ∧
    ∀ (turns : List Turn) (s : State), Session turns s →
      ∀ (o : ObjectPattern) (v : Value) (halt : Halt), s.store.holds v = true →
        o.halt? v s = some halt → halt.obstacle = .absent →
          ∃ k p, o.entries[halt.position]? = some (k, p) ∧
            halt.state.store.hasProperty v k = false ∧
              halt.state.cache.property? v k = none := by
  -- a match that halts is determined by its halt, and so are both of two that halt alike
  have hobject : ∀ {o : ObjectPattern} {v : Value} {s : State} {halt : Halt},
      o.halt? v s = some halt → matchObject o v s = halt.outcome := by
    intro o v s halt h
    have houtcome := o.outcome_of_halt? v s
    rwa [h] at houtcome
  have harray : ∀ {a : ArrayPattern} {v : Value} {s : State} {halt : Halt},
      a.halt? v s = some halt → matchPattern a.toPattern v s = halt.outcome := by
    intro a v s halt h
    have houtcome := a.outcome_of_halt? v s
    rwa [h] at houtcome
  refine ⟨?_, ?_, ?_, ?_⟩
  · intro o o' v s halt h htake
    exact ⟨hobject h, (hobject (ObjectPattern.halt?_eq_of_take h htake)).trans (hobject h).symm⟩
  · intro a a' v s halt h htake hbody
    exact ⟨harray h, (harray (ArrayPattern.halt?_eq_of_take h htake hbody)).trans (harray h).symm⟩
  · intro a a' cell s halt h htake hbody
    have ha : matchArray a cell s = halt.outcome := matchElements_of_halt h .empty
    have ha' : matchArray a' cell s = halt.outcome :=
      matchElements_of_halt (haltElements_eq_of_take h htake hbody) .empty
    exact ⟨ha, ha'.trans ha.symm⟩
  · intro turns s hsession o v halt held h habsent
    -- the call ends where the match halts, so that state is one of the session
    obtain ⟨turns', hafter⟩ : ∃ turns', Session turns' halt.state := by
      have hcall := hsession.call (.object o v) held
      rw [Call.perform, hobject h] at hcall
      exact ⟨_, hcall⟩
    rw [ObjectPattern.halt?] at h
    cases v with
    | prim p => cases h
    | ref r =>
        obtain ⟨k, p, hentry, hnot⟩ := haltEntries_absent h habsent
        refine ⟨k, p, hentry, hnot, ?_⟩
        cases hknown : halt.state.cache.property? (.ref r) k with
        | none => rfl
        | some x =>
            -- what is remembered is there
            rw [hafter.remembers_present hknown] at hnot
            cases hnot

namespace Halted

/-- An object with a text, a list of two, and an iterator. -/
def blueprint : Blueprint :=
  .object (.mk none none
    [(⟨"a"⟩, .field (.existing (.text "one"))),
      (⟨"list"⟩, .field (.array [.existing (.text "one"), .existing (.text "two")])),
      (⟨"source"⟩, .field (.iterator (.mk .generator
        (.items [some (.existing (.text "one")), some (.existing (.text "two"))]) none)))] none)

/-- A new cache, and the object. -/
def start : State := { store := (blueprint.build .empty).2 }

/-- The key `b` is absent. -/
def keys : ObjectPattern where
  entries := [(⟨"a"⟩, .identifier none), (⟨"b"⟩, .identifier none), (⟨"list"⟩, .identifier none)]

/-- The same keys as far as `b`, and what is left. -/
def keysAndRest : ObjectPattern where
  entries := [(⟨"a"⟩, .identifier none), (⟨"b"⟩, .identifier none)]
  marker := some ⟨some ⟨"r"⟩⟩

/-- The second element does not match. -/
def items : ArrayPattern where
  elements := [some (.identifier none), some (.literal (.text "three")), some (.identifier none)]

/-- The same two elements, and what is left. -/
def itemsAndRest : ArrayPattern where
  elements := [some (.identifier none), some (.literal (.text "three")), some (.rest (some ⟨"r"⟩))]

end Halted

/-- An absent key and a second element that does not match, each followed by a rest marker
    or not. -/
theorem halting_leaves_no_trace_halted :
    (∃ halt, Halted.keys.halt? (.ref (.object 0)) Halted.start = some halt ∧
      matchObject Halted.keysAndRest (.ref (.object 0)) Halted.start = halt.outcome ∧
        halt.state.cache.property? (.ref (.object 0)) ⟨"b"⟩ = none) ∧
    (∃ halt, Halted.items.halt? (.ref (.array 0)) Halted.start = some halt ∧
      matchPattern Halted.itemsAndRest.toPattern (.ref (.array 0)) Halted.start = halt.outcome) ∧
    ∃ halt, Halted.items.haltOn? 0 Halted.start = some halt ∧
      matchArray Halted.itemsAndRest 0 Halted.start = halt.outcome := by
  obtain ⟨hobject, harray, hiterator, habsent⟩ := halting_leaves_no_trace
  refine ⟨?_, ?_, ?_⟩
  · have hstops : (Halted.keys.halt? (.ref (.object 0)) Halted.start).map
        (fun halt => (halt.position, halt.obstacle)) = some (1, .absent) := by decide
    obtain ⟨halt, hhalt, hwhere⟩ := Option.map_eq_some_iff.1 hstops
    obtain ⟨hposition, hobstacle⟩ := Prod.mk.inj hwhere
    have htake : Halted.keysAndRest.entries.take (halt.position + 1) =
        Halted.keys.entries.take (halt.position + 1) := by rw [hposition]; rfl
    obtain ⟨houtcome, hsame⟩ := hobject _ Halted.keysAndRest _ _ halt hhalt htake
    have hsession : Session [] Halted.start := .start (Halted.blueprint.build_reaches .empty)
    obtain ⟨k, p, hentry, -, hnot⟩ := habsent [] _ hsession _ _ halt (by decide) hhalt hobstacle
    have hk : k = ⟨"b"⟩ := by
      rw [hposition] at hentry
      exact (Prod.mk.inj (Option.some.inj hentry)).1.symm
    exact ⟨halt, hhalt, hsame.trans houtcome, hk ▸ hnot⟩
  · have hstops : (Halted.items.halt? (.ref (.array 0)) Halted.start).map (·.position) = some 1 := by
      decide
    obtain ⟨halt, hhalt, hposition⟩ := Option.map_eq_some_iff.1 hstops
    obtain ⟨houtcome, hsame⟩ := harray _ Halted.itemsAndRest _ _ halt hhalt
      (by rw [hposition]; rfl) (by rw [hposition]; decide)
    exact ⟨halt, hhalt, hsame.trans houtcome⟩
  · have hstops : (Halted.items.haltOn? 0 Halted.start).map (·.position) = some 1 := by decide
    obtain ⟨halt, hhalt, hposition⟩ := Option.map_eq_some_iff.1 hstops
    obtain ⟨houtcome, hsame⟩ := hiterator _ Halted.itemsAndRest _ _ halt hhalt
      (by rw [hposition]; rfl) (by rw [hposition]; decide)
    exact ⟨halt, hhalt, hsame.trans houtcome⟩

end StructuralMatch
