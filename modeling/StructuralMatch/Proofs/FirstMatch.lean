import StructuralMatch.Selection

/-! # The first match decides

    A selection tests its arms in order, each on the state that the one before has
    left, up to the first that matches or fails (`Selection.first_match`).  What it
    does is told without mentioning the arms behind that one, and of the arms before
    it only the tests: their handlers play no part in `Arm.Declines`. -/

namespace StructuralMatch

variable {ρ : Type}

namespace Arm

/-- The test of an arm holds, taking one state to another; what is left to do is to run the
    handler.  An arm of another kind has done all when it comes to its verdict. -/
inductive Chooses : Arm ρ → Value → State → (Store → ρ × Store) → State → Prop where
  | when {p : Pattern} {handler : Bindings → Store → ρ × Store} {v : Value} {s t : State}
      {b : Bindings} (matched : matchPattern p v s = (.matched b, t)) :
      Chooses (.when p handler) v s (handler b) t
  | whether {test : Value → Store → Bool × Store} {handler : Value → Store → ρ × Store} {v : Value}
      {s : State} {σ : Store} (holds : test v s.store = (true, σ)) :
      Chooses (.whether test handler) v s (handler v) { s with store := σ }
  | otherwise {handler : Value → Store → ρ × Store} {v : Value} {s : State} :
      Chooses (.otherwise handler) v s (handler v) s
  | custom {evaluate : Value → State → Verdict ρ × State} {v : Value} {s t : State} {r : ρ}
      (matched : evaluate v s = (.matched r, t)) :
      Chooses (.custom evaluate) v s (fun σ => (r, σ)) t

/-- The test of an arm does not hold. -/
inductive Declines : Arm ρ → Value → State → State → Prop where
  | when {p : Pattern} {handler : Bindings → Store → ρ × Store} {v : Value} {s t : State}
      (unmatched : matchPattern p v s = (.unmatched, t)) : Declines (.when p handler) v s t
  | whether {test : Value → Store → Bool × Store} {handler : Value → Store → ρ × Store} {v : Value}
      {s : State} {σ : Store} (fails : test v s.store = (false, σ)) :
      Declines (.whether test handler) v s { s with store := σ }
  | custom {evaluate : Value → State → Verdict ρ × State} {v : Value} {s t : State}
      (unmatched : evaluate v s = (.unmatched, t)) : Declines (.custom evaluate) v s t

/-- The test of an arm ends with an error. -/
inductive Fails : Arm ρ → Value → State → MatchError → State → Prop where
  | when {p : Pattern} {handler : Bindings → Store → ρ × Store} {v : Value} {s t : State}
      {e : MatchError} (failed : matchPattern p v s = (.failed e, t)) :
      Fails (.when p handler) v s e t
  | custom {evaluate : Value → State → Verdict ρ × State} {v : Value} {s t : State}
      {e : MatchError} (failed : evaluate v s = (.failed e, t)) :
      Fails (.custom evaluate) v s e t

variable {arm : Arm ρ} {v : Value} {s t : State}

/-- Every arm chooses, declines or fails. -/
theorem tested (arm : Arm ρ) (v : Value) (s : State) :
    (∃ run t, arm.Chooses v s run t) ∨ (∃ t, arm.Declines v s t) ∨ ∃ e t, arm.Fails v s e t := by
  cases arm with
  | when p handler =>
      rcases hmatch : matchPattern p v s with ⟨b | _ | e, t⟩
      · exact .inl ⟨_, t, .when hmatch⟩
      · exact .inr (.inl ⟨t, .when hmatch⟩)
      · exact .inr (.inr ⟨e, t, .when hmatch⟩)
  | whether test handler =>
      rcases htest : test v s.store with ⟨_ | _, σ⟩
      · exact .inr (.inl ⟨_, .whether htest⟩)
      · exact .inl ⟨_, _, .whether htest⟩
  | otherwise handler => exact .inl ⟨_, _, .otherwise⟩
  | custom evaluate =>
      rcases hevaluate : evaluate v s with ⟨r | _ | e, t⟩
      · exact .inl ⟨_, t, .custom hevaluate⟩
      · exact .inr (.inl ⟨t, .custom hevaluate⟩)
      · exact .inr (.inr ⟨e, t, .custom hevaluate⟩)

/-- An arm whose test holds runs its handler, once. -/
theorem Chooses.evaluate_eq {run : Store → ρ × Store} (h : arm.Chooses v s run t) :
    arm.evaluate v s = (.matched (run t.store).1, { t with store := (run t.store).2 }) := by
  cases h with
  | when matched => rw [evaluate, matched]
  | whether holds => rw [evaluate, holds]
  | otherwise => rfl
  | custom matched => rw [evaluate, matched]

theorem Declines.evaluate_eq (h : arm.Declines v s t) : arm.evaluate v s = (.unmatched, t) := by
  cases h with
  | when unmatched => rw [evaluate, unmatched]
  | whether fails => rw [evaluate, fails]
  | custom unmatched => rw [evaluate, unmatched]

theorem Fails.evaluate_eq {e : MatchError} (h : arm.Fails v s e t) :
    arm.evaluate v s = (.failed e, t) := by
  cases h with
  | when failed => rw [evaluate, failed]
  | custom failed => rw [evaluate, failed]

end Arm

namespace Selection

/-- All arms decline, one after another. -/
inductive Passes : List (Arm ρ) → Value → State → State → Prop where
  | nil (v : Value) (s : State) : Passes [] v s s
  | cons {arm : Arm ρ} {arms : List (Arm ρ)} {v : Value} {s t u : State}
      (first : arm.Declines v s t) (rest : Passes arms v t u) : Passes (arm :: arms) v s u

variable {passed rest : List (Arm ρ)} {arm : Arm ρ} {v : Value} {s t u : State}

/-- Arms that decline are passed over. -/
theorem Passes.select_eq (h : Passes passed v s t) (rest : List (Arm ρ)) (index : Nat) :
    select (passed ++ rest) index v s = select rest (index + passed.length) v t := by
  induction h generalizing index with
  | nil => rfl
  | @cons arm arms v s t u first more ih =>
      have hlength : index + (arms.length + 1) = index + 1 + arms.length := by omega
      rw [List.cons_append, select, first.evaluate_eq, List.length_cons, hlength]
      exact ih (index + 1)

/-- Either all arms decline, or there is a first that does not. -/
theorem passes_or_decided : ∀ (arms : List (Arm ρ)) (v : Value) (s : State),
    (∃ t, Passes arms v s t) ∨
      ∃ passed arm rest t, arms = passed ++ arm :: rest ∧ Passes passed v s t ∧
        ((∃ run u, arm.Chooses v t run u) ∨ ∃ e u, arm.Fails v t e u)
  | [], v, s => .inl ⟨s, .nil v s⟩
  | arm :: arms, v, s => by
      rcases arm.tested v s with hchooses | ⟨t, hdeclines⟩ | hfails
      · exact .inr ⟨[], arm, arms, s, rfl, .nil v s, .inl hchooses⟩
      · rcases passes_or_decided arms v t with ⟨u, hpasses⟩ | ⟨passed, next, rest, u, rfl, hpasses, h⟩
        · exact .inl ⟨u, .cons hdeclines hpasses⟩
        · exact .inr ⟨arm :: passed, next, rest, u, rfl, .cons hdeclines hpasses, h⟩
      · exact .inr ⟨[], arm, arms, s, rfl, .nil v s, .inr hfails⟩

/-- The first arm that chooses is selected. -/
theorem select_chosen (hpasses : Passes passed v s t) {run : Store → ρ × Store}
    (hchooses : arm.Chooses v t run u) (rest : List (Arm ρ)) (index : Nat) :
    select (passed ++ arm :: rest) index v s =
      (.matched (run u.store).1, { u with store := (run u.store).2 }) := by
  rw [hpasses.select_eq, select, hchooses.evaluate_eq]

/-- The first arm that fails ends the selection. -/
theorem select_failed (hpasses : Passes passed v s t) {e : MatchError}
    (hfails : arm.Fails v t e u) (rest : List (Arm ρ)) (index : Nat) :
    select (passed ++ arm :: rest) index v s =
      (.failed (e.withNote (armNote (index + passed.length))), u) := by
  rw [hpasses.select_eq, select, hfails.evaluate_eq]

/-- Without an arm that does not decline, none is selected. -/
theorem Passes.select_unmatched (h : Passes passed v s t) (index : Nat) :
    select passed index v s = (.unmatched, t) := by
  have hselect := h.select_eq [] index
  rwa [List.append_nil, select] at hselect

/-! ## Whole selections -/

/-- A selection gives this outcome, with a fallback or without. -/
def Gives (arms : List (Arm ρ)) (v : Value) (σ : Store) (outcome : Except MatchError ρ × Store) :
    Prop :=
  finish arms v σ = outcome ∧
    ∀ fallback : Value → Store → ρ × Store, otherwise arms fallback v σ = outcome

variable {σ : Store}

/-- What comes of an arm that chooses when those before it decline. -/
theorem gives_chosen (hpasses : Passes passed v { store := σ } s) {run : Store → ρ × Store}
    (hchooses : arm.Chooses v s run t) (rest : List (Arm ρ)) :
    Gives (passed ++ arm :: rest) v σ
      (.ok (run t.store).1, { t with store := (run t.store).2 }.close.2.store) := by
  have hselect := select_chosen hpasses hchooses rest 0
  constructor
  · rw [finish, hselect]
  · intro fallback
    rw [otherwise, hselect]

/-- What comes of an arm that fails when those before it decline. -/
theorem gives_failed (hpasses : Passes passed v { store := σ } s) {e : MatchError}
    (hfails : arm.Fails v s e t) (rest : List (Arm ρ)) :
    Gives (passed ++ arm :: rest) v σ
      (.error (e.withNote (armNote passed.length)), t.close.2.store) := by
  have hselect := select_failed hpasses hfails rest 0
  rw [Nat.zero_add] at hselect
  constructor
  · rw [finish, hselect]
  · intro fallback
    rw [otherwise, hselect]

/-- When all arms decline and there is no fallback, the error says so. -/
theorem Passes.finish_eq (h : Passes passed v { store := σ } s) :
    finish passed v σ = (.error (.ofCause (.nonExhaustive v.typeName)), s.close.2.store) := by
  rw [finish, h.select_unmatched]

/-- When all arms decline, the fallback runs. -/
theorem Passes.otherwise_eq (h : Passes passed v { store := σ } s)
    (fallback : Value → Store → ρ × Store) :
    otherwise passed fallback v σ =
      (.ok (fallback v s.store).1,
        { s with store := (fallback v s.store).2 }.close.2.store) := by
  rw [otherwise, h.select_unmatched]

/-- **The first match decides.**  The arms are tested in order on one cache.

    If one chooses and those before it decline, then whatever comes behind it, its handler
    runs on the store that the tests have left, its result is the result, and nothing but the
    closing follows.  If one fails, its error is the outcome, with the number of the arm as a
    note, and neither a handler nor the fallback plays a part.  If all decline, the fallback
    runs once on the value, or the error says that there was none. -/
theorem first_match (arms : List (Arm ρ)) (v : Value) (σ : Store) :
    (∃ passed arm rest s run t, arms = passed ++ arm :: rest ∧
        Passes passed v { store := σ } s ∧ arm.Chooses v s run t ∧ ∀ more,
          Gives (passed ++ arm :: more) v σ
            (.ok (run t.store).1, { t with store := (run t.store).2 }.close.2.store)) ∨
      (∃ passed arm rest s e t, arms = passed ++ arm :: rest ∧
        Passes passed v { store := σ } s ∧ arm.Fails v s e t ∧ ∀ more,
          Gives (passed ++ arm :: more) v σ
            (.error (e.withNote (armNote passed.length)), t.close.2.store)) ∨
        ∃ s, Passes arms v { store := σ } s ∧
          finish arms v σ = (.error (.ofCause (.nonExhaustive v.typeName)), s.close.2.store) ∧
            ∀ fallback, otherwise arms fallback v σ =
              (.ok (fallback v s.store).1,
                { s with store := (fallback v s.store).2 }.close.2.store) := by
  rcases passes_or_decided arms v { store := σ } with
    ⟨s, hpasses⟩ | ⟨passed, arm, rest, s, rfl, hpasses, ⟨run, t, hchooses⟩ | ⟨e, t, hfails⟩⟩
  · exact .inr (.inr ⟨s, hpasses, hpasses.finish_eq, hpasses.otherwise_eq⟩)
  · exact .inl ⟨passed, arm, rest, s, run, t, rfl, hpasses, hchooses,
      gives_chosen hpasses hchooses⟩
  · exact .inr (.inl ⟨passed, arm, rest, s, e, t, rfl, hpasses, hfails,
      gives_failed hpasses hfails⟩)

end Selection

end StructuralMatch
