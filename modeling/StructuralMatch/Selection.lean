import StructuralMatch.Matching

/-! # Selecting an arm

    Arms are tried in order on one cache, and the first that matches gives the
    result.  Whatever the outcome, the iterators opened on the way are closed
    before the selection returns, but after the handler or the fallback has
    run.  An error is noted with the arm it came from. -/

namespace StructuralMatch

/-- A test and what to do when it holds. -/
inductive Arm (ρ : Type) where
  /-- The value matches a pattern; the handler gets the bindings. -/
  | when (p : Pattern) (handler : Bindings → Store → ρ × Store)
  /-- The value passes a test. -/
  | whether (test : Value → Store → Bool × Store) (handler : Value → Store → ρ × Store)
  /-- Any value. -/
  | otherwise (handler : Value → Store → ρ × Store)
  /-- Any other way to come to a verdict. -/
  | custom (evaluate : Value → State → Verdict ρ × State)

variable {ρ : Type}

/-- Try an arm. -/
def Arm.evaluate : Arm ρ → Value → State → Verdict ρ × State
  | .when p handler, v, s =>
      match matchPattern p v s with
      | (.matched b, s) =>
          let (r, σ) := handler b s.store
          (.matched r, { s with store := σ })
      | (.unmatched, s) => (.unmatched, s)
      | (.failed e, s) => (.failed e, s)
  | .whether test handler, v, s =>
      match test v s.store with
      | (true, σ) =>
          let (r, σ) := handler v σ
          (.matched r, { s with store := σ })
      | (false, σ) => (.unmatched, { s with store := σ })
  | .otherwise handler, v, s =>
      let (r, σ) := handler v s.store
      (.matched r, { s with store := σ })
  | .custom evaluate, v, s => evaluate v s

namespace Selection

/-- The note on an error of an arm. -/
def armNote (index : Nat) : String := "while evaluating arm " ++ toString index

/-- Try arms in order, the first one being number `index`. -/
def select : List (Arm ρ) → (index : Nat) → Value → State → Verdict ρ × State
  | [], _, _, s => (.unmatched, s)
  | arm :: arms, index, v, s =>
      match arm.evaluate v s with
      | (.matched r, s) => (.matched r, s)
      | (.unmatched, s) => select arms (index + 1) v s
      | (.failed e, s) => (.failed (e.withNote (armNote index)), s)

/-- Select an arm for a value, or report that there is none. -/
def finish (arms : List (Arm ρ)) (v : Value) (σ : Store) : Except MatchError ρ × Store :=
  let (verdict, s) := select arms 0 v { store := σ }
  let store := s.close.2.store
  match verdict with
  | .matched r => (.ok r, store)
  | .unmatched => (.error (.ofCause (.nonExhaustive v.typeName)), store)
  | .failed e => (.error e, store)

/-- Select an arm for a value, or fall back. -/
def otherwise (arms : List (Arm ρ)) (fallback : Value → Store → ρ × Store) (v : Value)
    (σ : Store) : Except MatchError ρ × Store :=
  let (verdict, s) := select arms 0 v { store := σ }
  match verdict with
  | .matched r => (.ok r, s.close.2.store)
  | .unmatched =>
      -- the fallback still finds the iterators open
      let (r, σ) := fallback v s.store
      (.ok r, { s with store := σ }.close.2.store)
  | .failed e => (.error e, s.close.2.store)

end Selection

end StructuralMatch
