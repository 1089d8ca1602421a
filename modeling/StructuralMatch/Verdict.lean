import StructuralMatch.MatchError

/-! # Verdicts

    The outcome of everything that can match, a pattern, a custom matcher or an
    arm: it matched and produced something, it did not match, or it failed. -/

namespace StructuralMatch

/-- Matched with a result, unmatched, or failed. -/
inductive Verdict (α : Type) where
  | matched (a : α)
  | unmatched
  | failed (e : MatchError)
deriving DecidableEq, Inhabited

namespace Verdict

variable {α β : Type}

/-- Apply a function to the result of a match. -/
def map (f : α → β) : Verdict α → Verdict β
  | .matched a => .matched (f a)
  | .unmatched => .unmatched
  | .failed e => .failed e

/-- Change the error of a failure. -/
def mapError (f : MatchError → MatchError) : Verdict α → Verdict α
  | .matched a => .matched a
  | .unmatched => .unmatched
  | .failed e => .failed (f e)

/-- A result as a match, and none as a mismatch. -/
def ofOption : Option α → Verdict α
  | some a => .matched a
  | none => .unmatched

/-- Whether the verdict is a match. -/
def isMatched : Verdict α → Bool
  | .matched _ => true
  | _ => false

end Verdict

end StructuralMatch
