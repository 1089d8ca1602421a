/-! # Match errors

    A mismatch is no error.  Errors come from custom matchers, from arms written
    by users, from the check of rest markers, and from a selection in which no
    arm matched.  An error keeps its cause apart from its message and collects
    notes on its way out, outermost last. -/

namespace StructuralMatch

/-- Why a match failed with an error. -/
inductive Cause where
  /-- A custom matcher could not decide. -/
  | capabilityFault (matcher message : String)
  /-- A rest marker stands where it collects nothing. -/
  | misplacedRest (container position : String)
  /-- No arm matched and there was no fallback. -/
  | nonExhaustive (typeName : String)
  /-- User code gave up. -/
  | custom (message : String)
deriving DecidableEq, Inhabited

/-- The wording of a cause. -/
def Cause.text : Cause → String
  | .capabilityFault matcher message =>
      "custom matcher `" ++ matcher ++ "` failed: " ++ message
  | .misplacedRest container position =>
      "rest marker " ++ position ++ " of " ++ container ++ " is not in trailing position"
  | .nonExhaustive typeName =>
      "non-exhaustive match: no arm matched a value of type " ++ typeName
  | .custom message => message

/-- An error with its message and the notes added on its way out. -/
structure MatchError where
  cause : Cause
  message : String
  notes : List String
deriving DecidableEq, Inhabited

namespace MatchError

/-- The error of a cause, in the cause's own words. -/
def ofCause (c : Cause) : MatchError := ⟨c, c.text, []⟩

/-- Add a note after those already there. -/
def withNote (e : MatchError) (note : String) : MatchError :=
  { e with notes := e.notes ++ [note] }

/-- Whether the error says that no arm matched. -/
def isNonExhaustive (e : MatchError) : Bool :=
  match e.cause with
  | .nonExhaustive _ => true
  | _ => false

/-- The message followed by one line for each note. -/
def display (e : MatchError) : String :=
  e.notes.foldl (fun s note => s ++ "\n  note: " ++ note) e.message

/-- The error under which a custom matcher's failure surfaces: a capability fault
    stays as it is, any other becomes one that names the matcher. -/
def blame (e : MatchError) (matcher : String) : MatchError :=
  match e.cause with
  | .capabilityFault _ _ => e
  | _ => { ofCause (.capabilityFault matcher e.message) with notes := e.notes }

end MatchError

end StructuralMatch
