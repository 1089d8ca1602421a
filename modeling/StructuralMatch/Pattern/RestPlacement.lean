import StructuralMatch.Pattern

/-! # Where rest markers may stand

    A rest marker collects something only as the last element of an array
    pattern.  `validate` reports the first one, from left to right and outside
    in, that stands elsewhere; the notes lead from it outwards. -/

namespace StructuralMatch.Pattern

/-- The error of a rest marker that stands in the wrong place. -/
def misplacedRest (container position : String) : MatchError :=
  .ofCause (.misplacedRest container position)

/-- Add a note to an error. -/
def noting (note : String) : Except MatchError Unit → Except MatchError Unit
  | .ok () => .ok ()
  | .error e => .error (e.withNote note)

mutual

/-- Refuse rest markers outside the last place of an array pattern. -/
def validate : Pattern → Except MatchError Unit
  | .rest _ => .error (misplacedRest "pattern" "at top level")
  | .object entries _ => validateEntries entries
  | .array elements => validateElements 0 elements
  | .literal _ | .regex _ | .identifier _ | .custom _ => .ok ()

/-- Refuse rest markers in entries. -/
def validateEntries : List (Key × Pattern) → Except MatchError Unit
  | [] => .ok ()
  | (k, .rest _) :: _ => .error (misplacedRest "object" ("at key `" ++ k.name ++ "`"))
  | (k, p) :: entries =>
      match noting ("in object pattern at key `" ++ k.name ++ "`") (validate p) with
      | .ok () => validateEntries entries
      | .error e => .error e

/-- Refuse rest markers in elements, unless the last one is a rest marker. -/
def validateElements (index : Nat) : List (Option Pattern) → Except MatchError Unit
  | [] => .ok ()
  | none :: elements => validateElements (index + 1) elements
  | [some (.rest _)] => .ok ()
  | some (.rest _) :: _ => .error (misplacedRest "array" ("at index " ++ toString index))
  | some p :: elements =>
      match noting ("in array pattern at index " ++ toString index) (validate p) with
      | .ok () => validateElements (index + 1) elements
      | .error e => .error e

end

end StructuralMatch.Pattern
