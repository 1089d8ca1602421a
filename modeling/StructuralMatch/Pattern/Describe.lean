import StructuralMatch.Pattern

/-! # Patterns as text -/

namespace StructuralMatch.Pattern

/-- A marker with its name. -/
def describeMarker (what : String) : Option Key → String
  | some k => what ++ "(" ++ k.name ++ ")"
  | none => what

mutual

/-- The description of a pattern. -/
def describe : Pattern → String
  | .literal p => "Literal(" ++ p.describe ++ ")"
  | .regex r => "Regex(/" ++ r.source ++ "/)"
  | .identifier name => describeMarker "Identifier" name
  | .rest name => describeMarker "Rest" name
  | .object entries marker =>
      let tail := match marker with
        | none => []
        | some ⟨none⟩ => [(Text.quote "...", "None")]
        | some ⟨some k⟩ => [(Text.quote "...", "Some(" ++ k.quoted ++ ")")]
      Text.braced (describeEntries entries ++ tail)
  | .array elements => Text.bracketed (describeElements elements)
  | .custom m => "Custom(" ++ m.name ++ ")"

/-- The descriptions of entries. -/
def describeEntries : List (Key × Pattern) → List (String × String)
  | [] => []
  | (k, p) :: entries => (k.quoted, describe p) :: describeEntries entries

/-- The descriptions of elements; a gap is an underscore. -/
def describeElements : List (Option Pattern) → List String
  | [] => []
  | none :: elements => "_" :: describeElements elements
  | some p :: elements => describe p :: describeElements elements

end

end StructuralMatch.Pattern
