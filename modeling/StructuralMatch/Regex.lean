import StructuralMatch.Regex.Parser
import StructuralMatch.Regex.Search

/-! # Regular expressions

    Matching asks little of a regular expression: the text that it was compiled from, the
    names of its groups, and what a search of a text captures.  How it is compiled and
    searched is left to an engine, of which two things are assumed: no two groups have one
    name, and only what is the name of a group finds one.

    The engine here compiles a text once.  A search looks for the leftmost match anywhere
    in a text, prefers earlier alternatives and greedy repetitions, and takes time linear
    in the text. -/

namespace StructuralMatch

/-- A compiled regular expression, whatever the engine. -/
structure Regex where
  source : String
  /-- The names of the groups in the order in which they are opened, the whole match before
      them; a group may have no name. -/
  groupNames : List (Option String)
  /-- Search a text: none if nothing matches, and otherwise the text that the group of a name
      matched, if there is such a group and it took part. -/
  captures : String → Option (String → Option String)
  /-- No two groups have the same name. -/
  distinct : (groupNames.filterMap id).Nodup
  /-- Only the name of a group finds anything. -/
  named : ∀ {text name matched : String} {groups : String → Option String},
    captures text = some groups → groups name = some matched → some name ∈ groupNames

namespace Regex

/-- The part of a text that a group matched, if it took part. -/
def groupText (text : List Char) (slots : Slots) (group : Nat) : Option String :=
  match slots.getD (2 * group) none, slots.getD (2 * group + 1) none with
  | some first, some last => some (String.ofList ((text.drop first).take (last - first)))
  | _, _ => none

/-- Compile a regular expression. -/
def compile (source : String) : Except SyntaxError Regex := do
  let (node, groups, names) ← parse source
  let (start, program) := node.program
  let groupNames := (List.range (groups + 1)).map fun i => (names.find? (·.2 == i)).map (·.1)
  if distinct : (groupNames.filterMap id).Nodup then
    return {
      source, groupNames, distinct
      captures := fun text =>
        (program.search start (2 * groups + 2) text.toList).map fun slots name =>
          (groupNames.idxOf? (some name)).bind (groupText text.toList slots)
      named := by
        intro text name matched captured hsearch hgroup
        obtain ⟨slots, -, rfl⟩ := Option.map_eq_some_iff.1 hsearch
        obtain ⟨group, hindex, -⟩ := Option.bind_eq_some_iff.1 hgroup
        exact List.isSome_idxOf?.1 (by rw [hindex]; rfl) }
  else throw .duplicateName

end Regex

end StructuralMatch
