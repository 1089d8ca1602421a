import StructuralMatch.Store

/-! # The log of a store

    What labelled cells and user code have reported, one line for each event.
    Cells without a label stay silent. -/

namespace StructuralMatch.Store

/-- The line that an event leaves, if it leaves one. -/
def line? (σ : Store) : Event → Option String
  | .ran g => (σ.getters[g]?.bind (·.label)).map ("get " ++ ·)
  | .opened (.object o) =>
      ((σ.object o).factory.bind fun f => σ.factories[f]?.bind (·.label)).map ("open " ++ ·)
  | .polled i turn output =>
      (σ.iterators[i]?.bind (·.label)).map fun label =>
        "pull " ++ label ++ " " ++ (if output.isSome then toString turn else "end")
  | .closed i => (σ.iterators[i]?.bind (·.label)).map ("close " ++ ·)
  | .called f => (σ.functions[f]?.bind (·.label)).map ("call " ++ ·)
  | .note message => some message
  | .opened _ | .consulted _ => none

/-- The lines of the trace, in order. -/
def log (σ : Store) : List String := σ.trace.toList.filterMap σ.line?

/-- The same store with nothing in its trace. -/
def forget (σ : Store) : Store := { σ with trace := #[] }

end StructuralMatch.Store
