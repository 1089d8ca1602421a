import StructuralMatch.Store.Blueprint

/-! # Scripts

    A script is one run of user code: of a getter, of a factory, or of a source
    that is asked for its next output.  On its way to a result it may make
    values, advance and close iterators, and leave messages, and what it does
    next may depend on what it got.

    Reading properties is left out, and with it the running of one getter by
    another: getters that read one another need never come to an end, while a
    script always does.  Programs that read properties as well are the custom
    matchers, which may do to a store whatever a program can. -/

namespace StructuralMatch

/-- One step of an iterator. -/
inductive Step where
  | yielded (v : Value)
  | done
deriving DecidableEq, Inhabited

namespace Step

/-- Whether the step reports completion. -/
def isDone : Step → Bool
  | .yielded _ => false
  | .done => true

/-- The value of a step that has one. -/
def value? : Step → Option Value
  | .yielded v => some v
  | .done => none

/-- A value as a step, and no value as completion. -/
def ofOption : Option Value → Step
  | some v => .yielded v
  | none => .done

@[simp] theorem isDone_yielded (v : Value) : (yielded v).isDone = false := rfl

@[simp] theorem isDone_done : done.isDone = true := rfl

@[simp] theorem value?_ofOption (o : Option Value) : (ofOption o).value? = o := by
  cases o <;> rfl

end Step

/-- The iterator that a factory hands out. -/
inductive Supply where
  /-- One that is made for the occasion. -/
  | fresh (plan : IteratorPlan)
  /-- One that was there before, and that others may hold as well. -/
  | existing (iterator : Nat)

/-- What a run of user code does, and what it returns. -/
inductive Script (α : Type) where
  | give (result : α)
  /-- Make a value and go on with it. -/
  | make (b : Blueprint) (next : Value → Script α)
  /-- Advance an iterator and go on with its step. -/
  | advance (iterator : Nat) (next : Step → Script α)
  /-- Close an iterator and go on knowing whether this closed it. -/
  | close (iterator : Nat) (next : Bool → Script α)
  /-- Leave a message. -/
  | note (message : String) (next : Script α)

end StructuralMatch
