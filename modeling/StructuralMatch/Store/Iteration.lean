import StructuralMatch.Store.Build

/-! # Iteration

    An iterator is one cursor shared by everybody who holds it.  Each step polls
    its source once; the first report of exhaustion drops the source for good,
    so that every later step is done.  Closing drops the source as well and
    happens once.

    A source may use other iterators: it may take its values from one, and the
    scripts behind its outputs may advance and close some.  It reaches those only
    that were there before its own iterator, so a cell's number bounds the length
    of every such chain. -/

namespace StructuralMatch

/-- Carry out a script, given what it means to advance and to close an iterator. -/
def Script.run {α : Type} (advance : Nat → Store → Step × Store)
    (close : Nat → Store → Bool × Store) : Script α → Store → α × Store
  | .give a, σ => (a, σ)
  | .make b next, σ =>
      let (v, σ) := b.build σ
      (next v).run advance close σ
  | .advance i next, σ =>
      let (step, σ) := advance i σ
      (next step).run advance close σ
  | .close i next, σ =>
      let (closed, σ) := close i σ
      (next closed).run advance close σ
  | .note message next, σ => next.run advance close (σ.record (.note message))

/-- Ask a source for its next output: the output, what is left of the source, and
    the store after it. -/
def Source.poll (advance : Nat → Store → Step × Store) (close : Nat → Store → Bool × Store) :
    Source → Store → Option Value × Source × Store
  | .items [], σ => (none, .items [], σ)
  | .items (script :: outputs), σ =>
      let (output, σ) := script.run advance close σ
      (output, .items outputs, σ)
  | .range next stop, σ =>
      if next < stop then (some (.number (.ofInt next)), .range (next + 1) stop, σ)
      else (none, .range next stop, σ)
  | .inner i, σ =>
      let (step, σ) := advance i σ
      (step.value?, .inner i, σ)

namespace Store

/-! ## Iterators -/

/-- The outputs still to come, at most: every yielded value lowers it. -/
def remainingWithin (σ : Store) : (depth cell : Nat) → Nat
  | 0, _ => 0
  | depth + 1, cell =>
      match σ.iterators[cell]?.bind (·.source) with
      | none => 0
      | some (.items outputs) => outputs.length
      | some (.range next stop) => (stop - next).toNat
      | some (.inner i) => if i < cell then remainingWithin σ depth i else 0

/-- A bound on the values that an iterator can still yield. -/
def remaining (σ : Store) (cell : Nat) : Nat := σ.remainingWithin (cell + 1) cell

/-- Close an iterator; says whether this call closed it. -/
def close (σ : Store) (cell : Nat) : Bool × Store :=
  match σ.iterators[cell]? with
  | none => (false, σ)
  | some it =>
      if it.closed then (false, σ)
      else
        (true,
          (σ.setIterator cell { it with source := none, closed := true }).record (.closed cell))

/-- Close an iterator that was there before `limit`. -/
def closeBelow (limit cell : Nat) (σ : Store) : Bool × Store :=
  if cell < limit then σ.close cell else (false, σ)

/-- Advance an iterator whose chain is at most `depth` long. -/
def nextWithin : (depth : Nat) → Store → (cell : Nat) → Step × Store
  | 0, σ, _ => (.done, σ)
  | depth + 1, σ, cell =>
      match σ.iterators[cell]? with
      | none => (.done, σ)
      | some it =>
          match it.source with
          | none => (.done, σ)
          | some source =>
              let below (i : Nat) (σ : Store) : Step × Store :=
                if i < cell then nextWithin depth σ i else (.done, σ)
              let (output, rest, σ) := source.poll below (closeBelow cell) σ
              let output := output.map σ.vet
              (.ofOption output,
                (σ.setIterator cell (it.after output rest)).record
                  (.polled cell it.pulled output))

/-- Advance an iterator by one step. -/
def next (σ : Store) (cell : Nat) : Step × Store := σ.nextWithin (cell + 1) cell

/-! ## Iterables -/

/-- Carry out a script that may advance and close any iterator. -/
def runScript {α : Type} (script : Script α) (σ : Store) : α × Store :=
  script.run (fun i σ => σ.next i) (fun i σ => σ.close i) σ

/-- The iterator that a factory hands out; one that is not there counts as a new one
    without values. -/
def supply (σ : Store) : Supply → Nat × Store
  | .fresh plan => plan.build σ
  | .existing i =>
      if i < σ.iterators.size then (i, σ) else σ.newIterator ⟨.iterator, none, none, 0, false⟩

/-- Run a factory for an iterable object. -/
def runFactory (σ : Store) (iterable : Ref) (factory : Nat) : Option Nat × Store :=
  match σ.factories[factory]? with
  | none => (none, σ)
  | some f =>
      let (handed, σ) := (σ.startFactory factory f iterable).runScript (f.body f.runs)
      let (i, σ) := σ.supply handed
      (some i, σ)

/-- Whether a value can be iterated over. -/
def isIterable (σ : Store) : Value → Bool
  | .prim (.text _) | .ref (.array _) | .ref (.iterator _) => true
  | .ref (.object o) => (σ.object o).factory.isSome
  | _ => false

/-- An iterator over a value: a fresh one, except that an iterator is its own. -/
def iterate (σ : Store) : Value → Option Nat × Store
  | .ref (.iterator i) => (some i, σ)
  | .ref (.array a) =>
      let (i, σ) := (σ.record (.opened (.array a))).newIterator (.overArray (σ.items a))
      (some i, σ)
  | .prim (.text s) =>
      let (i, σ) := σ.newIterator (.overText s)
      (some i, σ)
  | .ref (.object o) =>
      match (σ.object o).factory with
      | some f => σ.runFactory (.object o) f
      | none => (none, σ)
  | _ => (none, σ)

end Store

end StructuralMatch
