import StructuralMatch.Cache
import StructuralMatch.Pattern

/-! # Matching

    A pattern is matched against a value by going down both together.  The shape
    of the pattern alone decides what is done; the value is looked at through the
    cache, so that getters and iterators are observed once however many patterns
    look.  Entries and elements are visited in order, and the first that fails
    ends the match.  The only errors are those of custom matchers. -/

namespace StructuralMatch

/-! ## Patterns without parts -/

/-- Bind a value under a name, or else under the place where it stands, or not at all. -/
def matchIdentifier (name place : Option Key) (v : Value) : Bindings :=
  match name.or place with
  | some k => .single k v
  | none => .empty

/-- Match a value that has to be a certain primitive. -/
def matchLiteral (p : Primitive) (v : Value) : Verdict Bindings :=
  if (Value.prim p).same v then .matched .empty else .unmatched

/-- Search the text of a value; the named groups that took part are bound, in the order in
    which they are opened. -/
def matchRegex (r : Regex) (v : Value) (σ : Store) : Verdict Bindings :=
  match r.captures (σ.text v) with
  | some groups =>
      let names := r.groupNames.filterMap id
      .matched (.ofPairs (names.filterMap fun name =>
        (groups name).map fun matched => (⟨name⟩, .text matched)))
  | none => .unmatched

/-- Ask a custom matcher. -/
def State.consult (s : State) (m : Matcher) (v : Value) : Verdict Unit × State :=
  let (verdict, σ) := m.judge v (s.store.record (.consulted m.name))
  (verdict, ⟨s.cache.record (.consulted m.name verdict) s.store σ, σ⟩)

/-- Ask a custom matcher as a pattern; its failure surfaces under its name. -/
def matchCustom (m : Matcher) (v : Value) (s : State) : Verdict Bindings × State :=
  let (verdict, s) := s.consult m v
  ((verdict.map fun _ => .empty).mapError (·.blame m.name), s)

/-- Add the elements that are left to the bindings if the rest marker has a name. -/
def bindCollected (name : Option Key) (items : List Value) (b : Bindings) (s : State) :
    Bindings × State :=
  match name with
  | none => (b, s)
  | some name =>
      let (array, s) := s.collect items
      (b.insert name array, s)

/-- Add the remainder of an object to the bindings if the rest marker has a name. -/
def bindRemainder (marker : Option RestMarker) (keys : List Key) (v : Value) (b : Bindings)
    (s : State) : Bindings × State :=
  match marker.bind (·.name) with
  | none => (b, s)
  | some name =>
      let (object, s) := s.remainder v keys
      (b.insert name object, s)

/-! ## Going down -/

mutual

/-- Match a pattern against a value that stands at a place. -/
def matchAt : Pattern → (place : Option Key) → Value → State → Verdict Bindings × State
  | .custom m, _, v, s => matchCustom m v s
  | .identifier name, place, v, s => (.matched (matchIdentifier name place v), s)
  | .rest _, _, _, s => (.matched .empty, s)
  | .regex r, _, v, s => (matchRegex r v s.store, s)
  | .array elements, _, v, s =>
      match s.iteratorFor v with
      | (none, s) => (.unmatched, s)
      | (some h, s) => matchElements elements h 0 .empty s
  | .object entries marker, _, v, s =>
      match s.register v with
      | (false, s) => (.unmatched, s)
      | (true, s) =>
          match matchEntries entries v .empty s with
          | (.matched b, s) =>
              let (b, s) := bindRemainder marker (entries.map Prod.fst) v b s
              (.matched b, s)
          | other => other
  | .literal p, _, v, s => (matchLiteral p v, s)

/-- Match the entries of an object pattern, in order; `b` is bound already. -/
def matchEntries : List (Key × Pattern) → Value → Bindings → State →
    Verdict Bindings × State
  | [], _, b, s => (.matched b, s)
  | (k, p) :: entries, v, b, s =>
      if s.store.hasProperty v k then
        let (x, s) := s.read v k
        match matchAt p (some k) x s with
        | (.matched c, s) => matchEntries entries v (b.merge c) s
        | other => other
      else (.unmatched, s)

/-- Match the elements of an array pattern from a position on; `b` is bound already.
    Without a rest marker at the end the iterator must be done after the last one. -/
def matchElements : List (Option Pattern) → Handle → (position : Nat) → Bindings → State →
    Verdict Bindings × State
  | [], h, position, b, s =>
      let (step, s) := s.step h position
      (if step.isDone then .matched b else .unmatched, s)
  | none :: elements, h, position, b, s =>
      match s.step h position with
      | (.done, s) => (.unmatched, s)
      | (.yielded _, s) => matchElements elements h (position + 1) b s
  | some p :: elements, h, position, b, s =>
      match p.trailing? elements with
      | some name =>
          let (items, s) := s.drainFrom h position
          let (b, s) := bindCollected name items b s
          (.matched b, s)
      | none =>
          match s.step h position with
          | (.done, s) => (.unmatched, s)
          | (.yielded x, s) =>
              match matchAt p (some (.index position)) x s with
              | (.matched c, s) => matchElements elements h (position + 1) (b.merge c) s
              | other => other

end

/-! ## Entry points -/

/-- Match a pattern against a value. -/
def matchPattern (p : Pattern) (v : Value) (s : State) : Verdict Bindings × State :=
  matchAt p none v s

/-- Match an object pattern against a value. -/
def matchObject (o : ObjectPattern) (v : Value) (s : State) : Verdict Bindings × State :=
  matchPattern o.toPattern v s

/-- Match an array pattern against an iterator. -/
def matchArray (a : ArrayPattern) (cell : Nat) (s : State) : Verdict Bindings × State :=
  matchElements a.elements (.cell cell) 0 .empty s

end StructuralMatch
