import StructuralMatch.Store.Course
import StructuralMatch.Store.Describe
import StructuralMatch.Verdict

/-! # The cache of a match

    A cache remembers what a match has seen, so that every getter runs at most
    once for each key and every iterator is advanced at most once for each
    position.  It holds the properties read of each visited value, the iterator
    opened for each iterable with an identity, what each iterator yielded, and
    the iterators to close.

    A text has no identity: each visit gets an iterator of its own, which no value
    refers to.  The cache keeps such iterators to itself, so there are two kinds of
    handle, to a cell of the store and to a text being spelled.

    A memo has two parts.  `steps` holds what positional reads found, in order
    and up to the first completion; `tail` holds what a drain pulled beyond.

    The log lists what the cache had done to the store, in order: what was not in
    its memory when it was asked for. -/

namespace StructuralMatch

/-! ## Memos -/

/-- What an iterator has yielded so far. -/
structure Memo where
  /-- The results of positional reads, ending with the first completion. -/
  steps : List Step := []
  /-- The values that a drain pulled after the last positional read. -/
  tail : List Value := []
  drained : Bool := false
deriving DecidableEq, Inhabited

namespace Memo

/-- Whether the iterator has nothing more to give. -/
def exhausted (m : Memo) : Bool := m.drained || (m.steps.getLast?.any Step.isDone)

/-- The values of a list of steps up to the first completion. -/
def valuesOf (steps : List Step) : List Value :=
  (steps.takeWhile fun s => !s.isDone).filterMap Step.value?

/-- The step at a position, if it is known. -/
def at? (m : Memo) (position : Nat) : Option Step :=
  match m.steps[position]? with
  | some s => some s
  | none =>
      -- nothing is pulled any more: beyond the steps only the tail can answer
      if m.exhausted then some (.ofOption (m.tail[position - m.steps.length]?)) else none

/-- The memo after one more positional read. -/
def addStep (m : Memo) (step : Step) : Memo := { m with steps := m.steps ++ [step] }

/-- The memo after one more pull of a drain, which ends with the first completion. -/
def addTail (m : Memo) : Step → Memo
  | .yielded v => { m with tail := m.tail ++ [v] }
  | .done => { m with drained := true }

end Memo

/-! ## Texts being spelled -/

/-- An iterator over the characters of a text. -/
structure Spelling where
  text : String
  /-- The characters to come. -/
  left : List Char
  closed : Bool := false
deriving DecidableEq

namespace Spelling

/-- Begin to spell a text. -/
def begin (text : String) : Spelling := ⟨text, text.toList, false⟩

/-- Give the next character. -/
def next (t : Spelling) : Step × Spelling :=
  match t.left with
  | [] => (.done, t)
  | c :: left => (.yielded (.text (String.singleton c)), { t with left })

/-- Stop; says whether this call stopped it. -/
def close (t : Spelling) : Bool × Spelling := (!t.closed, { t with left := [], closed := true })

end Spelling

/-! ## Caches -/

/-- An iterator that a cache has been handed. -/
inductive Handle where
  /-- An iterator of the store. -/
  | cell (i : Nat)
  /-- A text that the cache is spelling. -/
  | text (n : Nat)
deriving DecidableEq

/-- Something that a cache had done to the store, and what came of it. -/
inductive Access where
  /-- A property was read. -/
  | read (owner : Ref) (key : Key) (value : Value)
  /-- An iterator over an iterable was made. -/
  | opened (iterable : Ref) (iterator : Nat)
  /-- An iterator was advanced to a position. -/
  | advanced (iterator position : Nat) (step : Step)
  /-- A custom matcher was asked. -/
  | consulted (matcher : String) (verdict : Verdict Unit)
  /-- The elements that were left were put into a new array. -/
  | collected (items : List Value)
  /-- The properties that were left were put into a new object. -/
  | remainder (owner : Value) (excluded : List Key)
deriving DecidableEq

/-- An access, and where in the trace of the store it began and ended. -/
structure Entry where
  access : Access
  start : Nat
  stop : Nat
deriving DecidableEq

/-- What a match has seen. -/
structure Cache where
  /-- The properties read of each visited value. -/
  properties : Assoc Ref (Assoc Key Value) := []
  /-- The iterator opened for each iterable. -/
  sources : Assoc Ref Nat := []
  /-- What each iterator has yielded. -/
  memos : Assoc Handle Memo := []
  /-- The iterators to close, in the order in which they were handed out. -/
  opened : List Handle := []
  /-- The texts that were spelled, one for each visit. -/
  texts : Array Spelling := #[]
  /-- What was done to the store, in order. -/
  log : List Entry := []
deriving DecidableEq, Inhabited

namespace Cache

/-- A cache that has seen nothing. -/
def empty : Cache := {}

/-- Whether a value has been visited. -/
def contains (c : Cache) (v : Value) : Bool :=
  match v.identity with
  | none => false
  | some r =>
      c.properties.contains r || c.sources.contains r
        || match r with
          | .iterator i => c.memos.contains (.cell i)
          | _ => false

/-- The remembered value of a property. -/
def property? (c : Cache) (v : Value) (k : Key) : Option Value :=
  (v.identity.bind c.properties.get?).bind fun known => known.get? k

/-- How many properties of a value are remembered, if it was visited. -/
def propertyCount? (c : Cache) (v : Value) : Option Nat :=
  (v.identity.bind c.properties.get?).map fun known => known.length

/-- The remembered steps of an iterator, if it was visited. -/
def steps? (c : Cache) (cell : Nat) : Option (List Step) :=
  (c.memos.get? (.cell cell)).map (·.steps)

/-- How many iterators the cache will close. -/
def openCount (c : Cache) : Nat := c.opened.length

/-- Note what took the store from `σ` to `τ`. -/
def record (c : Cache) (a : Access) (σ τ : Store) : Cache :=
  { c with log := c.log ++ [⟨a, σ.trace.size, τ.trace.size⟩] }

/-- Note that a value was visited. -/
def visit (c : Cache) (r : Ref) : Cache :=
  if c.properties.contains r then c
  else { c with properties := c.properties.insert r [] }

/-- Remember a property. -/
def remember (c : Cache) (r : Ref) (k : Key) (v : Value) : Cache :=
  let known := (c.properties.get? r).getD []
  { c with properties := c.properties.insert r (known.insert k v) }

/-- Remember the iterator opened for an iterable. -/
def assign (c : Cache) (r : Ref) (i : Nat) : Cache :=
  { c with sources := c.sources.insert r i }

/-- The memo of an iterator; a new one is empty. -/
def memo (c : Cache) (h : Handle) : Memo := (c.memos.get? h).getD {}

/-- Replace the memo of an iterator. -/
def learn (c : Cache) (h : Handle) (m : Memo) : Cache := { c with memos := c.memos.insert h m }

/-- Take charge of an iterator: it gets a memo and will be closed. -/
def adopt (c : Cache) (h : Handle) : Cache :=
  if c.memos.contains h then c
  else { c with memos := c.memos.insert h {}, opened := c.opened ++ [h] }

/-- The state of a text being spelled. -/
def spelling (c : Cache) (n : Nat) : Spelling := c.texts.getD n ⟨"", [], true⟩

/-- Replace the state of a text being spelled. -/
def setSpelling (c : Cache) (n : Nat) (t : Spelling) : Cache :=
  { c with texts := c.texts.setIfInBounds n t }

end Cache

/-! ## A cache at work on a store -/

/-- A cache together with the store it looks at. -/
structure State where
  cache : Cache := {}
  store : Store := {}

namespace State

/-- Note that a value is visited; says whether it has properties at all. -/
def register (s : State) (v : Value) : Bool × State :=
  match v.identity with
  | none => (false, s)
  | some r => (true, { s with cache := s.cache.visit r })

/-- Read a property, from memory if it was read before. -/
def read (s : State) (v : Value) (k : Key) : Value × State :=
  match v.identity with
  | none => (.undefined, s)
  | some r =>
      match s.cache.property? v k with
      | some x => (x, s)
      | none =>
          let (x, σ) := s.store.get v k
          (x, ⟨(s.cache.remember r k x).record (.read r k x) s.store σ, σ⟩)

/-- Begin to spell a text. -/
def spell (s : State) (text : String) : Handle × State :=
  let n := s.cache.texts.size
  let cache := { s.cache with texts := s.cache.texts.push (.begin text) }
  (.text n, { s with cache := cache.adopt (.text n) })

/-- The iterator for a value, opened at the first visit.  A text has no identity
    and gets a new one each time. -/
def iteratorFor (s : State) (v : Value) : Option Handle × State :=
  match v with
  | .prim (.text text) =>
      let (h, s) := s.spell text
      (some h, s)
  | .prim _ => (none, s)
  | .ref r =>
      match s.cache.sources.get? r with
      | some i => (some (.cell i), s)
      | none =>
          match s.store.iterate v with
          | (none, σ) => (none, { s with store := σ })
          | (some i, σ) =>
              let cache := (s.cache.assign r i).record (.opened r i) s.store σ
              (some (.cell i), ⟨cache.adopt (.cell i), σ⟩)

/-! ## Steps -/

/-- Advance an iterator to a position that has not been seen before. -/
def next (s : State) (h : Handle) (position : Nat) : Step × State :=
  match h with
  | .cell i =>
      let (step, σ) := s.store.next i
      (step, ⟨s.cache.record (.advanced i position step) s.store σ, σ⟩)
  | .text n =>
      let (step, t) := (s.cache.spelling n).next
      (step, { s with cache := s.cache.setSpelling n t })

/-- A bound on the values that an iterator can still yield. -/
def remaining (s : State) : Handle → Nat
  | .cell i => s.store.remaining i
  | .text n => (s.cache.spelling n).left.length

/-- Take charge of an iterator. -/
def adopt (s : State) (h : Handle) : State := { s with cache := s.cache.adopt h }

/-- Replace the memo of an iterator. -/
def learn (s : State) (h : Handle) (m : Memo) : State := { s with cache := s.cache.learn h m }

/-- Advance an iterator past what is known and add the step to its memo. -/
def pull (add : Memo → Step → Memo) (h : Handle) (s : State) : Step × State :=
  let m := s.cache.memo h
  let (step, s) := s.next h (m.steps.length + m.tail.length)
  (step, s.learn h (add m step))

/-- Advance an iterator at most `count` times, up to completion. -/
def repeatedly (pull : State → Step × State) : (count : Nat) → State → State
  | 0, s => s
  | count + 1, s =>
      match pull s with
      | (.done, s) => s
      | (.yielded _, s) => repeatedly pull count s

/-- The step of an iterator at a position, advancing it only past what is known. -/
def step (s : State) (h : Handle) (position : Nat) : Step × State :=
  let s := s.adopt h
  let m := s.cache.memo h
  match m.at? position with
  | some step => (step, s)
  | none =>
      let s := repeatedly (pull Memo.addStep h) (position + 1 - m.steps.length) s
      ((s.cache.memo h).steps[position]?.getD .done, s)

/-- Exhaust an iterator. -/
def drain (s : State) (h : Handle) : State :=
  if (s.cache.memo h).drained then s else repeatedly (pull Memo.addTail h) (s.remaining h + 1) s

/-- The values of an iterator from a position on, exhausting it. -/
def drainFrom (s : State) (h : Handle) (position : Nat) : List Value × State :=
  let s := s.adopt h
  let m := s.cache.memo h
  let known := m.steps.drop position
  -- a completion among the known steps leaves nothing to pull
  if known.any Step.isDone then (Memo.valuesOf known, s)
  else
    let s := s.drain h
    (Memo.valuesOf known ++ (s.cache.memo h).tail.drop (position - m.steps.length), s)

/-! ## Values made on the way -/

/-- Put the elements that are left into a new array. -/
def collect (s : State) (items : List Value) : Value × State :=
  let (array, σ) := s.store.newArray items
  (array, ⟨s.cache.record (.collected items) s.store σ, σ⟩)

/-- Put the properties that are left into a new object, looked at afresh and not
    through the memory. -/
def remainder (s : State) (v : Value) (excluded : List Key) : Value × State :=
  let (object, σ) := s.store.without v excluded
  (object, ⟨s.cache.record (.remainder v excluded) s.store σ, σ⟩)

/-! ## Closing -/

/-- Close an iterator; says whether this call closed it. -/
def closeHandle (s : State) : Handle → Bool × State
  | .cell i =>
      let (closed, σ) := s.store.close i
      (closed, { s with store := σ })
  | .text n =>
      let (closed, t) := (s.cache.spelling n).close
      (closed, { s with cache := s.cache.setSpelling n t })

/-- Close iterators one after another and count those that were still open. -/
def closeAll : List Handle → State → Nat × State
  | [], s => (0, s)
  | h :: rest, s =>
      let (closed, s) := s.closeHandle h
      let (count, s) := closeAll rest s
      ((if closed then 1 else 0) + count, s)

/-- Close every iterator handed out so far, and count those that were still open;
    what was remembered stays. -/
def close (s : State) : Nat × State :=
  closeAll s.cache.opened { s with cache := { s.cache with opened := [] } }

end State

end StructuralMatch
