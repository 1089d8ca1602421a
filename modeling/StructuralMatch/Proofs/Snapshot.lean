import StructuralMatch.Proofs.Progress

/-! # Snapshots

    A snapshot is everything that a match could see, fixed once and for all: which
    properties there are and what they read as, the text of each value, and the
    values of each iterable.  The plain matcher goes down a pattern with nothing
    but a snapshot in hand.  It has no store, no memory and no effects, so what it
    finds does not depend on what was matched before.

    Custom matchers are not part of a snapshot.  Where a pattern asks one, the
    plain matcher takes the next of the verdicts that it is given.

    While it goes, the plain matcher notes what it asks the snapshot, in order. -/

namespace StructuralMatch

/-! ## Plain matching -/

/-- What is captured under a name. -/
inductive Capture where
  | value (v : Value)
  /-- The elements that are left, to be put into an array. -/
  | array (items : List Value)
deriving DecidableEq

/-- Captured parts by name. -/
abbrev Captures := Assoc Key Capture

/-- The outcome of a plain match, what was asked, and the verdicts that were not used. -/
structure Reading (α : Type) where
  verdict : Verdict α
  asked : List Question
  left : List (Verdict Unit)

/-- A plain match, given the verdicts of custom matchers. -/
abbrev Plain (α : Type) := List (Verdict Unit) → Reading α

namespace Plain

variable {α β : Type}

/-- Come to a verdict. -/
def conclude (verdict : Verdict α) : Plain α := fun tape => ⟨verdict, [], tape⟩

/-- Match. -/
def give (a : α) : Plain α := conclude (.matched a)

/-- Do not match. -/
def refuse : Plain α := conclude .unmatched

/-- Ask something first. -/
def ask (asked : List Question) (r : Plain α) : Plain α := fun tape =>
  { r tape with asked := asked ++ (r tape).asked }

/-- Take the next verdict. -/
def judge : Plain Unit
  | [] => ⟨.unmatched, [], []⟩
  | verdict :: tape => ⟨verdict, [], tape⟩

/-- Go on with what was matched. -/
def andThen (r : Plain α) (next : α → Plain β) : Plain β := fun tape =>
  match r tape with
  | ⟨.matched a, asked, left⟩ => ask asked (next a) left
  | ⟨.unmatched, asked, left⟩ => ⟨.unmatched, asked, left⟩
  | ⟨.failed e, asked, left⟩ => ⟨.failed e, asked, left⟩

/-- Change the error of a failure. -/
def mapError (f : MatchError → MatchError) (r : Plain α) : Plain α := fun tape =>
  { r tape with verdict := (r tape).verdict.mapError f }

end Plain

/-- The values of an iterable, and the iterator that they come from; letters come from
    none. -/
structure Feed where
  iterator : Option Nat
  values : List Value

/-- The questions for elements of a feed from a position on. -/
def Feed.questions (feed : Feed) (position count : Nat) : List Question :=
  match feed.iterator with
  | some i => (List.range' position count).map (.position i)
  | none => []

/-- The named groups that took part in the match of a regular expression with a text, each with
    what it matched, in the order in which they are opened; none without a match. -/
def Regex.participants (r : Regex) (text : String) : Option (List (String × String)) :=
  (r.captures text).map fun groups =>
    (r.groupNames.filterMap id).filterMap fun name => (groups name).map (name, ·)

/-- Searching the text of a value binds what took part. -/
theorem matchRegex_eq (r : Regex) (v : Value) (σ : Store) :
    matchRegex r v σ =
      match r.participants (σ.text v) with
      | some groups => .matched (.ofPairs (groups.map fun g => (⟨g.1⟩, .text g.2)))
      | none => .unmatched := by
  rw [matchRegex, Regex.participants]
  cases r.captures (σ.text v) with
  | none => rfl
  | some groups =>
      simp only [Option.map_some, List.map_filterMap, Option.map_map]
      rfl

/-- Everything that a match could see. -/
structure Snapshot where
  /-- Whether a value has a property. -/
  present : Ref → Key → Bool
  /-- What a property reads as. -/
  property : Ref → Key → Value
  /-- What a value turns into where text is wanted. -/
  text : Value → String
  /-- The iterator over a value, if it can be iterated over. -/
  iterator : Ref → Option Nat
  /-- The values of an iterator. -/
  yields : Nat → List Value

namespace Snapshot

/-- The capture of an identifier under its name, or else under the place where it stands. -/
def captureOne (name place : Option Key) (v : Value) : Captures :=
  match name.or place with
  | some k => [(k, .value v)]
  | none => []

/-- The groups of a regular expression that took part in its match with a text. -/
def captureGroups (r : Regex) (text : String) : Verdict Captures :=
  match r.participants text with
  | some groups => .matched (.ofPairs (groups.map fun g => (⟨g.1⟩, .value (.text g.2))))
  | none => .unmatched

/-- The elements that are left, under the name of a rest marker if it has one. -/
def captureRest (name : Option Key) (items : List Value) (c : Captures) : Captures :=
  match name with
  | some k => c.insert k (.array items)
  | none => c

mutual

/-- Match a pattern plainly against a value that stands at a place. -/
def readAt (S : Snapshot) : Pattern → (place : Option Key) → Value → Plain Captures
  | .custom m, _, _ => (Plain.judge.mapError (·.blame m.name)).andThen fun _ => .give []
  | .identifier name, place, v => .give (captureOne name place v)
  | .rest _, _, _ => .give []
  | .regex r, _, v => .conclude (captureGroups r (S.text v))
  | .literal p, _, v => if (Value.prim p).same v then .give [] else .refuse
  | .array elements, _, .prim (.text text) =>
      S.readElements elements ⟨none, Spelling.letters text.toList⟩ 0 []
  | .array _, _, .prim _ => .refuse
  | .array elements, _, .ref r =>
      match S.iterator r with
      | some i => .ask [.iterator r] (S.readElements elements ⟨some i, S.yields i⟩ 0 [])
      | none => .refuse
  | .object _ _, _, .prim _ => .refuse
  | .object entries _, _, .ref r => S.readEntries entries r []

/-- Match the entries of an object pattern plainly, in order; `c` is captured already. -/
def readEntries (S : Snapshot) : List (Key × Pattern) → Ref → Captures → Plain Captures
  | [], _, c => .give c
  | (k, p) :: entries, r, c =>
      if S.present r k then
        .ask [.property r k] ((S.readAt p (some k) (S.property r k)).andThen fun d =>
          S.readEntries entries r (c.insertAll d))
      else .refuse

/-- Match the elements of an array pattern plainly from a position on; `c` is captured
    already. -/
def readElements (S : Snapshot) : List (Option Pattern) → Feed → (position : Nat) → Captures →
    Plain Captures
  | [], feed, position, c =>
      .ask (feed.questions position 1)
        (if position < feed.values.length then .refuse else .give c)
  | none :: elements, feed, position, c =>
      .ask (feed.questions position 1)
        (if position < feed.values.length then S.readElements elements feed (position + 1) c
        else .refuse)
  | some p :: elements, feed, position, c =>
      match p.trailing? elements with
      | some name =>
          .ask (feed.questions position (feed.values.length + 1 - position))
            (.give (captureRest name (feed.values.drop position) c))
      | none =>
          .ask (feed.questions position 1)
            (match feed.values[position]? with
            | some x => (S.readAt p (some (.index position)) x).andThen fun d =>
                S.readElements elements feed (position + 1) (c.insertAll d)
            | none => .refuse)

end

end Snapshot

end StructuralMatch
