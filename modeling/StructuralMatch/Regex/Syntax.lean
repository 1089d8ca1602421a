import StructuralMatch.Regex.CharSet

/-! # Regular expressions as trees

    What a regular expression means once its spelling is gone: sets of
    characters, tests on the surroundings of a position, groups that are
    captured, and the ways to combine them.  Flags have been applied. -/

namespace StructuralMatch.Regex

/-- A test on the characters around a position. -/
inductive Assertion where
  | textStart
  | textEnd
  /-- After a line feed, or at the start. -/
  | lineStart
  /-- Before a line feed, or at the end. -/
  | lineEnd
  /-- After a line break of either convention, or at the start. -/
  | lineStartCrlf
  /-- Before a line break of either convention, or at the end. -/
  | lineEndCrlf
  | wordBoundary
  | notWordBoundary
  | wordStart
  | wordEnd
  /-- No word character before. -/
  | wordStartHalf
  /-- No word character after. -/
  | wordEndHalf
deriving DecidableEq

namespace Assertion

/-- Whether the test holds between two characters, either of which may be missing
    at an end of the text; `word` are the word characters. -/
def holds (word : Char → Bool) (before after : Option Char) : Assertion → Bool
  | .textStart => before.isNone
  | .textEnd => after.isNone
  | .lineStart => before.isNone || before == some '\n'
  | .lineEnd => after.isNone || after == some '\n'
  | .lineStartCrlf =>
      before.isNone || before == some '\n' || (before == some '\r' && after != some '\n')
  | .lineEndCrlf =>
      after.isNone || after == some '\r' || (after == some '\n' && before != some '\r')
  | .wordBoundary => before.any word != after.any word
  | .notWordBoundary => before.any word == after.any word
  | .wordStart => !before.any word && after.any word
  | .wordEnd => before.any word && !after.any word
  | .wordStartHalf => !before.any word
  | .wordEndHalf => !after.any word

end Assertion

/-- A regular expression. -/
inductive Node where
  | empty
  | set (s : CharSet)
  /-- A test; with `unicode` off only ASCII characters make words. -/
  | assertion (a : Assertion) (unicode : Bool)
  /-- A captured group, numbered from one. -/
  | group (index : Nat) (n : Node)
  | seq (a b : Node)
  /-- The first alternative is preferred. -/
  | alt (a b : Node)
  /-- At least `least` and at most `most` copies; greedy ones prefer more. -/
  | repeated (n : Node) (least : Nat) (most : Option Nat) (greedy : Bool)
deriving Inhabited

namespace Node

/-- Whether the expression can match the empty text. -/
def nullable : Node → Bool
  | .empty | .assertion _ _ => true
  | .set _ => false
  | .group _ n => n.nullable
  | .seq a b => a.nullable && b.nullable
  | .alt a b => a.nullable || b.nullable
  | .repeated n least _ _ => least == 0 || n.nullable

/-- Whether the expression can match the empty text only. -/
def onlyEmpty : Node → Bool
  | .empty | .assertion _ _ => true
  | .set _ => false
  | .group _ n => n.onlyEmpty
  | .seq a b | .alt a b => a.onlyEmpty && b.onlyEmpty
  | .repeated n _ most _ => n.onlyEmpty || most == some 0

/-- A repetition; copies of what only matches the empty text are not counted past one. -/
def times (n : Node) (least : Nat) (most : Option Nat) (greedy : Bool) : Node :=
  let (least, most) :=
    if n.onlyEmpty then (min least 1, some (min (most.getD 1) 1)) else (least, most)
  match least, most with
  | 0, some 0 => .empty
  | 1, some 1 => n
  | least, most => .repeated n least most greedy

/-- The expressions one after another. -/
def seqAll : List Node → Node
  | [] => .empty
  | [n] => n
  | n :: ns => .seq n (seqAll ns)

/-- The alternatives, most preferred first. -/
def altAll : List Node → Node
  | [] => .empty
  | [n] => n
  | n :: ns => .alt n (altAll ns)

/-- A measure of the program that the expression becomes, in bytes. -/
def weight : Node → Nat
  | .empty | .assertion _ _ => 24
  | .set s => if s.isAscii then 24 + 8 * s.weight else 24 + 60 * s.weight
  | .group _ n => 48 + n.weight
  | .seq a b => a.weight + b.weight
  | .alt a b => 32 + a.weight + b.weight
  | .repeated n least most _ => (32 + n.weight) * max 1 (max least (most.getD 0))

end Node

end StructuralMatch.Regex
