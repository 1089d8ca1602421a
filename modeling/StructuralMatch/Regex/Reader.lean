import StructuralMatch.Regex.Syntax

/-! # A reader for regular expressions

    The state of reading: the text to come, the flags in force, and the groups
    opened so far.  Readers consume characters from the front and may refuse the
    text with a `SyntaxError`.  White space and comments count for nothing where
    the flags say so. -/

namespace StructuralMatch.Regex

/-- Why a text is no regular expression. -/
inductive SyntaxError where
  | unexpectedEnd
  | unopenedGroup
  | unclosedGroup
  | unclosedClass
  | unclosedCount
  | nothingToRepeat
  | invalidCount
  | invalidEscape
  | invalidCodePoint
  | invalidRange
  | invalidClassItem
  | invalidFlags
  | invalidName
  | duplicateName
  | lookAround
  | backReference
  | unsupportedClass
  | notText
  | nestedTooDeep
  | tooLarge
deriving DecidableEq

/-- The switches that change how what follows is read. -/
structure Flags where
  ignoreCase : Bool := false
  multiLine : Bool := false
  dotAll : Bool := false
  swapGreed : Bool := false
  ignoreSpace : Bool := false
  crlf : Bool := false
  unicode : Bool := true

/-- Where the reader stands: the text to come, the flags in force, and the groups
    opened so far with the names given to them. -/
structure Cursor where
  rest : List Char
  flags : Flags := {}
  groups : Nat := 0
  names : List (String × Nat) := []

/-- A reader of part of a regular expression. -/
abbrev Reader := StateT Cursor (Except SyntaxError)

namespace Reader

/-! ## Characters -/

/-- Refuse the text. -/
def fail {α : Type} (e : SyntaxError) : Reader α := throw e

/-- The next character, if there is one. -/
def peek? : Reader (Option Char) := return (← get).rest.head?

/-- The next character. -/
def peek (e : SyntaxError) : Reader Char := do
  match ← peek? with
  | some c => return c
  | none => fail e

/-- Go past the next `n` characters. -/
def advance (n : Nat := 1) : Reader Unit :=
  modify fun c => { c with rest := c.rest.drop n }

/-- Whether the text goes on with `p`. -/
def ahead (p : String) : Reader Bool := return p.toList.isPrefixOf (← get).rest

/-- Go past `p` if the text goes on with it. -/
def skip (p : String) : Reader Bool := do
  let found ← ahead p
  if found then advance p.length
  return found

/-! ## White space -/

/-- White space and comments off the front of a text. -/
def dropIgnored : Nat → List Char → List Char
  | fuel + 1, c :: cs =>
      if Text.isSpace c then dropIgnored fuel cs
      else if c == '#' then dropIgnored fuel (cs.dropWhile (· != '\n'))
      else c :: cs
  | _, cs => cs

/-- Go past white space and comments where they are ignored. -/
def skipIgnored : Reader Unit :=
  modify fun c =>
    if c.flags.ignoreSpace then { c with rest := dropIgnored c.rest.length c.rest } else c

/-- Go past white space. -/
def skipSpace : Reader Unit :=
  modify fun c => { c with rest := c.rest.dropWhile Text.isSpace }

/-! ## What flags do to sets, and numbers -/

/-- The set under the flags in force: closed under case if case is ignored. -/
def fold (s : CharSet) : Reader CharSet := do
  let flags := (← get).flags
  if flags.ignoreCase then
    return if flags.unicode then .folded s else .foldedAscii s
  else return s

/-- The complement of a set if it is wanted; without Unicode it would hold parts of
    characters. -/
def complementIf (negated : Bool) (s : CharSet) : Reader CharSet := do
  if !negated then return s
  else if (← get).flags.unicode then return .complement s
  else fail .notText

/-- A decimal number, with white space allowed around it. -/
def decimal : Reader Nat := do
  skipSpace
  let digits := (← get).rest.takeWhile Char.isDigit
  advance digits.length
  skipSpace
  let n := digits.foldl (fun n c => 10 * n + (c.toNat - '0'.toNat)) 0
  if digits.isEmpty || UInt32.size ≤ n then fail .invalidCount
  return n
end Reader

end StructuralMatch.Regex
