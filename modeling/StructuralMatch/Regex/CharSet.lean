import StructuralMatch.Text.CaseFold
import StructuralMatch.Text.CharClass

/-! # Sets of characters

    The sets that a regular expression can name.  A set is kept as the expression
    that denotes it, so that complement, intersection and case closure of sets
    over all of Unicode cost nothing until a character is tested. -/

namespace StructuralMatch.Regex

/-- An expression that denotes a set of characters. -/
inductive CharSet where
  | none
  | char (c : Char)
  /-- The characters from `low` to `high`, both included. -/
  | range (low high : Char)
  | word
  | digit
  | space
  | complement (s : CharSet)
  | union (s t : CharSet)
  | inter (s t : CharSet)
  /-- Every character with a case variant in the set. -/
  | folded (s : CharSet)
  /-- Every character with an ASCII case variant in the set. -/
  | foldedAscii (s : CharSet)
deriving Inhabited

namespace CharSet

/-- A character and its ASCII case variants. -/
def asciiVariants (c : Char) : List Char := [c, c.toLower, c.toUpper]

/-- Whether a character belongs to the set. -/
def contains : CharSet → Char → Bool
  | .none, _ => false
  | .char d, c => c == d
  | .range low high, c => decide (low ≤ c) && decide (c ≤ high)
  | .word, c => Text.isWord c
  | .digit, c => Text.isDigit c
  | .space, c => Text.isSpace c
  | .complement s, c => !s.contains c
  | .union s t, c => s.contains c || t.contains c
  | .inter s t, c => s.contains c && t.contains c
  | .folded s, c => (Text.caseVariants c).any fun d => s.contains d
  | .foldedAscii s, c => (asciiVariants c).any fun d => s.contains d

/-- All characters. -/
def any : CharSet := .complement .none

/-- The characters of the first set that are not in the second. -/
def diff (s t : CharSet) : CharSet := .inter s (.complement t)

/-- The characters of exactly one of the sets. -/
def symmDiff (s t : CharSet) : CharSet := .union (s.diff t) (t.diff s)

/-- The union of a list of sets. -/
def unions (ss : List CharSet) : CharSet := ss.foldr .union .none

/-- The characters below `0x80`. -/
def ascii : CharSet := .range '\x00' '\x7f'

/-- Decimal digits below `0x80`. -/
def asciiDigit : CharSet := .range '0' '9'

/-- Letters below `0x80`. -/
def asciiAlpha : CharSet := .union (.range 'a' 'z') (.range 'A' 'Z')

/-- Word characters below `0x80`. -/
def asciiWord : CharSet := unions [asciiAlpha, asciiDigit, .char '_']

/-- White space below `0x80`. -/
def asciiSpace : CharSet := .union (.range '\t' '\r') (.char ' ')

/-- The set that a bracketed name such as `[:alpha:]` denotes. -/
def named? : String → Option CharSet
  | "alnum" => some (.union asciiAlpha asciiDigit)
  | "alpha" => some asciiAlpha
  | "ascii" => some ascii
  | "blank" => some (.union (.char '\t') (.char ' '))
  | "cntrl" => some (.union (.range '\x00' '\x1f') (.char '\x7f'))
  | "digit" => some asciiDigit
  | "graph" => some (.range '!' '~')
  | "lower" => some (.range 'a' 'z')
  | "print" => some (.range ' ' '~')
  | "punct" => some (unions [.range '!' '/', .range ':' '@', .range '[' '\x60', .range '\x7b' '~'])
  | "space" => some asciiSpace
  | "upper" => some (.range 'A' 'Z')
  | "word" => some asciiWord
  | "xdigit" => some (unions [asciiDigit, .range 'a' 'f', .range 'A' 'F'])
  | _ => none

/-- Whether every member of the set is certainly below `0x80`. -/
def isAscii : CharSet → Bool
  | .none => true
  | .char c => decide (c < '\x80')
  | .range _ high => decide (high < '\x80')
  | .word | .digit | .space | .complement _ | .folded _ => false
  | .union s t => s.isAscii && t.isAscii
  | .inter s t => s.isAscii || t.isAscii
  | .foldedAscii s => s.isAscii

/-- A measure of the ranges that the set consists of. -/
def weight : CharSet → Nat
  | .none => 0
  | .char _ | .range _ _ => 1
  | .word => Text.wordRanges.length
  | .digit => Text.digitRanges.length
  | .space => Text.spaceRanges.length
  | .complement s => s.weight + 1
  | .union s t | .inter s t => s.weight + t.weight
  | .folded s | .foldedAscii s => 2 * s.weight

end CharSet

end StructuralMatch.Regex
