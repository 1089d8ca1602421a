import StructuralMatch.Regex.Reader

/-! # Escapes

    What may follow a backslash: a character by name or by number, a class of
    characters, a test, or a punctuation character that stands for itself.  A
    digit would refer back to a group and is refused. -/

namespace StructuralMatch.Regex

/-- What an escape or a single character stands for. -/
inductive Atom where
  | char (c : Char)
  | set (s : CharSet)
  | assertion (a : Assertion)

namespace Reader

/-- The value of a hexadecimal digit. -/
def hexValue? (c : Char) : Option Nat :=
  if '0' ≤ c ∧ c ≤ '9' then some (c.toNat - '0'.toNat)
  else if 'a' ≤ c ∧ c ≤ 'f' then some (c.toNat - 'a'.toNat + 10)
  else if 'A' ≤ c ∧ c ≤ 'F' then some (c.toNat - 'A'.toNat + 10)
  else none

/-- The character of a code point, unless it is a surrogate or too large. -/
def codePoint (n : Nat) : Reader Char :=
  if n < 0xD800 ∨ (0xE000 ≤ n ∧ n < 0x110000) then pure (Char.ofNat n)
  else fail .invalidCodePoint

/-- The character that hexadecimal digits denote. -/
def hexDigits (cs : List Char) : Reader Char := do
  match cs.mapM hexValue? with
  | some ds =>
      if ds.isEmpty then fail .invalidEscape
      codePoint (ds.foldl (fun n d => min (16 * n + d) 0x110000) 0)
  | none => fail .invalidEscape

/-- A character by its number: `count` digits, or any number of them in braces. -/
def hexEscape (count : Nat) : Reader Char := do
  skipIgnored
  if ← skip "\x7b" then
    let cs := (← get).rest.takeWhile (· != '\x7d')
    advance cs.length
    if ← skip "\x7d" then
      let flags := (← get).flags
      hexDigits (if flags.ignoreSpace then cs.filter (!Text.isSpace ·) else cs)
    else fail .unexpectedEnd
  else
    let cs := (← get).rest.take count
    advance cs.length
    if cs.length < count then fail .unexpectedEnd
    hexDigits cs

/-- A class of characters named by a letter; capitals name the complement. -/
def letterClass (unicode ascii : CharSet) (negated : Bool) : Reader Atom := do
  let flags := (← get).flags
  return .set (← complementIf negated (if flags.unicode then unicode else ascii))

/-- The test that a name in braces after `\b` stands for, if that is a name. -/
def boundaryName? : String → Option Assertion
  | "start" => some .wordStart
  | "end" => some .wordEnd
  | "start-half" => some .wordStartHalf
  | "end-half" => some .wordEndHalf
  | _ => none

/-- A word boundary; a name in braces may follow, and anything else in braces is a
    repetition. -/
def boundary : Reader Atom := do
  let isNameChar (c : Char) : Bool := c.isAlpha || c == '-'
  match (← get).rest with
  | '\x7b' :: cs =>
      let cs := if (← get).flags.ignoreSpace then dropIgnored cs.length cs else cs
      let name := cs.takeWhile isNameChar
      match cs with
      | [] => fail .unexpectedEnd
      | _ =>
        if name.isEmpty then return .assertion .wordBoundary
        else
          match cs.drop name.length with
          | '\x7d' :: after =>
              match boundaryName? (String.ofList name) with
              | some a =>
                  modify fun c => { c with rest := after }
                  return .assertion a
              | none => fail .invalidEscape
          | _ => fail .invalidEscape
  | _ => return .assertion .wordBoundary

/-- What follows a backslash. -/
def escape : Reader Atom := do
  let c ← peek .unexpectedEnd
  advance
  match c with
  | 'x' => return .char (← hexEscape 2)
  | 'u' => return .char (← hexEscape 4)
  | 'U' => return .char (← hexEscape 8)
  | 'd' => letterClass .digit .asciiDigit false
  | 'D' => letterClass .digit .asciiDigit true
  | 's' => letterClass .space .asciiSpace false
  | 'S' => letterClass .space .asciiSpace true
  | 'w' => letterClass .word .asciiWord false
  | 'W' => letterClass .word .asciiWord true
  | 'p' | 'P' => fail .unsupportedClass
  | 'a' => return .char '\x07'
  | 'f' => return .char '\x0c'
  | 't' => return .char '\t'
  | 'n' => return .char '\n'
  | 'r' => return .char '\r'
  | 'v' => return .char '\x0b'
  | 'A' => return .assertion .textStart
  | 'z' => return .assertion .textEnd
  | 'b' => boundary
  | 'B' => return .assertion .notWordBoundary
  | '<' => return .assertion .wordStart
  | '>' => return .assertion .wordEnd
  | c =>
      if c.isDigit then fail .backReference
      else if c.isAlpha || decide ('\x7f' < c) then fail .invalidEscape
      else return .char c

end Reader

end StructuralMatch.Regex
