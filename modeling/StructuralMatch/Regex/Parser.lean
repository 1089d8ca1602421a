import StructuralMatch.Regex.Bracketed
import StructuralMatch.Text.Letter

/-! # Reading regular expressions

    The spelling of a regular expression is read from left to right.  Flags hold
    from where they are set to the end of the enclosing group, across
    alternatives.  Groups are numbered by their opening parentheses.  Look-around,
    back-references and malformed repetitions are refused.

    Every reader that calls itself takes a fuel that bounds the number of nested
    readings; the public entry computes it from the length of the text. -/

namespace StructuralMatch.Regex

/-- A part of a regular expression, with the depth to which it is nested. -/
structure Part where
  node : Node
  depth : Nat := 0
  /-- Whether a repetition may follow; it may not follow a change of flags. -/
  repeatable : Bool := true

/-- How deeply a regular expression may be nested. -/
def depthLimit : Nat := 250

namespace Reader

/-! ## Single parts -/

/-- The test or set that an atom stands for outside brackets. -/
def atomPart : Atom → Reader Part
  | .char c => return { node := .set (← fold (.char c)) }
  | .set s => return { node := .set s }
  | .assertion a => return { node := .assertion a (← get).flags.unicode }

/-- A single character outside brackets; the point and the two anchors are special. -/
def simplePart (c : Char) : Reader Part := do
  let flags := (← get).flags
  match c with
  | '.' =>
      if !flags.unicode then fail .notText
      else if flags.dotAll then return { node := .set .any }
      else if flags.crlf then
        return { node := .set (.complement (.union (.char '\r') (.char '\n'))) }
      else return { node := .set (.complement (.char '\n')) }
  | '^' =>
      atomPart (.assertion
        (if !flags.multiLine then .textStart
          else if flags.crlf then .lineStartCrlf else .lineStart))
  | '$' =>
      atomPart (.assertion
        (if !flags.multiLine then .textEnd
          else if flags.crlf then .lineEndCrlf else .lineEnd))
  | c => atomPart (.char c)

/-! ## Repetition -/

/-- The bounds of a counted repetition; the opening brace has been read. -/
def counts : Reader (Nat × Option Nat) := do
  skipIgnored
  let _ ← peek .unclosedCount
  let least ← decimal
  let bounds ← show Reader (Nat × Option Nat) from do
    if ← skip "," then
      skipIgnored
      if (← peek .unclosedCount) == '\x7d' then return (least, none)
      else return (least, some (← decimal))
    else return (least, some least)
  if !(← skip "\x7d") then fail .unclosedCount
  if bounds.2.any (· < bounds.1) then fail .invalidCount
  return bounds

/-- Repeat the last part of a sequence, which is given in reverse. -/
def repeatLast (parts : List Part) (least : Nat) (most : Option Nat) : Reader (List Part) := do
  match parts with
  | [] => fail .nothingToRepeat
  | p :: before =>
      if !p.repeatable then fail .nothingToRepeat
      let lazily ← skip "?"
      let greedy := lazily == (← get).flags.swapGreed
      return { node := p.node.times least most greedy, depth := p.depth + 1 } :: before

/-- The sequence of parts given in reverse. -/
def sequenceOf (parts : List Part) : Part :=
  match parts with
  | [] => { node := .empty }
  | [p] => p
  | parts =>
      { node := .seqAll (parts.reverse.map (·.node))
        depth := parts.foldl (fun d p => max d p.depth) 0 + 1 }

/-! ## Flags, names and groups -/

/-- Set or clear the flag of a letter. -/
def setFlag (flags : Flags) (on : Bool) : Char → Option Flags
  | 'i' => some { flags with ignoreCase := on }
  | 'm' => some { flags with multiLine := on }
  | 's' => some { flags with dotAll := on }
  | 'U' => some { flags with swapGreed := on }
  | 'u' => some { flags with unicode := on }
  | 'R' => some { flags with crlf := on }
  | 'x' => some { flags with ignoreSpace := on }
  | _ => none

/-- Flags up to a colon or a closing parenthesis; each letter and the dash at most
    once, and a letter after the dash. -/
def flagLetters : (fuel : Nat) → (seen : List Char) → (on : Bool) → Flags →
    Reader (List Char × Flags)
  | 0, _, _, _ => fail .invalidFlags
  | fuel + 1, seen, on, flags => do
      let c ← peek .unexpectedEnd
      if c == ':' || c == ')' then
        if seen.head? == some '-' then fail .invalidFlags
        return (seen, flags)
      else
        if seen.contains c then fail .invalidFlags
        advance
        if c == '-' then flagLetters fuel (c :: seen) false flags
        else
          match setFlag flags on c with
          | some flags => flagLetters fuel (c :: seen) on flags
          | none => fail .invalidFlags

/-- Whether a character may stand in the name of a group. -/
def isNameChar (first : Bool) (c : Char) : Bool :=
  if first then c == '_' || Text.isLetter c
  else c == '_' || c == '.' || c == '[' || c == ']' || Text.isLetterOrNumber c

/-- The name of a group up to the closing angle bracket, recorded for the group. -/
def groupName (index : Nat) : Reader Unit := do
  let name := (← get).rest.takeWhile (· != '>')
  advance name.length
  if !(← skip ">") then fail .unexpectedEnd
  match name with
  | [] => fail .invalidName
  | c :: cs =>
      if !isNameChar true c || !cs.all (isNameChar false) then fail .invalidName
  let name := String.ofList name
  modify fun c => { c with names := c.names ++ [(name, index)] }

/-- Number a group that has just been opened. -/
def newGroup : Reader Nat := do
  let index := (← get).groups + 1
  modify fun c => { c with groups := index }
  return index

/-- How an opening parenthesis goes on. -/
inductive GroupHead where
  /-- A captured group. -/
  | captured (index : Nat)
  /-- A group that is not captured, under these flags. -/
  | plain (flags : Flags)
  /-- A change of flags for the rest of the enclosing group. -/
  | change (flags : Flags)

/-- What follows an opening parenthesis. -/
def groupHead : Reader GroupHead := do
  skipIgnored
  let spellings := ["?=", "?!", "?<=", "?<!"]
  if ← spellings.anyM ahead then fail .lookAround
  if (← skip "?P<") || (← skip "?<") then
    let index ← newGroup
    groupName index
    return .captured index
  else if ← skip "?" then
    let _ ← peek .unclosedGroup
    let cursor ← get
    let (seen, flags) ← flagLetters (cursor.rest.length + 1) [] true cursor.flags
    if ← skip ":" then return .plain flags
    else
      advance
      if seen.isEmpty then fail .nothingToRepeat
      return .change flags
  else return .captured (← newGroup)

/-- Close a group and go back to the flags before it. -/
def closeGroup (flags : Flags) : Reader Unit := do
  if !(← skip ")") then fail .unclosedGroup
  modify fun c => { c with flags }

/-! ## The grammar -/

mutual

/-- Alternatives up to a closing parenthesis or the end. -/
def alternatives : (fuel : Nat) → List Part → Reader Part
  | 0, _ => fail .nestedTooDeep
  | fuel + 1, before => do
      let p ← sequence fuel []
      if ← skip "|" then alternatives fuel (p :: before)
      else
        match before with
        | [] => return p
        | before =>
            let all := (p :: before).reverse
            return {
              node := .altAll (all.map (·.node))
              depth := all.foldl (fun d p => max d p.depth) 0 + 1 }

/-- Parts up to a bar, a closing parenthesis or the end; those read so far are given in
    reverse. -/
def sequence : (fuel : Nat) → List Part → Reader Part
  | 0, _ => fail .nestedTooDeep
  | fuel + 1, parts => do
      skipIgnored
      match ← peek? with
      | none | some '|' | some ')' => return sequenceOf parts
      | some c =>
          advance
          match c with
          | '?' => sequence fuel (← repeatLast parts 0 (some 1))
          | '*' => sequence fuel (← repeatLast parts 0 none)
          | '+' => sequence fuel (← repeatLast parts 1 none)
          | '\x7b' =>
              if parts.isEmpty then fail .nothingToRepeat
              let (least, most) ← counts
              sequence fuel (← repeatLast parts least most)
          | '(' => sequence fuel ((← groupPart fuel) :: parts)
          | '[' =>
              modify fun c => { c with rest := '[' :: c.rest }
              let (s, depth) ← bracketed fuel
              sequence fuel ({ node := .set s, depth } :: parts)
          | '\\' => sequence fuel ((← atomPart (← escape)) :: parts)
          | c => sequence fuel ((← simplePart c) :: parts)

/-- A group, or a change of flags; the opening parenthesis has been read. -/
def groupPart : (fuel : Nat) → Reader Part
  | 0 => fail .nestedTooDeep
  | fuel + 1 => do
      let flags := (← get).flags
      match ← groupHead with
      | .change flags =>
          modify fun c => { c with flags }
          return { node := .empty, repeatable := false }
      | .plain inner =>
          modify fun c => { c with flags := inner }
          let p ← alternatives fuel []
          closeGroup flags
          return { node := p.node, depth := p.depth + 1 }
      | .captured index =>
          let p ← alternatives fuel []
          closeGroup flags
          return { node := .group index p.node, depth := p.depth + 1 }

end

end Reader

/-- The largest measure of a program that is accepted. -/
def weightLimit : Nat := 10 * 1024 * 1024

/-- Read a regular expression: its tree, the number of groups, and their names with
    their numbers, in order.  Two groups may have one name here. -/
def parse (source : String) : Except SyntaxError (Node × Nat × List (String × Nat)) := do
  let cs := source.toList
  let (p, cursor) ← (Reader.alternatives (4 * cs.length + 4) []).run { rest := cs }
  if !cursor.rest.isEmpty then throw .unopenedGroup
  if depthLimit < p.depth then throw .nestedTooDeep
  if weightLimit < p.node.weight then throw .tooLarge
  return (p.node, cursor.groups, cursor.names)

end StructuralMatch.Regex
