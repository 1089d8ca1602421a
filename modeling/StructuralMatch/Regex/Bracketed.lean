import StructuralMatch.Regex.Escape

/-! # Classes in brackets

    A class lists characters, ranges, named classes and nested classes, and
    combines such lists by intersection, difference and symmetric difference,
    which all associate to the left.  Case is ignored operand by operand, before
    complements are taken. -/

namespace StructuralMatch.Regex.Reader

/-! ## Items -/

/-- A bracketed name such as `[:alpha:]`, if one comes next. -/
def namedClass? : Reader (Option CharSet) := do
  match (← get).rest with
  | '[' :: ':' :: cs =>
      let negated := cs.head? == some '^'
      let cs := if negated then cs.drop 1 else cs
      let name := cs.takeWhile (· != ':')
      match cs.drop name.length, CharSet.named? (String.ofList name) with
      | ':' :: ']' :: after, some s =>
          modify fun c => { c with rest := after }
          return some (← complementIf negated s)
      | _, _ => return none
  | _ => return none

/-- One character or escape inside brackets. -/
def classAtom : Reader Atom := do
  let c ← peek .unclosedClass
  advance
  if c == '\\' then escape else return .char c

/-- What an atom stands for inside brackets. -/
def classItem : Atom → Reader CharSet
  | .char c => pure (.char c)
  | .set s => pure s
  | .assertion _ => fail .invalidClassItem

/-- A single item inside brackets, or a range of characters. -/
def classRange : Reader CharSet := do
  let first ← classAtom
  skipIgnored
  let c ← peek .unclosedClass
  let cursor ← get
  let ahead := cursor.rest.drop 1
  let ahead := if cursor.flags.ignoreSpace then dropIgnored ahead.length ahead else ahead
  if c != '-' || ahead.head? == some ']' || ahead.head? == some '-' then
    classItem first
  else
    advance
    skipIgnored
    let _ ← peek .unclosedClass
    let last ← classAtom
    match first, last with
    | .char low, .char high =>
        if low ≤ high then return .range low high else fail .invalidRange
    | _, _ => fail .invalidRange

/-- The items at the start of a class: dashes stand for themselves, and without any
    so does a closing bracket. -/
def leadingItems : (fuel : Nat) → List CharSet → Reader (List CharSet)
  | 0, items => return items
  | fuel + 1, items => do
      skipIgnored
      match ← peek .unclosedClass with
      | '-' =>
          advance
          leadingItems fuel (.char '-' :: items)
      | ']' =>
          if items.isEmpty then
            advance
            return [.char ']']
          else return items
      | _ => return items

/-! ## Operators -/

/-- How two operands inside brackets are combined. -/
inductive ClassOp where
  | inter
  | diff
  | symmDiff

/-- The combination of two operands. -/
def ClassOp.apply : ClassOp → CharSet → CharSet → CharSet
  | .inter => .inter
  | .diff => .diff
  | .symmDiff => .symmDiff

/-- What has been read inside one pair of brackets: the finished left operand with
    the operator that waits for its right one, and the items since then. -/
structure ClassDraft where
  left : Option (CharSet × ClassOp) := none
  items : List CharSet := []
  depth : Nat := 0

/-- Close the current operand; operators associate to the left. -/
def ClassDraft.operand (d : ClassDraft) : Reader CharSet := do
  let right : CharSet := .unions d.items.reverse
  match d.left with
  | none => return right
  | some (left, op) => return op.apply (← fold left) (← fold right)

/-- The operator that comes next, if one does. -/
def classOp? : Reader (Option ClassOp) := do
  if ← skip "&&" then return some .inter
  else if ← skip "--" then return some .diff
  else if ← skip "~~" then return some .symmDiff
  else return none

/-! ## The class as a whole -/

mutual

/-- A class in brackets; the opening bracket comes next. -/
def bracketed : (fuel : Nat) → Reader (CharSet × Nat)
  | 0 => fail .nestedTooDeep
  | fuel + 1 => do
      advance
      skipIgnored
      let negated ← skip "^"
      let first ← leadingItems ((← get).rest.length + 1) []
      let (s, depth) ← bracketedRest fuel { items := first }
      return (← complementIf negated (← fold s), depth + 1)

/-- The items of a class up to its closing bracket. -/
def bracketedRest : (fuel : Nat) → ClassDraft → Reader (CharSet × Nat)
  | 0, _ => fail .nestedTooDeep
  | fuel + 1, d => do
      skipIgnored
      let c ← peek .unclosedClass
      if c == ']' then
        advance
        return (← d.operand, d.depth + (if d.items.length ≤ 1 then 0 else 1))
      else
        match ← classOp? with
        | some op =>
            let left ← d.operand
            bracketedRest fuel { left := some (left, op), depth := d.depth + 1 }
        | none =>
            let (item, depth) ← classElement fuel c
            bracketedRest fuel
              { d with items := item :: d.items, depth := max d.depth depth }

/-- One element of a class: a bracketed name, a nested class, or a range. -/
def classElement : (fuel : Nat) → Char → Reader (CharSet × Nat)
  | 0, _ => fail .nestedTooDeep
  | fuel + 1, c => do
      if c == '[' then
        match ← namedClass? with
        | some s => return (s, 0)
        | none => bracketed fuel
      else return (← classRange, 0)

end

end StructuralMatch.Regex.Reader
