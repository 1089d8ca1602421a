import StructuralMatch.Regex.Syntax

/-! # Programs for regular expressions

    A tree is laid out as a list of instructions that refer to one another by
    number.  It is laid out backwards: each part is given the instruction to go
    on with and returns the one to start from.  A fork prefers its first branch.

    A part that can match the empty text is repeated as "one or more copies, or
    none", which keeps the order of preference when a copy is empty. -/

namespace StructuralMatch.Regex

/-- One instruction; the numbers are the instructions to go on with. -/
inductive Instr where
  | accept
  | set (s : CharSet) (next : Nat)
  | assertion (a : Assertion) (unicode : Bool) (next : Nat)
  /-- Store the position in a slot. -/
  | save (slot next : Nat)
  | fork (first second : Nat)
deriving Inhabited

/-- Instructions laid out so far. -/
abbrev Program := Array Instr

namespace Program

/-- Append an instruction, and return its number. -/
def emit (p : Program) (i : Instr) : Nat × Program := (p.size, p.push i)

/-- A fork that prefers its first branch if it is greedy, and its second if not. -/
def choice (greedy : Bool) (more done : Nat) : Instr :=
  if greedy then .fork more done else .fork done more

/-- Lay out `count` copies of a part. -/
def copies (layOut : Nat → Program → Nat × Program) :
    (count next : Nat) → Program → Nat × Program
  | 0, next, p => (next, p)
  | count + 1, next, p =>
      let (next, p) := layOut next p
      copies layOut count next p

/-- Lay out at most `count` nested copies of a part, each of them optional. -/
def optionals (layOut : Nat → Program → Nat × Program) (greedy : Bool) (done : Nat) :
    (count next : Nat) → Program → Nat × Program
  | 0, next, p => (next, p)
  | count + 1, next, p =>
      let (start, p) := layOut next p
      let (next, p) := p.emit (choice greedy start done)
      optionals layOut greedy done count next p

/-- Lay out a part that is followed by a fork back to itself; returns the start of the
    part and the fork. -/
def loop (layOut : Nat → Program → Nat × Program) (greedy : Bool) (done : Nat) (p : Program) :
    Nat × Nat × Program :=
  -- the fork's number is needed before its branches are known
  let (fork, p) := p.emit .accept
  let (start, p) := layOut fork p
  (start, fork, p.setIfInBounds fork (choice greedy start done))

end Program

namespace Node

/-- Lay out a tree that goes on with the instruction `next`. -/
def layOut : Node → (next : Nat) → Program → Nat × Program
  | .empty, next, p => (next, p)
  | .set s, next, p => p.emit (.set s next)
  | .assertion a unicode, next, p => p.emit (.assertion a unicode next)
  | .group index n, next, p =>
      let (next, p) := p.emit (.save (2 * index + 1) next)
      let (next, p) := n.layOut next p
      p.emit (.save (2 * index) next)
  | .seq a b, next, p =>
      let (next, p) := b.layOut next p
      a.layOut next p
  | .alt a b, next, p =>
      let (second, p) := b.layOut next p
      let (first, p) := a.layOut next p
      p.emit (.fork first second)
  | .repeated n 0 none greedy, next, p =>
      let (start, fork, p) := Program.loop n.layOut greedy next p
      if n.nullable then p.emit (Program.choice greedy start next) else (fork, p)
  | .repeated n (least + 1) none greedy, next, p =>
      let (start, _, p) := Program.loop n.layOut greedy next p
      Program.copies n.layOut least start p
  | .repeated n least (some most) greedy, next, p =>
      let (start, p) := Program.optionals n.layOut greedy next (most - least) next p
      Program.copies n.layOut least start p

/-- The program of a tree, and the instruction it starts from. -/
def program (n : Node) : Nat × Program := n.layOut 0 #[.accept]

end Node

end StructuralMatch.Regex
