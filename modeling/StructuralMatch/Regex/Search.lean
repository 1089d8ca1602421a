import StructuralMatch.Regex.Program

/-! # Searching

    All ways to match are followed at once, one character at a time.  Threads are
    kept in the order of preference, and of two threads at the same instruction
    only the preferred one goes on, so that the work for each character is
    bounded by the size of the program.  A thread that accepts ends all less
    preferred ones; those before it may still replace its answer.  The search
    starts at every position until something has matched, so the leftmost match
    is found. -/

namespace StructuralMatch.Regex

/-- The positions stored by a thread. -/
abbrev Slots := Array (Option Nat)

/-- A thread that waits for a character or has accepted. -/
structure Thread where
  instr : Nat
  slots : Slots

/-- The threads at a position, and the instructions already reached there. -/
structure Front where
  reached : Array Bool
  threads : Array Thread

/-- A position in the text with the characters around it. -/
structure Place where
  position : Nat
  before : Option Char
  after : Option Char

/-- The word characters that assertions go by. -/
def wordChars (unicode : Bool) (c : Char) : Bool :=
  if unicode then Text.isWord c else CharSet.asciiWord.contains c

namespace Program

/-- Follow an instruction to the ones that wait for a character, at most `fuel` deep. -/
def follow (p : Program) (here : Place) : (fuel instr : Nat) → Slots → Front → Front
  | 0, _, _, front => front
  | fuel + 1, instr, slots, front =>
      -- a more preferred thread has been here
      if front.reached.getD instr true then front
      else
        let front := { front with reached := front.reached.setIfInBounds instr true }
        match p[instr]? with
        | none => front
        | some .accept | some (.set _ _) =>
            { front with threads := front.threads.push ⟨instr, slots⟩ }
        | some (.assertion a unicode next) =>
            if a.holds (wordChars unicode) here.before here.after then
              follow p here fuel next slots front
            else front
        | some (.save slot next) =>
            follow p here fuel next (slots.setIfInBounds slot (some here.position)) front
        | some (.fork first second) =>
            follow p here fuel second slots (follow p here fuel first slots front)

/-- The front before anything has been reached. -/
def emptyFront (p : Program) : Front := ⟨Array.replicate p.size false, #[]⟩

/-- Let the threads take a character, most preferred first, into the front behind it.
    A thread that has accepted gives an answer and ends the less preferred ones. -/
def takeChar (p : Program) (c : Option Char) (behind : Place) :
    List Thread → Front → Option Slots → Front × Option Slots
  | [], front, found => (front, found)
  | t :: threads, front, found =>
      match p[t.instr]? with
      | some .accept => (front, some t.slots)
      | some (.set s next) =>
          if c.any s.contains then
            takeChar p c behind threads (p.follow behind (p.size + 1) next t.slots front) found
          else takeChar p c behind threads front found
      | _ => takeChar p c behind threads front found

/-- Run the threads over the rest of the text. -/
def run (p : Program) (start : Nat) (blank : Slots) :
    List Char → Place → Front → Option Slots → Option Slots
  | cs, here, front, found =>
      let front :=
        if found.isSome then front else p.follow here (p.size + 1) start blank front
      match cs with
      | [] => (p.takeChar none here front.threads.toList p.emptyFront found).2
      | c :: cs =>
          let behind : Place := ⟨here.position + 1, some c, cs.head?⟩
          let (next, found) :=
            p.takeChar (some c) behind front.threads.toList p.emptyFront found
          -- an answer that nothing can replace any more
          if found.isSome && next.threads.isEmpty then found
          else run p start blank cs behind next found

/-- The stored positions of the leftmost match with the preferred choices. -/
def search (p : Program) (start slots : Nat) (text : List Char) : Option Slots :=
  p.run start (Array.replicate slots none) text ⟨0, none, text.head?⟩ p.emptyFront none

end Program

end StructuralMatch.Regex
