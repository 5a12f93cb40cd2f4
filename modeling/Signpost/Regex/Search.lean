import Signpost.Regex.Program

namespace Signpost

namespace CharSet

def isWord (c : Char) : Bool := c.isAlphanum || c = '_'

end CharSet

namespace Look

def holds (condition : Look) (before after : Option Char) : Bool :=
  let wordBefore := before.any CharSet.isWord
  let wordAfter := after.any CharSet.isWord
  match condition with
  | .start => before.isNone
  | .finish => after.isNone
  | .startLine => before.isNone || before = some '\n'
  | .endLine => after.isNone || after = some '\n'
  | .startLineCrlf =>
      before.isNone || before = some '\n' || (before = some '\r' && after ≠ some '\n')
  | .endLineCrlf =>
      after.isNone || after = some '\r' || (after = some '\n' && before ≠ some '\r')
  | .word => wordBefore != wordAfter
  | .notWord => wordBefore == wordAfter
  | .wordStart => !wordBefore && wordAfter
  | .wordEnd => wordBefore && !wordAfter
  | .wordStartHalf => !wordBefore
  | .wordEndHalf => !wordAfter

end Look

/-- A point in a search: the next instruction, the position in the text, and the positions
saved on the way, the latest first. -/
structure Thread where
  pc : Nat
  pos : Nat
  slots : List (Nat × Nat)
deriving DecidableEq, Repr

namespace Thread

def jump (thread : Thread) (offset : Int) : Thread :=
  { thread with pc := (thread.pc + offset).toNat }

def advance (thread : Thread) : Thread :=
  { thread with pc := thread.pc + 1 }

def charBefore? (text : Array Char) (pos : Nat) : Option Char :=
  match pos with
  | 0 => none
  | pos + 1 => text[pos]?

def next (program : Array Instr) (text : Array Char) (thread : Thread) : List Thread :=
  match program[thread.pc]? with
  | none => []
  | some (.consume ranges) =>
      if text[thread.pos]?.any ranges.contains then
        [{ thread.advance with pos := thread.pos + 1 }]
      else []
  | some (.assert condition) =>
      if condition.holds (charBefore? text thread.pos) text[thread.pos]? then
        [thread.advance]
      else []
  | some (.save slot) =>
      [{ thread.advance with slots := (slot, thread.pos) :: thread.slots }]
  | some (.fork offsets) => offsets.map thread.jump

end Thread

structure Visited where
  width : Nat
  marks : Array Bool

namespace Visited

def none (instructions positions : Nat) : Visited :=
  ⟨positions, Array.replicate (instructions * positions) false⟩

def index (visited : Visited) (thread : Thread) : Nat :=
  thread.pc * visited.width + thread.pos

def contains (visited : Visited) (thread : Thread) : Bool :=
  visited.marks[visited.index thread]?.getD true

def insert (visited : Visited) (thread : Thread) : Visited :=
  { visited with marks := visited.marks.setIfInBounds (visited.index thread) true }

end Visited

namespace Search

/-- The search follows the first of several ways as long as it leads on and comes back to
the others in order; a pair of instruction and position that has been visited is not
visited again.  Every turn visits a new pair, so the number of pairs bounds the turns. -/
def explore (program : Array Instr) (text : Array Char) :
    Nat → List Thread → Visited → Option Thread
  | 0, _, _ => none
  | bound + 1, waiting, visited =>
      match waiting.dropWhile visited.contains with
      | [] => none
      | thread :: rest =>
          if thread.pc = program.size then some thread
          else
            explore program text bound (thread.next program text ++ rest)
              (visited.insert thread)

/-- The first way through the program, from the first position that has one. -/
def run (program : Array Instr) (text : Array Char) : Option Thread :=
  let positions := text.size + 1
  let instructions := program.size + 1
  explore program text (instructions * positions + 1)
    ((List.range positions).map fun pos => ⟨0, pos, []⟩)
    (Visited.none instructions positions)

end Search

structure Match where
  text : Array Char
  slots : List (Nat × Nat)

namespace Match

def group? (found : Match) (index : Nat) : Option String :=
  match found.slots.lookup (2 * index), found.slots.lookup (2 * index + 1) with
  | some start, some finish =>
      some (String.ofList (found.text.extract start finish).toList)
  | _, _ => none

end Match

def Regex.program (regex : Regex) : Array Instr :=
  regex.code.toArray

def Regex.find? (regex : Regex) (text : String) : Option Match :=
  let text := text.toList.toArray
  (Search.run regex.program text).map fun thread => ⟨text, thread.slots⟩

end Signpost
