import Signpost.Regex.Basic

namespace Signpost

inductive Instr
  | consume (ranges : CharSet)
  | assert (condition : Look)
  | save (slot : Nat)
  | fork (offsets : List Int)
deriving DecidableEq, Repr

namespace Instr

def jump (offset : Int) : Instr := .fork [offset]

/-- A choice between the next instruction and a jump, in this order if greedy. -/
def choose (greedy : Bool) (away : Int) : Instr :=
  if greedy then .fork [1, away] else .fork [away, 1]

/-- A choice between going back and the next instruction, in this order if greedy. -/
def again (greedy : Bool) (back : Int) : Instr :=
  if greedy then .fork [back, 1] else .fork [1, back]

end Instr

def optionally (greedy : Bool) (body : List Instr) : List Instr :=
  .choose greedy (body.length + 1) :: body

def repeatedly (greedy : Bool) (body : List Instr) : List Instr :=
  body ++ [.again greedy (-body.length)]

def zeroOrMore (greedy nullable : Bool) (body : List Instr) : List Instr :=
  if nullable then optionally greedy (repeatedly greedy body)
  else .choose greedy (body.length + 2) :: (body ++ [.jump (-(body.length + 1))])

def exactly (times : Nat) (body : List Instr) : List Instr :=
  (List.replicate times body).flatten

/-- Each copy may be left out, together with all that follow it. -/
def upTo (greedy : Bool) (body : List Instr) : Nat → List Instr
  | 0 => []
  | times + 1 =>
      .choose greedy ((times + 1) * (body.length + 1)) :: (body ++ upTo greedy body times)

def Count.code (count : Count) (nullable : Bool) (body : List Instr) : List Instr :=
  match count.most with
  | some most =>
      exactly count.least body ++ upTo count.greedy body (most - count.least)
  | none =>
      match count.least with
      | 0 => zeroOrMore count.greedy nullable body
      | least + 1 => exactly least body ++ repeatedly count.greedy body

def blockOffsets (start : Int) : List (List Instr) → List Int
  | [] => []
  | block :: rest => start :: blockOffsets (start + (block.length + 1)) rest

def blocksLength : List (List Instr) → Nat
  | [] => 0
  | block :: rest => block.length + 1 + blocksLength rest

/-- Each block of code ends with a jump behind the last block. -/
def blocks : List (List Instr) → List Instr
  | [] => []
  | block :: rest => block ++ .jump (blocksLength rest + 1) :: blocks rest

def choice (branches : List (List Instr)) : List Instr :=
  .fork (blockOffsets 1 branches) :: blocks branches

mutual

/-- Jumps are relative, so the code of an expression does not depend on where it stands. -/
def Regex.code : Regex → List Instr
  | .empty => []
  | .char c => [.consume [CharRange.single c]]
  | .set ranges => [.consume ranges]
  | .look condition => [.assert condition]
  | .group index _ body => .save (2 * index) :: (body.code ++ [.save (2 * index + 1)])
  | .concat parts => parts.code.flatten
  | .alternate branches => choice branches.code
  | .iterate count body => count.code body.nullable body.code

def RegexSeq.code : RegexSeq → List (List Instr)
  | .nil => []
  | .cons head tail => head.code :: tail.code

end

end Signpost
