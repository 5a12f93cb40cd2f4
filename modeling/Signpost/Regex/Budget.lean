import Signpost.Regex.Basic

namespace Signpost

def stateBytes : Nat := 32

def rangeBytes : Nat := 8

def targetBytes : Nat := 4

def placeBytes : Nat := 16

def indexBytes : Nat := 4

def sizeLimit : Nat := 10 * Nat.pow 2 20

def Count.bytes (count : Count) (nullable : Bool) (body : Nat) : Nat :=
  let choice := stateBytes + 2 * targetBytes
  match count.most with
  | none =>
      if count.least = 0 then
        if nullable then body + 2 * choice + stateBytes else body + choice
      else count.least * body + choice
  | some most =>
      if count.least = 0 ∧ most = 1 then body + choice + stateBytes
      else if most ≤ count.least then max stateBytes (count.least * body)
      else
        max stateBytes (count.least * body) + stateBytes +
          (most - count.least) * (body + choice)

mutual

def Regex.bytes : Regex → Nat
  | .empty => stateBytes
  | .char _ => stateBytes
  | .set ranges => stateBytes + rangeBytes * ranges.length
  | .look _ => stateBytes
  | .group _ _ body => 2 * stateBytes + body.bytes
  | .concat parts => parts.bytes
  | .alternate branches => 2 * stateBytes + targetBytes * branches.length + branches.bytes
  | .iterate count body => count.bytes body.nullable body.bytes

def RegexSeq.bytes : RegexSeq → Nat
  | .nil => 0
  | .cons head tail => head.bytes + tail.bytes

end

mutual

def Regex.lastGroup : Regex → Nat
  | .empty => 0
  | .char _ => 0
  | .set _ => 0
  | .look _ => 0
  | .group index _ body => max index body.lastGroup
  | .concat parts => parts.lastGroup
  | .alternate branches => branches.lastGroup
  | .iterate _ body => body.lastGroup

def RegexSeq.lastGroup : RegexSeq → Nat
  | .nil => 0
  | .cons head tail => max head.lastGroup tail.lastGroup

end

def labelBytes : List (String × Nat) → Nat
  | [] => 0
  | (name, _) :: rest => name.utf8ByteSize + indexBytes + labelBytes rest

/-- Every index up to the last has a place, also one whose group is left out. -/
def Regex.groupBytes (regex : Regex) : Nat :=
  placeBytes * (regex.lastGroup + 1) + labelBytes regex.groupNames

/-- The size of an expression once its repetitions are written out, in bytes: so much for
every state of the automaton, and something on top for ranges and choices.  The whole is a
group of its own and ends in acceptance. -/
def Regex.totalBytes (regex : Regex) : Nat :=
  3 * stateBytes + regex.bytes + regex.groupBytes

end Signpost
