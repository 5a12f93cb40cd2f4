namespace Signpost

structure CharRange where
  low : Char
  high : Char
deriving DecidableEq, Repr

namespace CharRange

def contains (range : CharRange) (c : Char) : Bool :=
  range.low.toNat ≤ c.toNat && c.toNat ≤ range.high.toNat

def single (c : Char) : CharRange := ⟨c, c⟩

def meets (first second : CharRange) : Bool :=
  max first.low.toNat second.low.toNat ≤ min first.high.toNat second.high.toNat

def precedes (first second : CharRange) : Bool :=
  first.low.toNat < second.low.toNat ||
    (first.low.toNat = second.low.toNat && first.high.toNat ≤ second.high.toNat)

/-- The other ASCII case of the part of the range that lies among the small letters, or,
when there is none, of the part that lies among the capital letters. -/
def otherCase? (range : CharRange) : Option CharRange :=
  let clamp (low high : Nat) (shift : Nat → Nat) : CharRange :=
    ⟨Char.ofNat (shift (max range.low.toNat low)),
      Char.ofNat (shift (min range.high.toNat high))⟩
  if range.meets ⟨'a', 'z'⟩ then some (clamp 97 122 (· - 32))
  else if range.meets ⟨'A', 'Z'⟩ then some (clamp 65 90 (· + 32))
  else none

end CharRange

/-- A normalized set lists its ranges in increasing order, with neither overlaps nor
neighbours. -/
abbrev CharSet := List CharRange

namespace CharSet

def contains (set : CharSet) (c : Char) : Bool :=
  set.any fun range => range.contains c

def lastChar : Char := Char.ofNat 0x10ffff

def nextChar (c : Char) : Char :=
  if c.toNat = 0xd7ff then Char.ofNat 0xe000 else Char.ofNat (c.toNat + 1)

def prevChar (c : Char) : Char :=
  if c.toNat = 0xe000 then Char.ofNat 0xd7ff else Char.ofNat (c.toNat - 1)

def mergeInto (current : CharRange) : CharSet → CharSet
  | [] => [current]
  | range :: rest =>
      if range.low.toNat ≤ current.high.toNat + 1 then
        if range.high.toNat ≤ current.high.toNat then mergeInto current rest
        else mergeInto ⟨current.low, range.high⟩ rest
      else current :: mergeInto range rest

def insertSorted (range : CharRange) : CharSet → CharSet
  | [] => [range]
  | head :: tail =>
      if range.precedes head then range :: head :: tail
      else head :: insertSorted range tail

def normalize (set : CharSet) : CharSet :=
  match set.foldr insertSorted [] with
  | [] => []
  | range :: rest => mergeInto range rest

def gapsFrom (above : Char) : CharSet → CharSet
  | [] => if above = lastChar then [] else [⟨nextChar above, lastChar⟩]
  | range :: rest =>
      ⟨nextChar above, prevChar range.low⟩ :: gapsFrom range.high rest

/-- The complement of a normalized set. -/
def negate : CharSet → CharSet
  | [] => [⟨Char.ofNat 0, lastChar⟩]
  | range :: rest =>
      if range.low.toNat = 0 then gapsFrom range.high rest
      else ⟨Char.ofNat 0, prevChar range.low⟩ :: gapsFrom range.high rest

def foldCase (set : CharSet) : CharSet :=
  normalize (set ++ set.filterMap CharRange.otherCase?)

/-! The classes that have names.  Letters, digits and white space are those of ASCII. -/

def digit : CharSet := [⟨'0', '9'⟩]

def space : CharSet := [⟨'\t', '\r'⟩, ⟨' ', ' '⟩]

def word : CharSet := [⟨'0', '9'⟩, ⟨'A', 'Z'⟩, ⟨'_', '_'⟩, ⟨'a', 'z'⟩]

def named? : String → Option CharSet
  | "alnum" => some [⟨'0', '9'⟩, ⟨'A', 'Z'⟩, ⟨'a', 'z'⟩]
  | "alpha" => some [⟨'A', 'Z'⟩, ⟨'a', 'z'⟩]
  | "ascii" => some [⟨Char.ofNat 0, Char.ofNat 0x7f⟩]
  | "blank" => some [⟨'\t', '\t'⟩, ⟨' ', ' '⟩]
  | "cntrl" => some [⟨Char.ofNat 0, Char.ofNat 0x1f⟩, ⟨Char.ofNat 0x7f, Char.ofNat 0x7f⟩]
  | "digit" => some digit
  | "graph" => some [⟨'!', '~'⟩]
  | "lower" => some [⟨'a', 'z'⟩]
  | "print" => some [⟨' ', '~'⟩]
  | "punct" => some [⟨'!', '/'⟩, ⟨':', '@'⟩, ⟨'[', Char.ofNat 0x60⟩, ⟨'\x7b', '~'⟩]
  | "space" => some space
  | "upper" => some [⟨'A', 'Z'⟩]
  | "word" => some word
  | "xdigit" => some [⟨'0', '9'⟩, ⟨'A', 'F'⟩, ⟨'a', 'f'⟩]
  | _ => none

def any : CharSet := [⟨Char.ofNat 0, lastChar⟩]

def notNewline : CharSet := [⟨Char.ofNat 0, '\t'⟩, ⟨Char.ofNat 0x0b, lastChar⟩]

def notLineBreak : CharSet :=
  [⟨Char.ofNat 0, '\t'⟩, ⟨Char.ofNat 0x0b, Char.ofNat 0x0c⟩, ⟨Char.ofNat 0x0e, lastChar⟩]

end CharSet

end Signpost
