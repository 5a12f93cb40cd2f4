import Signpost.Regex.CharSet

namespace Signpost

inductive Look
  | start
  | finish
  | startLine
  | endLine
  | startLineCrlf
  | endLineCrlf
  | word
  | notWord
  | wordStart
  | wordEnd
  | wordStartHalf
  | wordEndHalf
deriving DecidableEq, Repr

/-- How often an expression repeats.  No `most` means without bound. -/
structure Count where
  least : Nat
  most : Option Nat
  greedy : Bool
deriving DecidableEq, Repr

mutual

inductive Regex
  | empty
  | char (c : Char)
  | set (ranges : CharSet)
  | look (look : Look)
  | group (index : Nat) (name : Option String) (body : Regex)
  | concat (parts : RegexSeq)
  | alternate (branches : RegexSeq)
  | iterate (count : Count) (body : Regex)

inductive RegexSeq
  | nil
  | cons (head : Regex) (tail : RegexSeq)

end

instance : Inhabited Regex := ⟨.empty⟩

namespace RegexSeq

def ofList : List Regex → RegexSeq
  | [] => .nil
  | head :: tail => .cons head (ofList tail)

def toList : RegexSeq → List Regex
  | .nil => []
  | .cons head tail => head :: tail.toList

@[simp] theorem toList_ofList (parts : List Regex) : (ofList parts).toList = parts := by
  induction parts with
  | nil => rfl
  | cons head tail ih => simp [ofList, toList, ih]

def length : RegexSeq → Nat
  | .nil => 0
  | .cons _ tail => tail.length + 1

end RegexSeq

namespace Regex

/-! Smart constructors.  They leave out a sequence or a choice of one, and the repetitions
that allow exactly none or exactly one. -/

def concatOf : List Regex → Regex
  | [] => .empty
  | [part] => part
  | parts => .concat (RegexSeq.ofList parts)

def alternateOf : List Regex → Regex
  | [branch] => branch
  | branches => .alternate (RegexSeq.ofList branches)

def iterateOf (count : Count) (body : Regex) : Regex :=
  if count.least = 0 ∧ count.most = some 0 then .empty
  else if count.least = 1 ∧ count.most = some 1 then body
  else .iterate count body

end Regex

mutual

/-- Whether an expression can match without consuming a character. -/
def Regex.nullable : Regex → Bool
  | .empty => true
  | .char _ => false
  | .set _ => false
  | .look _ => true
  | .group _ _ body => body.nullable
  | .concat parts => parts.allNullable
  | .alternate branches => branches.someNullable
  | .iterate count body => count.least = 0 || body.nullable

def RegexSeq.allNullable : RegexSeq → Bool
  | .nil => true
  | .cons head tail => head.nullable && tail.allNullable

def RegexSeq.someNullable : RegexSeq → Bool
  | .nil => false
  | .cons head tail => head.nullable || tail.someNullable

end

mutual

def Regex.height : Regex → Nat
  | .empty => 0
  | .char _ => 0
  | .set _ => 0
  | .look _ => 0
  | .group _ _ body => body.height + 1
  | .concat parts => parts.height + 1
  | .alternate branches => branches.height + 1
  | .iterate _ body => body.height + 1

def RegexSeq.height : RegexSeq → Nat
  | .nil => 0
  | .cons head tail => max head.height tail.height

end

mutual

/-- The named groups, in the order in which they open. -/
def Regex.groupNames : Regex → List (String × Nat)
  | .empty => []
  | .char _ => []
  | .set _ => []
  | .look _ => []
  | .group index name body =>
      match name with
      | some name => (name, index) :: body.groupNames
      | none => body.groupNames
  | .concat parts => parts.groupNames
  | .alternate branches => branches.groupNames
  | .iterate _ body => body.groupNames

def RegexSeq.groupNames : RegexSeq → List (String × Nat)
  | .nil => []
  | .cons head tail => head.groupNames ++ tail.groupNames

end

end Signpost
