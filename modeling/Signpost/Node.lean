import Signpost.Number.Binary64

namespace Signpost

inductive Number
  | integer (value : Int)
  | float (value : Binary64)
deriving DecidableEq, Repr

/-- What unsigned numbers of 64 bits stay below. -/
def wordLimit : Nat := Nat.pow 2 64

/-- What signed numbers of 64 bits stay below. -/
def halfLimit : Nat := Nat.pow 2 63

mutual

/-- Trees of data, as texts in JSON and TOML describe them.  Where a text stops being
well-formed, the tree has a fault, so that a reader who goes through it in order meets what
the text says first.  A number is absent when it lies outside the range of numbers, and a
text is absent when it escapes half of a surrogate pair: the notation is well-formed, but
there is no such value. -/
inductive Node
  | fault
  | null
  | bool (value : Bool)
  | number (value : Option Number)
  | text (value : Option String)
  | array (elements : NodeSeq)
  | object (members : MemberSeq)

inductive NodeSeq
  | nil
  | fault
  | cons (head : Node) (tail : NodeSeq)

inductive MemberSeq
  | nil
  | fault
  | cons (key : Option String) (value : Node) (tail : MemberSeq)

end

mutual

/-- Whether all of a tree is there. -/
def Node.isWhole : Node → Bool
  | .fault => false
  | .array elements => elements.isWhole
  | .object members => members.isWhole
  | _ => true

def NodeSeq.isWhole : NodeSeq → Bool
  | .nil => true
  | .fault => false
  | .cons head tail => head.isWhole && tail.isWhole

def MemberSeq.isWhole : MemberSeq → Bool
  | .nil => true
  | .fault => false
  | .cons _ value tail => value.isWhole && tail.isWhole

end

def NodeSeq.ofList : List Node → NodeSeq
  | [] => .nil
  | head :: tail => .cons head (.ofList tail)

def MemberSeq.ofList : List (String × Node) → MemberSeq
  | [] => .nil
  | (key, value) :: tail => .cons (some key) value (.ofList tail)

namespace Node

def ofText (value : String) : Node := .text (some value)

def ofNat (value : Nat) : Node := .number (some (.integer value))

def ofList (elements : List Node) : Node := .array (.ofList elements)

def ofMembers (members : List (String × Node)) : Node := .object (.ofList members)

end Node

end Signpost
