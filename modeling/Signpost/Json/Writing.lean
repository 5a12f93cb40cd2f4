import Signpost.Json.Text
import Signpost.Node
import Signpost.Number.Notation

namespace Signpost.Json

/-- There is no notation for what is not a finite number. -/
def writeNumber : Number → List Char
  | .integer value => Writing.integer value
  | .float (.finite negative mantissa exponent) =>
      (Writing.scientific.write (.finite negative mantissa exponent)).toList
  | .float _ => ['n', 'u', 'l', 'l']

def writeBool (value : Bool) : List Char :=
  if value then ['t', 'r', 'u', 'e'] else ['f', 'a', 'l', 's', 'e']

def writeLeaf : Node → List Char
  | .null => ['n', 'u', 'l', 'l']
  | .bool value => writeBool value
  | .number (some value) => writeNumber value
  | .text (some value) => writeText value.toList
  | _ => []

def writeKey : Option String → List Char
  | some key => writeText key.toList ++ [':']
  | none => []

mutual

def write : Node → List Char
  | .array elements => '[' :: (writeElements elements ++ [']'])
  | .object members => '\x7b' :: (writeMembers members ++ ['\x7d'])
  | leaf => writeLeaf leaf

def writeElements : NodeSeq → List Char
  | .cons head .nil => write head
  | .cons head tail => write head ++ ',' :: writeElements tail
  | _ => []

def writeMembers : MemberSeq → List Char
  | .cons key value .nil => writeKey key ++ write value
  | .cons key value tail => writeKey key ++ write value ++ ',' :: writeMembers tail
  | _ => []

end

def newline (depth : Nat) : List Char := '\n' :: List.replicate (2 * depth) ' '

mutual

/-- Every element stands on a line of its own, two spaces further in than what it is part
of. -/
def layOut (depth : Nat) : Node → List Char
  | .array .nil => ['[', ']']
  | .array elements =>
      '[' :: (layOutElements (depth + 1) elements ++ newline depth ++ [']'])
  | .object .nil => ['\x7b', '\x7d']
  | .object members =>
      '\x7b' :: (layOutMembers (depth + 1) members ++ newline depth ++ ['\x7d'])
  | leaf => writeLeaf leaf

def layOutElements (depth : Nat) : NodeSeq → List Char
  | .cons head .nil => newline depth ++ layOut depth head
  | .cons head tail =>
      newline depth ++ layOut depth head ++ ',' :: layOutElements depth tail
  | _ => []

def layOutMembers (depth : Nat) : MemberSeq → List Char
  | .cons key value .nil => newline depth ++ writeKey key ++ ' ' :: layOut depth value
  | .cons key value tail =>
      newline depth ++ writeKey key ++ ' ' :: layOut depth value ++
        ',' :: layOutMembers depth tail
  | _ => []

end

def writeCompact (node : Node) : String := String.ofList (write node)

def writePretty (node : Node) : String := String.ofList (layOut 0 node)

end Signpost.Json
