import Signpost.Json.Numeral
import Signpost.Json.Text

namespace Signpost.Json

def isBlank (c : Char) : Bool := c = ' ' || c = '\n' || c = '\t' || c = '\r'

def skipBlank (text : List Char) : List Char := text.dropWhile isBlank

def after? : List Char → List Char → Option (List Char)
  | [], text => some text
  | c :: word, d :: text => if c = d then after? word text else none
  | _ :: _, [] => none

/-- A tree, and the text that follows.  Reading never fails: where the text stops being
well-formed, the tree has a fault and nothing is read any further. -/
abbrev Read (α : Type) := α × Option (List Char)

def readWord (word : List Char) (node : Node) (text : List Char) : Read Node :=
  match after? word text with
  | some rest => (node, some rest)
  | none => (.fault, none)

def readNumber (negative : Bool) (text : List Char) : Read Node :=
  match readNumeral? negative text with
  | some (numeral, rest) => (.number numeral.value?, some rest)
  | none => (.fault, none)

def readTextNode (text : List Char) : Read Node :=
  match readText? text with
  | some (value, rest) => (.text value, some rest)
  | none => (.fault, none)

def readLeaf (c : Char) (rest : List Char) : Read Node :=
  if c = '"' then readTextNode rest
  else if c = 'n' then readWord ['u', 'l', 'l'] .null rest
  else if c = 't' then readWord ['r', 'u', 'e'] (.bool true) rest
  else if c = 'f' then readWord ['a', 'l', 's', 'e'] (.bool false) rest
  else if c = '-' then readNumber true rest
  else readNumber false (c :: rest)

def readKey : List Char → Read (Option String)
  | '"' :: rest =>
      match readText? rest with
      | some (key, after) => (key, some after)
      | none => (none, none)
  | _ => (none, none)

mutual

/-- The first argument bounds the number of steps. -/
def readNode : Nat → List Char → Read Node
  | 0, _ => (.fault, none)
  | fuel + 1, text =>
      match skipBlank text with
      | [] => (.fault, none)
      | c :: rest =>
          if c = '[' then
            match skipBlank rest with
            | ']' :: after => (.array .nil, some after)
            | first =>
                let (elements, after) := readElements fuel first
                (.array elements, after)
          else if c = '\x7b' then
            match skipBlank rest with
            | '\x7d' :: after => (.object .nil, some after)
            | first =>
                let (members, after) := readMembers fuel first
                (.object members, after)
          else readLeaf c rest

def readElements : Nat → List Char → Read NodeSeq
  | 0, _ => (.fault, none)
  | fuel + 1, text =>
      match readNode fuel text with
      | (node, none) => (.cons node .fault, none)
      | (node, some rest) =>
          match skipBlank rest with
          | ',' :: next =>
              let (tail, after) := readElements fuel next
              (.cons node tail, after)
          | ']' :: after => (.cons node .nil, some after)
          | _ => (.cons node .fault, none)

def readMembers : Nat → List Char → Read MemberSeq
  | 0, _ => (.fault, none)
  | fuel + 1, text =>
      match readKey (skipBlank text) with
      | (_, none) => (.fault, none)
      | (key, some rest) =>
          match readValue fuel (skipBlank rest) with
          | (node, none) => (.cons key node .fault, none)
          | (node, some rest) =>
              match skipBlank rest with
              | ',' :: next =>
                  let (tail, after) := readMembers fuel next
                  (.cons key node tail, after)
              | '\x7d' :: after => (.cons key node .nil, some after)
              | _ => (.cons key node .fault, none)

def readValue : Nat → List Char → Read Node
  | 0, _ => (.fault, none)
  | fuel + 1, ':' :: rest => readNode fuel rest
  | _, _ => (.fault, none)

end

structure Reading where
  root : Node
  ends : Bool

/-- Every step but the first reads a character or follows one that does. -/
def read (text : String) : Reading :=
  let chars := text.toList
  match readNode (3 * chars.length + 3) chars with
  | (root, none) => ⟨root, true⟩
  | (root, some rest) => ⟨root, (skipBlank rest).isEmpty⟩

end Signpost.Json
