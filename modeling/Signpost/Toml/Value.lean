import Signpost.Toml.Moment
import Signpost.Toml.Numeral
import Signpost.Toml.Table
import Signpost.Toml.Text

namespace Signpost.Toml

def isBareChar (c : Char) : Bool := c.isAlphanum || c = '_' || c = '-'

def readKey? (text : List Char) : Option (String × List Char) :=
  match text.takeWhile isBareChar with
  | [] => readShort? text
  | key => some (String.ofList key, text.dropWhile isBareChar)

def greatestDepth : Nat := 79

def readPath? : Nat → List Char → Option (List String × List Char)
  | 0, _ => none
  | depth + 1, text => do
      let (key, rest) ← readKey? (skipBlank text)
      match skipBlank rest with
      | '.' :: rest => do
          let (path, after) ← readPath? depth rest
          pure (key :: path, after)
      | after => pure ([key], after)

def splitPath? : List String → Option (List String × String)
  | [] => none
  | [key] => some ([], key)
  | table :: rest => (splitPath? rest).map fun (path, key) => (table :: path, key)

/-- The key under which a date or time is found in a tree. -/
def momentKey : String := "$__toml_private_datetime"

def momentNode (text : String) : Node := .ofMembers [(momentKey, .ofText text)]

def readWord? : List Char → Option (Node × List Char)
  | 't' :: 'r' :: 'u' :: 'e' :: rest => some (.bool true, rest)
  | 'f' :: 'a' :: 'l' :: 's' :: 'e' :: rest => some (.bool false, rest)
  | _ => none

def readLeaf? (text : List Char) : Option (Node × List Char) :=
  match text with
  | [] => none
  | c :: _ =>
      if c = '"' ∨ c = '\'' then
        (readText? text).map fun (value, rest) => (.ofText value, rest)
      else if c = 't' ∨ c = 'f' then readWord? text
      else
        match readMoment? text with
        | some (value, rest) => some (momentNode value, rest)
        | none =>
            (readNumber? text).map fun (value, rest) => (.number (some value), rest)

mutual

/-- The first argument bounds the number of steps, the second the levels of nesting. -/
def readValue? : Nat → Nat → List Char → Option (Node × List Char)
  | 0, _, _ => none
  | fuel + 1, depth, text =>
      match text with
      | '[' :: rest =>
          match depth with
          | 0 => none
          | depth + 1 => do
              let (elements, after) ← readElements? fuel depth rest
              pure (.ofList elements, after)
      | '\x7b' :: rest =>
          match depth with
          | 0 => none
          | depth + 1 =>
              match skipBlank rest with
              | '\x7d' :: after => some (.ofMembers [], after)
              | first => do
                  let (members, after) ← readMembers? fuel depth [] first
                  pure (.object (membersOf members), after)
      | text => readLeaf? text

/-- Elements may be followed by a comma, the last one as well. -/
def readElements? : Nat → Nat → List Char → Option (List Node × List Char)
  | 0, _, _ => none
  | fuel + 1, depth, text =>
      match skipSpace false text with
      | ']' :: after => some ([], after)
      | first => do
          let (element, rest) ← readValue? fuel depth first
          match skipSpace false rest with
          | ',' :: rest => do
              let (elements, after) ← readElements? fuel depth rest
              pure (element :: elements, after)
          | ']' :: after => pure ([element], after)
          | _ => none

def readMembers? : Nat → Nat → Members → List Char → Option (Members × List Char)
  | 0, _, _, _ => none
  | fuel + 1, depth, members, text => do
      let (path, rest) ← readPath? greatestDepth text
      let (tables, key) ← splitPath? path
      let rest ← expect? '=' rest
      let (node, rest) ← readValue? fuel depth (skipBlank rest)
      let members ← addAt tables key node .header members
      match skipBlank rest with
      | ',' :: rest => readMembers? fuel depth members rest
      | '\x7d' :: after => pure (members, after)
      | _ => none

end

end Signpost.Toml
