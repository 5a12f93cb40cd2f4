import Signpost.Toml.Value

namespace Signpost.Toml

/-- The tables so far, and the path of the one whose header came last. -/
structure Tables where
  members : Members
  path : List String

namespace Tables

def empty : Tables := ⟨[], []⟩

def changeTable (tables : Tables) (path : List String) (change : Change) : Option Tables :=
  (changeAt .implied change path .header tables.members).map fun members =>
    { tables with members := members }

def addMember? (tables : Tables) (path : List String) (node : Node) : Option Tables := do
  let (outer, key) ← splitPath? path
  tables.changeTable tables.path (addAt outer key node)

def openWith? (tables : Tables) (path : List String) (change : String → Change) :
    Option Tables := do
  let (outer, key) ← splitPath? path
  let changed ← tables.changeTable outer (change key)
  pure { changed with path := path }

end Tables

def readPair? (text : List Char) : Option (List String × Node × List Char) := do
  let (path, rest) ← readPath? greatestDepth text
  let rest ← expect? '=' rest
  let (node, rest) ← readValue? (2 * rest.length + 2) greatestDepth (skipBlank rest)
  pure (path, node, rest)

def readLine? (tables : Tables) : List Char → Option (Tables × List Char)
  | '[' :: '[' :: rest => do
      let (path, rest) ← readPath? greatestDepth rest
      let rest ← expect? ']' rest
      let rest ← expect? ']' rest
      let tables ← tables.openWith? path openElement
      pure (tables, rest)
  | '[' :: rest => do
      let (path, rest) ← readPath? greatestDepth rest
      let rest ← expect? ']' rest
      let tables ← tables.openWith? path openTable
      pure (tables, rest)
  | text => do
      let (path, node, rest) ← readPair? text
      let tables ← tables.addMember? path node
      pure (tables, rest)

def isLineEmpty (text : List Char) : Bool :=
  text.isEmpty || text.head? = some '#' || (afterNewline? text).isSome

/-- Reads lines to the end of the text.  Every line but the last has a character that ends
it, so that the length of the text bounds their number. -/
def readLines? : Nat → Tables → List Char → Option Tables
  | 0, _, _ => none
  | fuel + 1, tables, text =>
      match skipBlank text with
      | [] => some tables
      | start => do
          let (tables, rest) ←
            if isLineEmpty start then some (tables, start) else readLine? tables start
          let rest ← afterLine? rest
          readLines? fuel tables rest

/-- A byte order mark may come first. -/
def skipMark : List Char → List Char
  | '\uFEFF' :: rest => rest
  | text => text

/-- The tree that a text describes, unless it is malformed. -/
def read? (text : String) : Option Node := do
  let chars := skipMark text.toList
  let tables ← readLines? (chars.length + 1) .empty chars
  pure (.object (membersOf tables.members))

end Signpost.Toml
