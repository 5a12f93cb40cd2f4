import Signpost.Node
import Signpost.OrderedMap

namespace Signpost.Toml

/-- Where a table comes from decides what may still be added to it: a table with a header
of its own is closed to dotted keys from outside, and one that dotted keys have made gets
no header. -/
inductive Origin
  | header
  | implied
  | dotted
deriving DecidableEq, Repr

/-- What stands under a key: a value, a table, or an array of tables that have headers. -/
inductive Item
  | value (node : Node)
  | table (origin : Origin) (members : List (String × Item))
  | tables (elements : List (List (String × Item)))

abbrev Members := List (String × Item)

mutual

def Item.node : Item → Node
  | .value node => node
  | .table _ members => .object (membersOf members)
  | .tables elements => .array (elementsOf elements)

def membersOf : List (String × Item) → MemberSeq
  | [] => .nil
  | (key, item) :: rest => .cons (some key) item.node (membersOf rest)

def elementsOf : List (List (String × Item)) → NodeSeq
  | [] => .nil
  | members :: rest => .cons (.object (membersOf members)) (elementsOf rest)

end

abbrev Change := Origin → Members → Option Members

def changeLast (change : Members → Option Members) : List Members → Option (List Members)
  | [] => none
  | [last] => (change last).map fun changed => [changed]
  | first :: rest => (changeLast change rest).map (first :: ·)

/-- Changes the table at the end of a path.  Tables that are not there yet come into being
with the given origin; an array of tables stands for its last element. -/
def changeAt (made : Origin) (change : Change) : List String → Change
  | [], origin, members => change origin members
  | key :: path, _, members =>
      match Entries.lookup? key members with
      | none =>
          (changeAt made change path made []).map fun changed =>
            members ++ [(key, .table made changed)]
      | some (.value _) => none
      | some (.tables elements) =>
          (changeLast (changeAt made change path .header) elements).map fun changed =>
            (Entries.put key (.tables changed) members).2
      | some (.table origin inner) =>
          if made = .dotted ∧ origin = .header then none
          else
            (changeAt made change path origin inner).map fun changed =>
              (Entries.put key (.table origin changed) members).2

/-- Adds a value.  A table that dotted keys have made takes values by dotted keys alone,
and no other table does. -/
def addValue (isDotted : Bool) (key : String) (node : Node) : Change :=
  fun origin members =>
  if (origin = .dotted) = (isDotted = true) ∧ (Entries.lookup? key members).isNone then
    some (members ++ [(key, .value node)])
  else none

def addAt (path : List String) (key : String) (node : Node) : Change :=
  changeAt .dotted (addValue (!path.isEmpty) key node) path

/-- Gives a table a header.  A table that is only implied so far moves to the end. -/
def openTable (key : String) : Change := fun _ members =>
  match Entries.take key members with
  | (none, _) => some (members ++ [(key, .table .header [])])
  | (some (.table .implied inner), rest) => some (rest ++ [(key, .table .header inner)])
  | _ => none

def openElement (key : String) : Change := fun _ members =>
  match Entries.lookup? key members with
  | none => some (members ++ [(key, .tables [[]])])
  | some (.tables elements) =>
      some (Entries.put key (.tables (elements ++ [[]])) members).2
  | _ => none

end Signpost.Toml
