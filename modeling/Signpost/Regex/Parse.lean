import Signpost.Regex.Class
import Signpost.Regex.Count
import Signpost.Regex.Group

namespace Signpost.Regex

/-- The most groups that may be open at once, and the greatest height of an expression. -/
def nestLimit : Nat := 50

/-- An open group, with what came before it at its level.  Parts and branches are kept last
first. -/
structure OpenGroup where
  capture : Option (Nat × Option String)
  outerFlags : Flags
  outerParts : List Regex
  outerBranches : List Regex

structure Reading where
  flags : Flags
  groups : Nat
  names : List String
  opened : List OpenGroup
  parts : List Regex
  branches : List Regex

namespace Reading

def initial : Reading := ⟨{}, 0, [], [], [], []⟩

def push (reading : Reading) (part : Regex) : Reading :=
  { reading with parts := part :: reading.parts }

/-- The expression read so far at the innermost level. -/
def current (reading : Reading) : Regex :=
  alternateOf ((concatOf reading.parts.reverse :: reading.branches).reverse)

def branch (reading : Reading) : Reading :=
  { reading with
    parts := []
    branches := concatOf reading.parts.reverse :: reading.branches }

def enter (reading : Reading) (capture : Option (Nat × Option String)) (flags : Flags) :
    Except RegexError Reading :=
  if nestLimit ≤ reading.opened.length then .error .tooMuchNesting
  else .ok
    { reading with
      flags := flags
      opened := ⟨capture, reading.flags, reading.parts, reading.branches⟩ :: reading.opened
      parts := []
      branches := [] }

def openGroup (reading : Reading) (rest : List Char) :
    Except RegexError (Reading × List Char) := do
  let (opening, after) ← openingOf reading.flags reading.names rest
  match opening with
  | .directive flags => pure ({ reading with flags := flags }, after)
  | .plain flags => do
      let entered ← reading.enter none flags
      pure (entered, after)
  | .capture name => do
      let counted : Reading :=
        { reading with
          groups := reading.groups + 1, names := name.toList ++ reading.names }
      let entered ← counted.enter (some (counted.groups, name)) reading.flags
      pure (entered, after)

def closeGroup (reading : Reading) : Except RegexError Reading :=
  match reading.opened with
  | [] => .error .groupUnopened
  | innermost :: outer =>
      let body := reading.current
      let part :=
        match innermost.capture with
        | some (index, name) => .group index name body
        | none => body
      .ok
        { reading with
          flags := innermost.outerFlags
          opened := outer
          parts := part :: innermost.outerParts
          branches := innermost.outerBranches }

def repeatLast (reading : Reading) (count : Count) : Reading :=
  match reading.parts with
  | [] => reading
  | part :: parts => { reading with parts := iterateOf count part :: parts }

def step (reading : Reading) (c : Char) (rest : List Char) :
    Except RegexError (Reading × List Char) :=
  if c = '(' then reading.openGroup rest
  else if c = ')' then do
    let closed ← reading.closeGroup
    pure (closed, rest)
  else if c = '|' then .ok (reading.branch, rest)
  else if c = '[' then do
    let (part, after) ← classOf reading.flags rest
    pure (reading.push part, after)
  else if c = '?' ∨ c = '*' ∨ c = '+' then
    if reading.parts.isEmpty then .error .repeatNothing
    else
      let (count, after) := uncountedOf reading.flags c rest
      .ok (reading.repeatLast count, after)
  else if c = '\x7b' then
    if reading.parts.isEmpty then .error .countNothing
    else do
      let (count, after) ← countOf reading.flags rest
      pure (reading.repeatLast count, after)
  else if c = '\\' then do
    let (part, after) ← escapeOf reading.flags rest
    pure (reading.push part, after)
  else if c = '.' then .ok (reading.push (dotOf reading.flags), rest)
  else if c = '^' then .ok (reading.push (startOf reading.flags), rest)
  else if c = '$' then .ok (reading.push (finishOf reading.flags), rest)
  else .ok (reading.push (charOf reading.flags c), rest)

/-- Reads on until the text is used up.  A step takes at least one character, so the length
of the text is enough of a bound. -/
def run : Nat → Reading → List Char → Except RegexError Reading
  | 0, reading, _ => .ok reading
  | bound + 1, reading, text =>
      match skipBlank reading.flags.verbose text with
      | [] => .ok reading
      | c :: rest => do
          let (next, after) ← reading.step c rest
          run bound next after

def finish (reading : Reading) : Except RegexError Regex :=
  if reading.opened.isEmpty then
    if nestLimit < reading.current.height then .error .tooMuchNesting
    else .ok reading.current
  else .error .groupUnclosed

end Reading

def parse (text : List Char) : Except RegexError Regex := do
  let reading ← Reading.initial.run text.length text
  reading.finish

end Signpost.Regex
