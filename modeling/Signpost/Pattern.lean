import Signpost.Params
import Signpost.Pattern.Segment
import Signpost.Regex.Compile
import Signpost.RoutingError

namespace Signpost

/-- A placeholder matches what its constraint matches, by default any text without a slash.
A pattern without a dot is a folder pattern: slashes at its end do not count, and a path
that it matches may end in one slash more. -/
structure Pattern where
  source : String
  expression : String
  regex : Regex

namespace Pattern

def defaultConstraint : String := "[^/]+"

def isFolderText (source : List Char) : Bool := !source.contains '.'

/-- The part of a pattern that its expression is made from. -/
def bodyOf (source : List Char) : List Char :=
  if isFolderText source then (source.reverse.dropWhile (· = '/')).reverse else source

def startsWithDigit (name : String) : Bool :=
  name.toList.head?.any Char.isDigit

def checkNames (seen : List String) : List String → Except PatternProblem Unit
  | [] => .ok ()
  | name :: rest =>
      if startsWithDigit name then .error (.nameStartsWithDigit name)
      else if name ∈ seen then .error (.nameTwice name)
      else checkNames (name :: seen) rest

def constraintOf (constraints : Params) (name : List Char) : List Char :=
  ((constraints.get? (String.ofList name)).getD defaultConstraint).toList

def checkConstraint (constraints : Params) (name : List Char) :
    Except PatternProblem Unit :=
  match Regex.compile (constraintOf constraints name) with
  | .ok _ => .ok ()
  | .error cause => .error (.constraint (String.ofList name) cause)

def checkConstraints (constraints : Params) : List Segment → Except PatternProblem Unit
  | [] => .ok ()
  | .literal _ :: rest => checkConstraints constraints rest
  | .param name :: rest => do
      checkConstraint constraints name
      checkConstraints constraints rest

def groupOf (constraints : Params) (name : List Char) : List Char :=
  '(' :: '?' :: 'P' :: '<' :: (name ++ '>' :: (constraintOf constraints name ++ [')']))

def segmentExpression (constraints : Params) : Segment → List Char
  | .literal text => Regex.escape text
  | .param name => groupOf constraints name

def expressionOf (source : List Char) (constraints : Params) : List Char :=
  '^' :: ((segmentsOf (bodyOf source)).flatMap (segmentExpression constraints) ++
    (if isFolderText source then ['/', '?', '$'] else ['$']))

/-- The names of placeholders are checked first, from left to right.  Then every constraint
has to be an expression by itself. -/
def assemble (source : List Char) (constraints : Params) :
    Except PatternProblem (List Char × Regex) := do
  checkNames [] ((segmentsOf source).filterMap Segment.name?)
  checkConstraints constraints (segmentsOf (bodyOf source))
  let expression := expressionOf source constraints
  match Regex.compile expression with
  | .ok regex => pure (expression, regex)
  | .error cause => .error (.expression cause)

def compile (source : String) (constraints : Params) : Except RoutingError Pattern :=
  match assemble source.toList constraints with
  | .ok (expression, regex) => .ok ⟨source, String.ofList expression, regex⟩
  | .error problem => .error (.invalidPattern source problem)

def isFolder (pattern : Pattern) : Bool := isFolderText pattern.source.toList

def segments (pattern : Pattern) : List Segment := segmentsOf pattern.source.toList

def names (pattern : Pattern) : List String := paramNames pattern.source

def isMatch (pattern : Pattern) (path : String) : Bool :=
  (pattern.regex.find? path).isSome

def captured? (pattern : Pattern) (found : Match) (name : String) : Option String := do
  let index ← pattern.regex.groupNames.lookup name
  found.group? index

def valuesOf (pattern : Pattern) (found : Match) : Params :=
  OrderedMap.ofList <| pattern.names.filterMap fun name =>
    (pattern.captured? found name).map fun value => (name, value)

def captures? (pattern : Pattern) (path : String) : Option Params :=
  (pattern.regex.find? path).map pattern.valuesOf

/-- Patterns count as equal when they have the same text and the same expression. -/
instance : BEq Pattern where
  beq first second := first.source = second.source && first.expression = second.expression

end Pattern

end Signpost
