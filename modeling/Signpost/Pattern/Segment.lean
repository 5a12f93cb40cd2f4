namespace Signpost

/-- A pattern divides into literal text and placeholders: a colon before a name marks a
placeholder. -/
inductive Segment
  | literal (text : List Char)
  | param (name : List Char)
deriving DecidableEq, Repr

namespace Segment

def isNameChar (c : Char) : Bool := c.isAlphanum || c = '_'

def name? : Segment → Option String
  | .literal _ => none
  | .param name => some (String.ofList name)

def render : Segment → List Char
  | .literal text => text
  | .param name => ':' :: name

end Segment

def consLiteral (c : Char) : List Segment → List Segment
  | .literal text :: rest => .literal (c :: text) :: rest
  | segments => .literal [c] :: segments

def afterName (text : List Char) (rest : List Segment) : List Segment :=
  if text.isEmpty then rest else .literal text :: rest

def consParam : List Segment → List Segment
  | .literal text :: rest =>
      .param (text.takeWhile Segment.isNameChar) ::
        afterName (text.dropWhile Segment.isNameChar) rest
  | segments => segments

def startsName : List Char → Bool
  | [] => false
  | c :: _ => Segment.isNameChar c

def segmentsOf : List Char → List Segment
  | [] => []
  | c :: rest =>
      if c = ':' && startsName rest then consParam (segmentsOf rest)
      else consLiteral c (segmentsOf rest)

def paramNames (pattern : String) : List String :=
  (segmentsOf pattern.toList).filterMap Segment.name?

end Signpost
