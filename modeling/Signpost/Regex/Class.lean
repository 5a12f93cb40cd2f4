import Signpost.Regex.Escape

namespace Signpost.Regex

def splitAtColon : List Char → List Char × List Char
  | [] => ([], [])
  | c :: rest =>
      if c = ':' then ([], c :: rest)
      else
        let (name, after) := splitAtColon rest
        (c :: name, after)

def namedClass? (text : List Char) : Option (CharSet × List Char) :=
  match text with
  | '[' :: ':' :: body =>
      let (negated, body) :=
        match body with
        | '^' :: rest => (true, rest)
        | _ => (false, body)
      match splitAtColon body with
      | (name, ':' :: ']' :: rest) =>
          (CharSet.named? (String.ofList name)).map fun ranges =>
            (if negated then ranges.negate else ranges, rest)
      | _ => none
  | _ => none

def classItem (flags : Flags) : List Char → Except RegexError (Regex × List Char)
  | [] => .error .classUnclosed
  | c :: rest => if c = '\\' then escapeOf flags rest else .ok (.char c, rest)

def itemRanges : Regex → Except RegexError CharSet
  | .char c => .ok [CharRange.single c]
  | .set ranges => .ok ranges
  | _ => .error .classEscape

def itemChar : Regex → Except RegexError Char
  | .char c => .ok c
  | _ => .error .classRangeEnds

def rangeOf (first last : Regex) : Except RegexError CharSet := do
  let low ← itemChar first
  let high ← itemChar last
  if high.toNat < low.toNat then .error .classRangeReversed
  else .ok [⟨low, high⟩]

def startsRange (verbose : Bool) (rest : List Char) : Bool :=
  let next := peekBlank verbose rest
  !(next = some ']' || next = some '-')

def classRange (flags : Flags) (text : List Char) :
    Except RegexError (CharSet × List Char) := do
  let (first, rest) ← classItem flags text
  match skipBlank flags.verbose rest with
  | [] => .error .classUnclosedAfterItem
  | c :: after =>
      if c = '-' && startsRange flags.verbose after then
        match skipBlank flags.verbose after with
        | [] => .error .classUnclosedAfterDash
        | next => do
            let (last, final) ← classItem flags next
            let ranges ← rangeOf first last
            pure (ranges, final)
      else do
        let ranges ← itemRanges first
        pure (ranges, c :: after)

def setOperation? : List Char → Option RegexError
  | '&' :: '&' :: _ => some .classIntersection
  | '-' :: '-' :: _ => some .classDifference
  | '~' :: '~' :: _ => some .classSymmetricDifference
  | _ => none

def closeClass (flags : Flags) (negated : Bool) (ranges : CharSet) : Regex :=
  let set := CharSet.normalize ranges
  let set := if flags.caseInsensitive then CharSet.foldCase set else set
  .set (if negated then CharSet.negate set else set)

/-- Reads items up to the closing bracket.  Each item takes at least one character, so the
length of the text bounds their number. -/
def classItems (flags : Flags) (negated : Bool) :
    Nat → CharSet → List Char → Except RegexError (Regex × List Char)
  | 0, _, _ => .error .classUnclosed
  | bound + 1, ranges, text =>
      match skipBlank flags.verbose text with
      | [] => .error .classUnclosed
      | c :: rest =>
          if c = '[' then
            match namedClass? (c :: rest) with
            | some (named, after) =>
                classItems flags negated bound (ranges ++ named) after
            | none => .error .classNested
          else if c = ']' then .ok (closeClass flags negated ranges, rest)
          else
            match setOperation? (c :: rest) with
            | some refusal => .error refusal
            | none => do
                let (more, after) ← classRange flags (c :: rest)
                classItems flags negated bound (ranges ++ more) after

/-- Dashes at the front of a class stand for themselves, and so does a bracket that comes
first of all. -/
def leadingDashes (verbose : Bool) : Nat → CharSet → List Char →
    Except RegexError (CharSet × List Char)
  | 0, ranges, text => .ok (ranges, text)
  | bound + 1, ranges, text =>
      match text with
      | '-' :: rest =>
          match skipBlank verbose rest with
          | [] => .error .classUnclosedAfterDash
          | next => leadingDashes verbose bound (ranges ++ [CharRange.single '-']) next
      | _ => .ok (ranges, text)

def leadingBracket (verbose : Bool) (ranges : CharSet) (text : List Char) :
    Except RegexError (CharSet × List Char) :=
  match ranges, text with
  | [], ']' :: rest =>
      match skipBlank verbose rest with
      | [] => .error .classUnclosedAfterBracket
      | next => .ok ([CharRange.single ']'], next)
  | _, _ => .ok (ranges, text)

def classBody (flags : Flags) (negated : Bool) (text : List Char) :
    Except RegexError (Regex × List Char) := do
  let (dashes, rest) ← leadingDashes flags.verbose text.length [] text
  let (ranges, rest) ← leadingBracket flags.verbose dashes rest
  classItems flags negated (rest.length + 1) ranges rest

def classOf (flags : Flags) (text : List Char) : Except RegexError (Regex × List Char) :=
  match skipBlank flags.verbose text with
  | [] => .error .classUnclosed
  | '^' :: rest =>
      match skipBlank flags.verbose rest with
      | [] => .error .classUnclosedAfterNegation
      | next => classBody flags true next
  | next => classBody flags false next

end Signpost.Regex
