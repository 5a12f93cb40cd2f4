import Signpost.Regex.Basic
import Signpost.Regex.Error
import Signpost.Regex.Verbose

namespace Signpost.Regex

structure Flags where
  caseInsensitive : Bool := false
  multiLine : Bool := false
  dotAll : Bool := false
  swapGreed : Bool := false
  crlf : Bool := false
  verbose : Bool := false
deriving DecidableEq, Repr

def metaChars : List Char :=
  ['\\', '.', '+', '*', '?', '(', ')', '|', '[', ']', '\x7b', '\x7d', '^', '$', '#', '&',
    '-', '~']

def isMeta (c : Char) : Bool := metaChars.contains c

/-- A backslash makes any ASCII punctuation, space or control character stand for itself,
except for the two that mark the start and the end of a word. -/
def isEscapable (c : Char) : Bool :=
  isMeta c || (c.toNat < 128 && !c.isAlphanum && c ≠ '<' && c ≠ '>')

/-- The text that matches exactly the given characters. -/
def escape (text : List Char) : List Char :=
  text.flatMap fun c => if isMeta c then ['\\', c] else [c]

def charOf (flags : Flags) (c : Char) : Regex :=
  if flags.caseInsensitive then
    match (CharRange.single c).otherCase? with
    | some folded => .set (CharSet.normalize [CharRange.single c, folded])
    | none => .char c
  else .char c

def dotOf (flags : Flags) : Regex :=
  if flags.dotAll then .set CharSet.any
  else if flags.crlf then .set CharSet.notLineBreak
  else .set CharSet.notNewline

def startOf (flags : Flags) : Regex :=
  if flags.multiLine then
    if flags.crlf then .look .startLineCrlf else .look .startLine
  else .look .start

def finishOf (flags : Flags) : Regex :=
  if flags.multiLine then
    if flags.crlf then .look .endLineCrlf else .look .endLine
  else .look .finish

def hexDigit? (c : Char) : Option Nat :=
  if '0' ≤ c ∧ c ≤ '9' then some (c.toNat - 48)
  else if 'a' ≤ c ∧ c ≤ 'f' then some (c.toNat - 87)
  else if 'A' ≤ c ∧ c ≤ 'F' then some (c.toNat - 55)
  else none

def scalar? (code : Nat) : Option Char :=
  if code < 0xd800 ∨ (0xdfff < code ∧ code < 0x110000) then some (Char.ofNat code)
  else none

def hexDigits (flags : Flags) :
    Nat → Nat → List Char → Except RegexError (Regex × List Char)
  | _, _, [] => .error .hexFixedAtEnd
  | more, code, c :: rest =>
      match hexDigit? c, more with
      | none, _ => .error .hexFixedDigit
      | some digit, 0 =>
          match scalar? (code * 16 + digit) with
          | none => .error .hexFixedInvalid
          | some decoded => .ok (charOf flags decoded, skipBlank flags.verbose rest)
      | some digit, more + 1 =>
          hexDigits flags more (code * 16 + digit) (skipBlank flags.verbose rest)

def hexBraces (flags : Flags) (empty : Bool) (code : Nat) :
    List Char → Except RegexError (Regex × List Char)
  | [] => .error .hexBraceAtEnd
  | c :: rest =>
      if c = '\x7d' then
        if empty then .error .hexBraceEmpty
        else
          match scalar? code with
          | none => .error .hexBraceInvalid
          | some decoded => .ok (charOf flags decoded, skipBlank flags.verbose rest)
      else
        match hexDigit? c with
        | none => .error .hexBraceDigit
        | some digit =>
            hexBraces flags false (code * 16 + digit) (skipBlank flags.verbose rest)
termination_by text => text.length
decreasing_by
  have := length_skipBlank_le flags.verbose rest
  simp only [List.length_cons]
  omega

def hexEscape (flags : Flags) (digits : Nat) (text : List Char) :
    Except RegexError (Regex × List Char) :=
  match skipBlank flags.verbose text with
  | [] => .error .hexAtEnd
  | c :: rest =>
      if c = '\x7b' then hexBraces flags true 0 (skipBlank flags.verbose rest)
      else hexDigits flags (digits - 1) 0 (c :: rest)

def isBoundaryChar (c : Char) : Bool := c.isAlpha || c = '-'

def boundaryName (verbose : Bool) : List Char → List Char × List Char
  | [] => ([], [])
  | c :: rest =>
      if isBoundaryChar c then
        let (name, after) := boundaryName verbose (skipBlank verbose rest)
        (c :: name, after)
      else ([], c :: rest)
termination_by text => text.length
decreasing_by
  have := length_skipBlank_le verbose rest
  simp only [List.length_cons]
  omega

def specialBoundary? (name : String) : Option Look :=
  if name = "start" then some .wordStart
  else if name = "end" then some .wordEnd
  else if name = "start-half" then some .wordStartHalf
  else if name = "end-half" then some .wordEndHalf
  else none

/-- A word boundary may be followed by the name of a special boundary in braces.  Braces
that do not open with a letter or a dash are left for a counted repetition. -/
def wordBoundary (verbose : Bool) (text : List Char) :
    Except RegexError (Regex × List Char) :=
  match text with
  | '\x7b' :: rest =>
      match skipBlank verbose rest with
      | [] => .error .specialWordOrRepeatAtEnd
      | c :: after =>
          if isBoundaryChar c then
            match boundaryName verbose (c :: after) with
            | (name, '\x7d' :: final) =>
                match specialBoundary? (String.ofList name) with
                | some boundary => .ok (.look boundary, final)
                | none => .error .specialWordUnrecognized
            | _ => .error .specialWordUnclosed
          else .ok (.look .word, text)
  | _ => .ok (.look .word, text)

def letterClass? (c : Char) : Option CharSet :=
  if c = 'd' then some CharSet.digit
  else if c = 's' then some CharSet.space
  else if c = 'w' then some CharSet.word
  else if c = 'D' then some CharSet.digit.negate
  else if c = 'S' then some CharSet.space.negate
  else if c = 'W' then some CharSet.word.negate
  else none

def hexLength? (c : Char) : Option Nat :=
  if c = 'x' then some 2
  else if c = 'u' then some 4
  else if c = 'U' then some 8
  else none

def letterChar? (c : Char) : Option Char :=
  if c = 'a' then some (Char.ofNat 7)
  else if c = 'f' then some (Char.ofNat 12)
  else if c = 't' then some '\t'
  else if c = 'n' then some '\n'
  else if c = 'r' then some '\r'
  else if c = 'v' then some (Char.ofNat 11)
  else none

def letterLook? (c : Char) : Option Look :=
  if c = 'A' then some .start
  else if c = 'z' then some .finish
  else if c = 'B' then some .notWord
  else if c = '<' then some .wordStart
  else if c = '>' then some .wordEnd
  else none

def escapeOf (flags : Flags) : List Char → Except RegexError (Regex × List Char)
  | [] => .error .escapeAtEnd
  | c :: rest =>
      if c.isDigit then .error .backreference
      else if c = 'p' ∨ c = 'P' then .error .unicodeClass
      else if isEscapable c then .ok (charOf flags c, rest)
      else if c = 'b' then wordBoundary flags.verbose rest
      else
        match hexLength? c, letterClass? c, letterChar? c, letterLook? c with
        | some digits, _, _, _ => hexEscape flags digits rest
        | _, some ranges, _, _ => .ok (.set ranges, rest)
        | _, _, some decoded, _ => .ok (charOf flags decoded, rest)
        | _, _, _, some boundary => .ok (.look boundary, rest)
        | _, _, _, _ => .error .escapeUnrecognized

end Signpost.Regex
