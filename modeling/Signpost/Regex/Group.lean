import Signpost.Regex.Escape
import Signpost.Text.Letter

namespace Signpost.Regex

open Signpost.Text

def isNameChar (first : Bool) (c : Char) : Bool :=
  if first then c = '_' || isAlphabetic c
  else c = '_' || c = '.' || c = '[' || c = ']' || isAlphanumeric c

def nameFrom (first : Bool) : List Char → Except RegexError (List Char × List Char)
  | [] => .error .groupNameUnclosed
  | c :: rest =>
      if c = '>' then .ok ([], rest)
      else if isNameChar first c then do
        let (name, after) ← nameFrom false rest
        pure (c :: name, after)
      else .error .groupNameInvalid

def groupName (taken : List String) (text : List Char) :
    Except RegexError (String × List Char) :=
  if text.isEmpty then .error .groupNameAtEnd
  else do
    let (name, rest) ← nameFrom true text
    if name.isEmpty then .error .groupNameEmpty
    else if String.ofList name ∈ taken then .error .groupNameTwice
    else pure (String.ofList name, rest)

def setFlag? (flags : Flags) (c : Char) (value : Bool) : Option Flags :=
  if c = 'i' then some { flags with caseInsensitive := value }
  else if c = 'm' then some { flags with multiLine := value }
  else if c = 's' then some { flags with dotAll := value }
  else if c = 'U' then some { flags with swapGreed := value }
  else if c = 'R' then some { flags with crlf := value }
  else if c = 'x' then some { flags with verbose := value }
  else if c = 'u' then some flags
  else none

structure FlagReading where
  flags : Flags
  negated : Bool
  afterDash : Bool
  seen : List Char

/-- Reads flags up to the colon or parenthesis that ends them, which stays in the text. -/
def flagsFrom (reading : FlagReading) : List Char → Except RegexError (Flags × List Char)
  | [] => .error .flagsAtEnd
  | c :: rest =>
      if c = ':' ∨ c = ')' then
        if reading.afterDash then .error .flagNegationLast
        else .ok (reading.flags, c :: rest)
      else if c = '-' then
        if reading.negated then .error .flagNegationTwice
        else flagsFrom { reading with negated := true, afterDash := true } rest
      else
        match setFlag? reading.flags c (!reading.negated) with
        | none => .error .flagUnrecognized
        | some flags =>
            if c ∈ reading.seen then .error .flagTwice
            else flagsFrom
              { flags := flags, negated := reading.negated, afterDash := false,
                seen := c :: reading.seen } rest

inductive Opening
  | capture (name : Option String)
  | plain (flags : Flags)
  | directive (flags : Flags)

def flagsOpening (flags : Flags) (text : List Char) :
    Except RegexError (Opening × List Char) := do
  let (updated, rest) ← flagsFrom ⟨flags, false, false, []⟩ text
  match rest with
  | ')' :: after =>
      if text.head? = some ')' then .error .flagsEmpty
      else pure (.directive updated, after)
  | _ => pure (.plain updated, rest.drop 1)

/-- Reads what follows an opening parenthesis, up to the body of the group.  A directive
has no body and ends with its own parenthesis. -/
def openingOf (flags : Flags) (taken : List String) (text : List Char) :
    Except RegexError (Opening × List Char) :=
  match skipBlank flags.verbose text with
  | '?' :: '=' :: _ => .error .lookAround
  | '?' :: '!' :: _ => .error .lookAround
  | '?' :: '<' :: '=' :: _ => .error .lookAround
  | '?' :: '<' :: '!' :: _ => .error .lookAround
  | '?' :: 'P' :: '<' :: rest => do
      let (name, after) ← groupName taken rest
      pure (.capture (some name), after)
  | '?' :: '<' :: rest => do
      let (name, after) ← groupName taken rest
      pure (.capture (some name), after)
  | '?' :: rest =>
      if rest.isEmpty then .error .questionAtEnd else flagsOpening flags rest
  | rest => .ok (.capture none, rest)

end Signpost.Regex
