import Signpost.Regex.Escape

namespace Signpost.Regex

open Signpost.Text

def digitsFrom (verbose : Bool) : List Char → List Char × List Char
  | [] => ([], [])
  | c :: rest =>
      if c.isDigit then
        let (digits, after) := digitsFrom verbose (skipBlank verbose rest)
        (c :: digits, after)
      else ([], c :: rest)
termination_by text => text.length
decreasing_by
  have := length_skipBlank_le verbose rest
  simp only [List.length_cons]
  omega

/-- White space after a number is skipped in every mode, comments only in verbose mode. -/
def skipAfterNumber (verbose : Bool) : List Char → List Char
  | [] => []
  | c :: rest =>
      if isWhitespace c then skipAfterNumber verbose (skipBlank verbose rest)
      else c :: rest
termination_by text => text.length
decreasing_by
  have := length_skipBlank_le verbose rest
  simp only [List.length_cons]
  omega

def decimalValue (digits : List Char) : Nat :=
  digits.foldl (fun value digit => value * 10 + (digit.toNat - 48)) 0

def decimal (verbose : Bool) (text : List Char) : Except RegexError (Nat × List Char) :=
  let (digits, rest) := digitsFrom verbose (text.dropWhile isWhitespace)
  if digits.isEmpty then .error .decimalEmpty
  else if decimalValue digits < Nat.pow 2 32 then
    .ok (decimalValue digits, skipAfterNumber verbose rest)
  else .error .decimalInvalid

def mostOf (verbose : Bool) (text : List Char) :
    Except RegexError (Option Nat × List Char) :=
  match skipBlank verbose text with
  | [] => .error .countUnclosedAfterComma
  | '\x7d' :: rest => .ok (none, '\x7d' :: rest)
  | next => do
      let (most, rest) ← decimal verbose next
      if rest.isEmpty then .error .countUnclosedAfterMost
      else pure (some most, rest)

def boundsOf (verbose : Bool) (text : List Char) :
    Except RegexError (Nat × Option Nat × List Char) := do
  let (least, rest) ← decimal verbose text
  match rest with
  | [] => .error .countUnclosedAfterLeast
  | ',' :: after => do
      let (most, final) ← mostOf verbose after
      pure (least, most, final)
  | _ => pure (least, some least, rest)

def lazyMark : List Char → Bool × List Char
  | '?' :: rest => (true, rest)
  | rest => (false, rest)

def countOf (flags : Flags) (text : List Char) :
    Except RegexError (Count × List Char) :=
  match skipBlank flags.verbose text with
  | [] => .error .countUnclosed
  | next => do
      let (least, most, rest) ← boundsOf flags.verbose next
      match rest with
      | '\x7d' :: after =>
          let (marked, final) := lazyMark (skipBlank flags.verbose after)
          if most.any (· < least) then .error .countReversed
          else pure (⟨least, most, marked = flags.swapGreed⟩, final)
      | _ => .error .countUnfinished

def uncountedOf (flags : Flags) (operator : Char) (rest : List Char) : Count × List Char :=
  let (marked, final) := lazyMark rest
  let greedy := marked = flags.swapGreed
  if operator = '?' then (⟨0, some 1, greedy⟩, final)
  else if operator = '*' then (⟨0, none, greedy⟩, final)
  else (⟨1, none, greedy⟩, final)

end Signpost.Regex
