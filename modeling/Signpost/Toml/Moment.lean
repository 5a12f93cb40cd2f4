import Signpost.Json.Numeral

namespace Signpost.Toml

open Json (valueOf)

def readField? (count least greatest : Nat) (text : List Char) :
    Option (List Char × List Char) :=
  let digits := text.take count
  let value := valueOf digits
  if digits.length = count ∧ digits.all Char.isDigit ∧
      least ≤ value ∧ value ≤ greatest then
    some (digits, text.drop count)
  else none

def expect? (c : Char) : List Char → Option (List Char)
  | d :: rest => if c = d then some rest else none
  | [] => none

def isLeap (year : Nat) : Bool := year % 4 = 0 && (year % 100 ≠ 0 || year % 400 = 0)

def daysIn (year month : Nat) : Nat :=
  if month = 2 then if isLeap year then 29 else 28
  else if month = 4 ∨ month = 6 ∨ month = 9 ∨ month = 11 then 30
  else 31

def readDate? (text : List Char) : Option (List Char × List Char) := do
  let (year, rest) ← readField? 4 0 9999 text
  let rest ← expect? '-' rest
  let (month, rest) ← readField? 2 1 12 rest
  let rest ← expect? '-' rest
  let (day, rest) ← readField? 2 1 (daysIn (valueOf year) (valueOf month)) rest
  pure (year ++ '-' :: month ++ '-' :: day, rest)

def dropZeros (digits : List Char) : List Char :=
  (digits.reverse.dropWhile (· = '0')).reverse

/-- Digits beyond the ninth are cut off. -/
def fractionOf (digits : List Char) : List Char :=
  let kept := dropZeros (digits.take 9)
  if kept.isEmpty then [] else '.' :: kept

def readSecondFraction? : List Char → Option (List Char × List Char)
  | '.' :: rest => (Json.digits? rest).map fun (digits, after) =>
      (fractionOf digits, after)
  | rest => some ([], rest)

def readTime? (text : List Char) : Option (List Char × List Char) := do
  let (hour, rest) ← readField? 2 0 23 text
  let rest ← expect? ':' rest
  let (minute, rest) ← readField? 2 0 59 rest
  let rest ← expect? ':' rest
  let (second, rest) ← readField? 2 0 60 rest
  let (fraction, rest) ← readSecondFraction? rest
  pure (hour ++ ':' :: minute ++ ':' :: second ++ fraction, rest)

/-- An offset of nothing has a plus sign. -/
def offsetSign (sign : Char) (hour minute : List Char) : Char :=
  if sign = '-' ∧ (hour ++ minute).all (· = '0') then '+' else sign

def readOffset? : List Char → Option (List Char × List Char)
  | [] => some ([], [])
  | c :: rest =>
      if c = 'Z' ∨ c = 'z' then some (['Z'], rest)
      else if c = '+' ∨ c = '-' then do
        let (hour, rest) ← readField? 2 0 23 rest
        let rest ← expect? ':' rest
        let (minute, rest) ← readField? 2 0 59 rest
        pure (offsetSign c hour minute :: hour ++ ':' :: minute, rest)
      else some ([], c :: rest)

def readDelimiter? : List Char → Option (List Char)
  | c :: rest => if c = 'T' ∨ c = 't' ∨ c = ' ' then some rest else none
  | [] => none

def readTimeOfDate? (text : List Char) : Option (List Char × List Char) := do
  let rest ← readDelimiter? text
  let (time, rest) ← readTime? rest
  let (offset, rest) ← readOffset? rest
  pure ('T' :: time ++ offset, rest)

/-- A date, a time, or both, brought into one form: a `T` between date and time, no zeros
at the end of a fraction of at most nine digits, and an offset as `Z` or with a sign. -/
def readMoment? (text : List Char) : Option (String × List Char) :=
  match readDate? text with
  | some (date, rest) =>
      match readTimeOfDate? rest with
      | some (time, after) => some (String.ofList (date ++ time), after)
      | none => some (String.ofList date, rest)
  | none => (readTime? text).map fun (time, rest) => (String.ofList time, rest)

end Signpost.Toml
