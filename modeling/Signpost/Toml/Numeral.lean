import Signpost.Json.Numeral
import Signpost.Json.Text

namespace Signpost.Toml

open Json (valueOf)

def isSeparated : List Char → Bool
  | [] => false
  | ['_'] => false
  | '_' :: _ => false
  | [_] => true
  | _ :: '_' :: rest => isSeparated rest
  | _ :: rest => isSeparated rest

def readRun? (isDigit : Char → Bool) (text : List Char) : Option (List Char × List Char) :=
  let within (c : Char) := isDigit c || c = '_'
  let run := text.takeWhile within
  if isSeparated run then some (run.filter (· ≠ '_'), text.dropWhile within) else none

def whole? (negative : Bool) (n : Nat) : Option Number :=
  if negative then if n ≤ halfLimit then some (.integer (-(n : Int))) else none
  else if n < halfLimit then some (.integer n)
  else none

def isDigitOf (base : Nat) (c : Char) : Bool := (Json.hexValue? c).any (· < base)

def valueIn (base : Nat) (run : List Char) : Nat :=
  run.foldl (fun value c => value * base + (Json.hexValue? c).getD 0) 0

def readBased? (base : Nat) (text : List Char) : Option (Number × List Char) := do
  let (run, rest) ← readRun? (isDigitOf base) text
  let value ← whole? false (valueIn base run)
  pure (value, rest)

def readFraction? : List Char → Option (Option (List Char) × List Char)
  | '.' :: rest => (readRun? Char.isDigit rest).map fun (run, after) => (some run, after)
  | rest => some (none, rest)

def readExponent? : List Char → Option (Option Int × List Char)
  | [] => some (none, [])
  | c :: rest =>
      if c = 'e' ∨ c = 'E' then
        let (negative, rest) := Json.readSign rest
        (readRun? Char.isDigit rest).map fun (run, after) =>
          (some (if negative then -(valueOf run : Int) else valueOf run), after)
      else some (none, c :: rest)

/-- Nothing above the range of numbers. -/
def float? (negative : Bool) (whole fraction : List Char) (exponent : Int) :
    Option Number :=
  match Binary64.ofDecimal negative (valueOf (whole ++ fraction))
      (exponent - fraction.length) with
  | .infinite false => none
  | value => some (.float value)

def readDecimal? (negative : Bool) (text : List Char) : Option (Number × List Char) := do
  let (whole, rest) ← readRun? Char.isDigit text
  if Json.hasLeadingZero whole then none
  else
    let (fraction, rest) ← readFraction? rest
    let (exponent, rest) ← readExponent? rest
    let value ←
      if fraction.isNone ∧ exponent.isNone then whole? negative (valueOf whole)
      else float? negative whole (fraction.getD []) (exponent.getD 0)
    pure (value, rest)

def readUnsigned? (negative : Bool) : List Char → Option (Number × List Char)
  | 'i' :: 'n' :: 'f' :: rest => some (.float (.infinite negative), rest)
  | 'n' :: 'a' :: 'n' :: rest => some (.float .nan, rest)
  | text => readDecimal? negative text

def readNumber? : List Char → Option (Number × List Char)
  | '0' :: 'x' :: rest => readBased? 16 rest
  | '0' :: 'o' :: rest => readBased? 8 rest
  | '0' :: 'b' :: rest => readBased? 2 rest
  | '-' :: rest => readUnsigned? true rest
  | '+' :: rest => readUnsigned? false rest
  | text => readUnsigned? false text

end Signpost.Toml
