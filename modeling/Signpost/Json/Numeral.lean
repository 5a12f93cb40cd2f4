import Signpost.Node

namespace Signpost.Json

structure Numeral where
  negative : Bool
  whole : List Char
  fraction : Option (List Char)
  exponent : Option (Bool × List Char)
deriving DecidableEq, Repr

def digits (text : List Char) : List Char × List Char :=
  (text.takeWhile Char.isDigit, text.dropWhile Char.isDigit)

def digits? (text : List Char) : Option (List Char × List Char) :=
  let (run, rest) := digits text
  if run.isEmpty then none else some (run, rest)

def readFraction? : List Char → Option (Option (List Char) × List Char)
  | '.' :: rest => (digits? rest).map fun (run, after) => (some run, after)
  | rest => some (none, rest)

def readSign : List Char → Bool × List Char
  | '-' :: rest => (true, rest)
  | '+' :: rest => (false, rest)
  | rest => (false, rest)

def readExponent? : List Char → Option (Option (Bool × List Char) × List Char)
  | [] => some (none, [])
  | c :: rest =>
      if c = 'e' ∨ c = 'E' then
        let (negative, rest) := readSign rest
        (digits? rest).map fun (run, after) => (some (negative, run), after)
      else some (none, c :: rest)

/-- A zero is not followed by another digit. -/
def hasLeadingZero : List Char → Bool
  | '0' :: _ :: _ => true
  | _ => false

def readNumeral? (negative : Bool) (text : List Char) : Option (Numeral × List Char) := do
  let (whole, rest) ← digits? text
  if hasLeadingZero whole then none
  else
    let (fraction, rest) ← readFraction? rest
    let (exponent, rest) ← readExponent? rest
    pure (⟨negative, whole, fraction, exponent⟩, rest)

def digitValue (c : Char) : Nat := c.toNat - 48

def valueOf (run : List Char) : Nat :=
  run.foldl (fun value c => value * 10 + digitValue c) 0

/-- Takes digits into a significand for as long as it fits into 64 bits; the others are
left. -/
def gather : Nat → List Char → Nat × List Char
  | significand, [] => (significand, [])
  | significand, c :: rest =>
      let next := significand * 10 + digitValue c
      if next < wordLimit then gather next rest else (significand, c :: rest)

def greatestPower : Int := 308

def powerOfTen (power : Nat) : Binary64 := Binary64.ofNat (Nat.pow 10 power)

/-- The significand times a power of ten, or nothing beyond the range of numbers. -/
def scaled? (significand : Nat) (power : Int) : Option Binary64 :=
  let value := Binary64.ofNat significand
  if 0 ≤ power then
    if power ≤ greatestPower then
      let product := value.times (powerOfTen power.toNat)
      if product.isInfinite then none else some product
    else if significand = 0 then some value
    else none
  else if -greatestPower ≤ power then some (value.dividedBy (powerOfTen (-power).toNat))
  else if -(2 * greatestPower) ≤ power then
    some ((value.dividedBy (powerOfTen 308)).dividedBy
      (powerOfTen (-power - greatestPower).toNat))
  else some (Binary64.ofNat 0)

/-- Exponents beyond this are not added to others. -/
def exponentLimit : Nat := Nat.pow 2 31

def exponentOf : Option (Bool × List Char) → Int
  | none => 0
  | some (negative, run) => if negative then -(valueOf run : Int) else valueOf run

def magnitude? (significand : Nat) (power : Int) (exponent : Option (Bool × List Char)) :
    Option Binary64 :=
  let written := exponentOf exponent
  if exponentLimit ≤ written.natAbs then
    if significand ≠ 0 ∧ 0 < written then none else some (Binary64.ofNat 0)
  else scaled? significand (power + written)

def signed (negative : Bool) (value : Binary64) : Binary64 :=
  if negative then value.negate else value

def Numeral.float? (numeral : Numeral) : Option Number :=
  let (significand, left) := gather 0 numeral.whole
  let fraction := numeral.fraction.getD []
  let (significand, unused) := gather significand fraction
  let power : Int := left.length - (fraction.length - unused.length : Nat)
  (magnitude? significand power numeral.exponent).map fun value =>
    .float (signed numeral.negative value)

/-- Whole numbers of 64 bits are exact, those below zero with a sign bit.  All others are
floating point, made from at most 64 bits of leading digits and a power of ten, with a
rounding at each step. -/
def Numeral.value? (numeral : Numeral) : Option Number :=
  let n := valueOf numeral.whole
  if numeral.fraction.isNone ∧ numeral.exponent.isNone ∧ n < wordLimit then
    if numeral.negative then
      if 0 < n ∧ n ≤ halfLimit then some (.integer (-(n : Int)))
      else some (.float (Binary64.ofNat n).negate)
    else some (.integer n)
  else numeral.float?

end Signpost.Json
