import Signpost.Number.Binary64

namespace Signpost

/-- The value `0.d₁d₂…` times a power of ten, for digits of which the last is not zero. -/
structure Decimal where
  digits : List Char
  point : Int
deriving DecidableEq, Repr

namespace Decimal

inductive Tie
  | up
  | even
deriving DecidableEq, Repr

def dropZeros (digits : List Char) : List Char :=
  (digits.reverse.dropWhile (· = '0')).reverse

def ofScaled (n : Nat) (power : Int) : Decimal :=
  let digits := Nat.toDigits 10 n
  ⟨dropZeros digits, power + digits.length⟩

/-- The reals that round to a number: those less than half a unit away, and those exactly
so far away if its mantissa is even.  Below a power of two the unit is half as large.  All
quantities are given in quarters of a unit. -/
structure Interval where
  low : Nat
  middle : Nat
  high : Nat
  closed : Bool
  unit : Int

def Interval.around (mantissa : Nat) (exponent : Int) : Interval :=
  let below := if mantissa = Nat.pow 2 52 ∧ Binary64.leastExponent < exponent then 1 else 2
  ⟨4 * mantissa - below, 4 * mantissa, 4 * mantissa + 2, mantissa % 2 = 0, exponent - 2⟩

/-- Compares `n` times ten to `power` with `quarters` of the interval, as two numbers. -/
def Interval.scale (interval : Interval) (power : Int) (n quarters : Nat) : Nat × Nat :=
  let left := if 0 ≤ power then n * Nat.pow 10 power.toNat else n
  let right := if 0 ≤ power then quarters else quarters * Nat.pow 10 (-power).toNat
  if 0 ≤ interval.unit then (left, right * Nat.pow 2 interval.unit.toNat)
  else (left * Nat.pow 2 (-interval.unit).toNat, right)

def Interval.contains (interval : Interval) (power : Int) (n : Nat) : Bool :=
  let (value, low) := interval.scale power n interval.low
  let (_, high) := interval.scale power n interval.high
  if interval.closed then low ≤ value && value ≤ high else low < value && value < high

/-- The multiples of ten to `power` next to the middle that lie in the interval. -/
def Interval.hit? (interval : Interval) (tie : Tie) (power : Int) : Option Nat :=
  let (one, middle) := interval.scale power 1 interval.middle
  let below := middle / one
  let rest := middle % one
  match interval.contains power below, interval.contains power (below + 1) with
  | true, false => some below
  | false, true => some (below + 1)
  | false, false => none
  | true, true =>
      if 2 * rest < one then some below
      else if one < 2 * rest then some (below + 1)
      else if tie = .even ∧ below % 2 = 0 then some below
      else some (below + 1)

def Interval.power (interval : Interval) : Int :=
  let (num, den) := interval.scale 0 1 interval.middle
  if num ≤ den then ((Nat.toDigits 10 (den / num)).length : Int) - 1
  else -((Nat.toDigits 10 ((num - 1) / den)).length : Int)

def Interval.shortest (interval : Interval) (tie : Tie) : Nat → Int → Decimal
  | 0, power => ofScaled 0 power
  | more + 1, power =>
      match interval.hit? tie power with
      | some n => ofScaled n power
      | none => interval.shortest tie more (power - 1)

/-- The shortest decimal that reads back as the number, and of several such the one nearest
to it.  Seventeen digits are always enough. -/
def shortest (tie : Tie) (mantissa : Nat) (exponent : Int) : Decimal :=
  let interval := Interval.around mantissa exponent
  interval.shortest tie 18 interval.power

end Decimal

end Signpost
