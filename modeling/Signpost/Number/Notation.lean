import Signpost.Number.Shortest

namespace Signpost

/-- How floating point numbers are written.  Positions are powers of ten: a number whose
first digit stands outside the bounds is written with an exponent. -/
structure Writing where
  least : Option Int
  greatest : Option Int
  keepPoint : Bool
  tie : Decimal.Tie

namespace Writing

def integer : Int → List Char
  | .ofNat n => Nat.toDigits 10 n
  | .negSucc n => '-' :: Nat.toDigits 10 (n + 1)

/-- As a text value: never with an exponent, and without a point if it is whole. -/
def plain : Writing := ⟨none, none, false, .up⟩

/-- As `plain`, but a whole number keeps its point. -/
def pointed : Writing := ⟨none, none, true, .up⟩

/-- With an exponent from `1e+16` on and below `0.00001`. -/
def scientific : Writing := ⟨some (-5), some 15, true, .even⟩

def positional (keepPoint : Bool) (decimal : Decimal) : List Char :=
  let count : Int := decimal.digits.length
  if decimal.point ≤ 0 then
    '0' :: '.' :: (List.replicate (-decimal.point).toNat '0' ++ decimal.digits)
  else if count ≤ decimal.point then
    decimal.digits ++ List.replicate (decimal.point - count).toNat '0' ++
      (if keepPoint then ['.', '0'] else [])
  else
    decimal.digits.take decimal.point.toNat ++
      '.' :: decimal.digits.drop decimal.point.toNat

def exponential (decimal : Decimal) : List Char :=
  let power := decimal.point - 1
  let fraction := decimal.digits.drop 1
  decimal.digits.take 1 ++ (if fraction.isEmpty then [] else '.' :: fraction) ++
    'e' :: (if power < 0 then '-' else '+') :: Nat.toDigits 10 power.natAbs

def magnitude (writing : Writing) (mantissa : Nat) (exponent : Int) : List Char :=
  if mantissa = 0 then if writing.keepPoint then ['0', '.', '0'] else ['0']
  else
    let decimal := Decimal.shortest writing.tie mantissa exponent
    let power := decimal.point - 1
    if writing.least.any (power < ·) || writing.greatest.any (· < power) then
      exponential decimal
    else positional writing.keepPoint decimal

def write (writing : Writing) : Binary64 → String
  | .finite negative mantissa exponent =>
      let digits := writing.magnitude mantissa exponent
      String.ofList (if negative then '-' :: digits else digits)
  | .infinite negative => if negative then "-inf" else "inf"
  | .nan => "NaN"

end Writing

end Signpost
