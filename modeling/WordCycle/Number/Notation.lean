import WordCycle.Number.Shortest
import WordCycle.Text.Slice

/-! Numbers in decimal writing. -/

namespace WordCycle.Number
set_option autoImplicit false

def naturalText (n : Nat) : Text := Nat.toDigits 10 n

/-- An integer, with a sign if it is negative. -/
def integerText (n : Int) : Text :=
  if n < 0 then '-' :: naturalText n.natAbs else naturalText n.natAbs

/-- The digits of a decimal without the zeros at their end, which do not count as its digits. -/
def significantDigits (d : Decimal) : Text :=
  ((naturalText d.digits).reverse.dropWhile (· = '0')).reverse

/-- An exponent with its sign and at least two digits. -/
def exponentText (e : Int) : Text :=
  (if e < 0 then '-' else '+')
    :: if e.natAbs < 10 then '0' :: naturalText e.natAbs else naturalText e.natAbs

/-- A positive decimal. From a ten-thousandth up to below `10 ^ 16` it is written out with at least
one digit behind the point; else its leading digit stands before the point and an exponent
follows. -/
def decimalText (d : Decimal) : Text :=
  let digits := significantDigits d
  let leading : Int := (naturalText d.digits).length - 1 + d.exponent
  if leading < -4 || 16 ≤ leading then
    digits.take 1 ++ (if digits.length ≤ 1 then [] else '.' :: digits.drop 1)
      ++ 'e' :: exponentText leading
  else if leading < 0 then
    '0' :: '.' :: List.replicate (-leading - 1).toNat '0' ++ digits
  else
    let whole := leading.toNat + 1
    digits.take whole ++ List.replicate (whole - digits.length) '0'
      ++ '.' :: (if digits.length ≤ whole then ['0'] else digits.drop whole)

/-- A float, by the shortest decimal that reads back. -/
def floatText (x : Float) : Text :=
  match content x with
  | .undefined => "NaN".toList
  | .infinite negative => (if negative then ['-'] else []) ++ "Infinity".toList
  | .finite b =>
    (if b.negative then ['-'] else [])
      ++ if b.significand = 0 then "0.0".toList else decimalText b.shortest

/-- The float nearest to `digits * 10 ^ exponent`. Exponents far outside the range of floats are
answered without forming the power. -/
def nearestFloat (digits : Nat) (exponent : Int) : Float :=
  let leading : Int := (naturalText digits).length + exponent
  if digits = 0 || leading < -400 then 0.0
  else if 400 < leading then 1.0 / 0.0
  else Float.ofScientific digits (exponent < 0) exponent.natAbs

end WordCycle.Number
