import ApiDocs.Number.Notation

/-!
# Numbers rounded to a given number of places

A floating-point number is an exact fraction.  It is shown with a fixed number of
decimal places, or with a fixed number of digits and an exponent, rounded to the
nearest such decimal; a tie goes to the even digit.  A third way chooses between
the two by the size of the number and can drop the zeros at the end.
-/

namespace ApiDocs.Number

/-- The magnitude of a finite number as a fraction. -/
def fractionOf (value : Float) : Nat × Nat :=
  let binary := Binary.ofBits (value.toBits.toNat % Nat.pow 2 63).toUInt64
  let (twoUp, twoDown) := powerFraction 2 binary.exponent
  (binary.mantissa * twoUp, twoDown)

/-- Whether a number has the sign bit. -/
def isNegative (value : Float) : Bool :=
  value.toBits.toNat / Nat.pow 2 63 % 2 == 1

/-- Puts a point in front of the last `places` digits; `keepPoint` keeps one with none behind it. -/
def withPoint (keepPoint : Bool) (places : Nat) (digits : Text) : Text :=
  let whole := digits.take (digits.length - places)
  if places == 0 then whole ++ (if keepPoint then "." else "")
  else whole ++ "." ++ digits.drop (digits.length - places)

/-- A fraction with the given number of decimal places. -/
def fixedText (keepPoint : Bool) (places numerator denominator : Nat) : Text :=
  let units := roundDiv (numerator * Nat.pow 10 places) denominator
  withPoint keepPoint places (paddedDigits (places + 1) units)

/-- The power of ten at or below a positive fraction. -/
def decimalExponent (numerator denominator : Nat) : Int :=
  let guess : Int :=
    ((digitsOf numerator).length : Int) - ((digitsOf denominator).length : Int)
  let (tenUp, tenDown) := powerFraction 10 guess
  if numerator * tenDown < denominator * tenUp then guess - 1 else guess

/-- A fraction as digits, `places` of them behind the first one, and a power of ten. -/
def scientific (places numerator denominator : Nat) : Nat × Int :=
  if numerator == 0 then (0, 0)
  else
    let exponent := decimalExponent numerator denominator
    let (tenUp, tenDown) := powerFraction 10 (exponent - places)
    let digits := roundDiv (numerator * tenDown) (denominator * tenUp)
    if digits < Nat.pow 10 (places + 1) then (digits, exponent)
    else (digits / 10, exponent + 1)

/-- A fraction with one digit before the point and an exponent. -/
def scientificText (keepPoint : Bool) (places numerator denominator : Nat) : Text :=
  let (digits, exponent) := scientific places numerator denominator
  withPoint keepPoint places (paddedDigits (places + 1) digits) ++ "e" ++ exponentText exponent

/-- Drops the zeros behind the point, and the point if nothing is left behind it. -/
def dropFractionZeros (text : Text) : Text :=
  if text.contains '.' then
    Text.dropEndWhile (· == '.') (Text.dropEndWhile (· == '0') text)
  else text

/--
A fraction with the given number of digits: positional if the power of ten lies
between -4 and that number, otherwise with an exponent.
-/
def generalText (keepZeros : Bool) (precision numerator denominator : Nat) : Text :=
  let count := max precision 1
  let (digits, exponent) := scientific (count - 1) numerator denominator
  if -4 ≤ exponent && exponent < count then
    let places := ((count : Int) - 1 - exponent).toNat
    let text := fixedText keepZeros places numerator denominator
    if keepZeros then text else dropFractionZeros text
  else
    let mantissa := withPoint keepZeros (count - 1) (paddedDigits count digits)
    (if keepZeros then mantissa else dropFractionZeros mantissa) ++ "e" ++ exponentText exponent

end ApiDocs.Number
