/-!
# The nearest binary number

The floating-point number nearest to a fraction of natural numbers, found in exact
arithmetic.  Of two neighbours at the same distance the one with the even
mantissa is taken.
-/

namespace ApiDocs.Number

/-- The natural number nearest to a quotient; a tie goes to the even one. -/
def roundDiv (numerator denominator : Nat) : Nat :=
  let quotient := numerator / denominator
  let rest := numerator % denominator
  if 2 * rest < denominator then quotient
  else if denominator < 2 * rest then quotient + 1
  else quotient + quotient % 2

/-- A fraction divided by a power of two, for an exponent of either sign. -/
def scaleDown (numerator denominator : Nat) (exponent : Int) : Nat × Nat :=
  if exponent < 0 then (numerator * Nat.pow 2 (-exponent).toNat, denominator)
  else (numerator, denominator * Nat.pow 2 exponent.toNat)

/--
The exponent of the last bit of the nearest number: the one for which the mantissa
has 53 bits, but not less than the exponent of the least number.
-/
def unitExponent (numerator denominator : Nat) : Int :=
  let least : Int := (numerator.log2 : Int) - (denominator.log2 : Int) - 53
  let (above, below) := scaleDown numerator denominator least
  let exponent := if above / below < Nat.pow 2 53 then least else least + 1
  max exponent (-1074)

/-- The bits of infinity, above those of every number. -/
def infinityBits : Nat :=
  0x7FF * Nat.pow 2 52

/-- The bits of the number nearest to a fraction; the largest ones are those of infinity. -/
def nearestBits (numerator denominator : Nat) : Nat :=
  if numerator == 0 then 0
  else
    let exponent := unitExponent numerator denominator
    let (above, below) := scaleDown numerator denominator exponent
    let mantissa := roundDiv above below
    min ((exponent + 1074).toNat * Nat.pow 2 52 + mantissa) infinityBits

/-- The floating-point number nearest to a fraction. -/
def nearest (numerator denominator : Nat) : Float :=
  Float.ofBits (nearestBits numerator denominator).toUInt64

/-- The floating-point number nearest to an integer, if there is a finite one. -/
def ofInt? (value : Int) : Option Float :=
  let bits := nearestBits value.natAbs 1
  if bits < infinityBits then
    let magnitude := Float.ofBits bits.toUInt64
    some (if value < 0 then -magnitude else magnitude)
  else none

end ApiDocs.Number
