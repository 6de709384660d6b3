/-!
# The shortest decimal of a binary number

A positive binary floating-point number stands for every real that rounds to it.
Its shortest decimal is the one with the fewest digits in that interval, and among
those the one nearest to the number, where the even last digit wins a tie.  The
search is exact: for one digit, two digits and so on it looks at the two
neighbours of the number on the grid of decimals with that many digits.
-/

namespace ApiDocs.Number

/-- A positive binary number: `mantissa * 2 ^ exponent`. -/
structure Binary where
  mantissa : Nat
  exponent : Int
  /-- Whether the next smaller number is only half a step away. -/
  atPowerOfTwo : Bool
  deriving Repr, Inhabited

/-- The decimal `digits * 10 ^ exponent`. -/
structure Decimal where
  digits : Nat
  exponent : Int
  deriving DecidableEq, Repr, Inhabited

/-- The fields of a finite positive floating-point number. -/
def Binary.ofBits (bits : UInt64) : Binary :=
  let fraction := bits.toNat % Nat.pow 2 52
  let biased := bits.toNat / Nat.pow 2 52 % Nat.pow 2 11
  if biased = 0 then ⟨fraction, -1074, false⟩
  else ⟨Nat.pow 2 52 + fraction, Int.ofNat biased - 1075, fraction == 0 && 1 < biased⟩

/-- `base ^ exponent` as a fraction, for an exponent of either sign. -/
def powerFraction (base : Nat) (exponent : Int) : Nat × Nat :=
  if exponent < 0 then (1, base.pow (-exponent).toNat) else (base.pow exponent.toNat, 1)

/-- Compares `first * 2 ^ binary` with `second * 10 ^ decimal`. -/
def compareScaled (first : Nat) (binary : Int) (second : Nat) (decimal : Int) : Ordering :=
  let (twoUp, twoDown) := powerFraction 2 binary
  let (tenUp, tenDown) := powerFraction 10 decimal
  compare (first * twoUp * tenDown) (second * tenUp * twoDown)

/-- Four times the mantissa: in these units the interval has integer ends. -/
def Binary.quarters (number : Binary) : Nat :=
  4 * number.mantissa

/-- The exponent of a quarter of a step. -/
def Binary.quarterExponent (number : Binary) : Int :=
  number.exponent - 2

/-- Whether the decimal rounds to the number. -/
def Binary.rounds (number : Binary) (decimal : Decimal) : Bool :=
  let low := number.quarters - (if number.atPowerOfTwo then 1 else 2)
  let high := number.quarters + 2
  let closed := number.mantissa % 2 == 0
  let belowHigh := compareScaled high number.quarterExponent decimal.digits decimal.exponent
  let aboveLow := compareScaled low number.quarterExponent decimal.digits decimal.exponent
  (belowHigh == .gt || (closed && belowHigh == .eq)) &&
    (aboveLow == .lt || (closed && aboveLow == .eq))

/-- The least power of ten above the number; ten to the 309th is above every number. -/
def Binary.magnitude (number : Binary) : Int :=
  let candidates := (List.range 640).map fun step => Int.ofNat step - 330
  (candidates.find? fun power =>
    compareScaled number.quarters number.quarterExponent 1 power == .lt).getD 309

/-- The number's neighbour below or at it on the grid with the given exponent. -/
def Binary.floorOn (number : Binary) (exponent : Int) : Nat :=
  let (twoUp, twoDown) := powerFraction 2 number.quarterExponent
  let (tenUp, tenDown) := powerFraction 10 exponent
  number.quarters * twoUp * tenDown / (twoDown * tenUp)

/-- Which of the two neighbours is nearer: `.lt` for the lower, `.eq` for a tie. -/
def Binary.nearer (number : Binary) (lower : Nat) (exponent : Int) : Ordering :=
  compareScaled (2 * number.quarters) number.quarterExponent (2 * lower + 1) exponent

/-- The best decimal on one grid, if some decimal of the grid rounds to the number. -/
def Binary.onGrid? (number : Binary) (exponent : Int) : Option Decimal :=
  let lower := number.floorOn exponent
  let down : Decimal := ⟨lower, exponent⟩
  let up : Decimal := ⟨lower + 1, exponent⟩
  match number.rounds down, number.rounds up with
  | true, false => some down
  | false, true => some up
  | false, false => none
  | true, true =>
    match number.nearer lower exponent with
    | .lt => some down
    | .gt => some up
    | .eq => some (if lower % 2 == 0 then down else up)

/-- The shortest decimal of a positive number; seventeen digits always suffice. -/
def Binary.shortest (number : Binary) : Decimal :=
  let magnitude := number.magnitude
  let grids := (List.range 17).map fun count => magnitude - Int.ofNat count - 1
  (grids.findSome? number.onGrid?).getD ⟨number.floorOn (magnitude - 17), magnitude - 17⟩

end ApiDocs.Number
