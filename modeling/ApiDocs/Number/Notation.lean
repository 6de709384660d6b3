import ApiDocs.Number.Nearest
import ApiDocs.Number.Shortest
import ApiDocs.Text.Blank

/-!
# Decimal text of floating-point numbers

A number is written with its shortest decimal.  Decimal exponents from -4 to 15
are written positionally, with a fractional part even if it is zero; the others
with one digit before the point and an exponent of at least two digits.

Many scripts have ten decimal digits of their own, which stand side by side and in
order.  A table lists the zero of every script, so that a digit is known by its
distance from the zero before it.
-/

namespace ApiDocs.Text

/-- The zeros of the scripts that have decimal digits. -/
def zeros : Array Nat :=
  #[
    0x30, 0x660, 0x6F0, 0x7C0, 0x966, 0x9E6, 0xA66, 0xAE6, 0xB66, 0xBE6, 0xC66, 0xCE6, 0xD66,
    0xDE6, 0xE50, 0xED0, 0xF20, 0x1040, 0x1090, 0x17E0, 0x1810, 0x1946, 0x19D0, 0x1A80, 0x1A90,
    0x1B50, 0x1BB0, 0x1C40, 0x1C50, 0xA620, 0xA8D0, 0xA900, 0xA9D0, 0xA9F0, 0xAA50, 0xABF0,
    0xFF10, 0x104A0, 0x10D30, 0x11066, 0x110F0, 0x11136, 0x111D0, 0x112F0, 0x11450, 0x114D0,
    0x11650, 0x116C0, 0x11730, 0x118E0, 0x11950, 0x11C50, 0x11D50, 0x11DA0, 0x16A60, 0x16AC0,
    0x16B50, 0x1D7CE, 0x1D7D8, 0x1D7E2, 0x1D7EC, 0x1D7F6, 0x1E140, 0x1E2F0, 0x1E950, 0x1FBF0
  ]

/-- The value of a decimal digit of any script. -/
def decimal? (c : Symbol) : Option Nat :=
  let code := c.code
  (zeros.find? fun start => start ≤ code && code < start + 10).map fun start => code - start

/-- Whether the character is a decimal digit of some script. -/
def isDecimal (c : Symbol) : Bool :=
  (decimal? c).isSome

end ApiDocs.Text

namespace ApiDocs.Number

/-- The decimal digits of a natural number. -/
def digitsOf (value : Nat) : Text :=
  Text.ofChars (Nat.toDigits 10 value)

/-- The decimal digits of a number, with zeros in front up to a least number of digits. -/
def paddedDigits (least value : Nat) : Text :=
  let digits := digitsOf value
  Text.copies (least - digits.length) '0' ++ digits

/-- There are no fewer digits than asked for. -/
theorem le_length_paddedDigits (least value : Nat) :
    least ≤ (paddedDigits least value).length := by
  simp only [paddedDigits, List.length_append, Text.length_copies]
  omega

/-- Drops the zeros that a decimal ends with, into its exponent. -/
def dropZeros : Nat → Nat → Int → Nat × Int
  | 0, digits, exponent => (digits, exponent)
  | fuel + 1, digits, exponent =>
    if digits % 10 == 0 && digits != 0 then dropZeros fuel (digits / 10) (exponent + 1)
    else (digits, exponent)

/-- How a decimal is laid out. -/
structure Layout where
  /-- The least decimal exponent that is written positionally. -/
  least : Int
  /-- The first larger decimal exponent that is not. -/
  bound : Int
  infinity : Text
  notANumber : Text

/-- The layout of numbers in messages. -/
def Layout.message : Layout :=
  ⟨-4, 16, "inf", "nan"⟩

/-- The layout of numbers in a JSON document. -/
def Layout.json : Layout :=
  ⟨-4, 16, "Infinity", "NaN"⟩

/-- An exponent with its sign and at least two digits. -/
def exponentText (exponent : Int) : Text :=
  let digits := digitsOf exponent.natAbs
  (if exponent < 0 then '-' else '+') :: (if digits.length < 2 then '0' :: digits else digits)

/-- The text of the positive decimal `digits * 10 ^ exponent`. -/
def decimalText (layout : Layout) (decimal : Decimal) : Text :=
  let (digits, exponent) := dropZeros 20 decimal.digits decimal.exponent
  let figures := digitsOf digits
  let point := (figures.length : Int) + exponent
  if layout.least ≤ point - 1 && point - 1 < layout.bound then
    if point ≤ 0 then
      "0." ++ Text.copies (-point).toNat '0' ++ figures
    else if point.toNat < figures.length then
      figures.take point.toNat ++ "." ++ figures.drop point.toNat
    else
      figures ++ Text.copies (point.toNat - figures.length) '0' ++ ".0"
  else
    let tail : Text := if figures.length ≤ 1 then [] else "." ++ figures.drop 1
    figures.take 1 ++ tail ++ "e" ++ exponentText (point - 1)

/-- The text of a floating-point number. -/
def floatText (layout : Layout) (value : Float) : Text :=
  let bits := value.toBits.toNat
  let negative := bits / Nat.pow 2 63 % 2 == 1
  let magnitude := bits % Nat.pow 2 63
  if magnitude > 0x7FF * Nat.pow 2 52 then layout.notANumber
  else
    let unsigned :=
      if magnitude == 0x7FF * Nat.pow 2 52 then layout.infinity
      else if magnitude == 0 then "0.0"
      else (decimalText layout (Binary.ofBits magnitude.toUInt64).shortest)
    if negative then "-" ++ unsigned else unsigned

/-- The text of an integer. -/
def intText (value : Int) : Text :=
  if value < 0 then "-" ++ digitsOf value.natAbs
  else digitsOf value.natAbs

/-- The number of digits that the decimal text of an integer may have. -/
def digitLimit : Nat := 4300

/-- The sentence about the text of an integer with too many digits. -/
def tooManyDigitsText (count : Nat) : Text :=
  "Exceeds the limit (" ++ intText digitLimit ++
    " digits) for integer string conversion: value has " ++ intText count ++
    " digits; use sys.set_int_max_str_digits() to increase the limit"

/-- Whether an integer has few enough digits to be shown. -/
def isShowable (value : Int) : Bool :=
  value.natAbs < Nat.pow 10 digitLimit

/-- The sentence about an integer that has too many digits to be shown. -/
def unshowableText : Text :=
  "Exceeds the limit (" ++ intText digitLimit ++
    " digits) for integer string conversion; " ++
    "use sys.set_int_max_str_digits() to increase the limit"

/-- The value of a sequence of decimal digits. -/
def digitsValue (digits : Text) : Nat :=
  digits.foldl (fun value digit => value * 10 + (digit.code - '0'.toNat)) 0

/-- The floating-point number nearest to `digits * 10 ^ exponent`. -/
def floatOfDecimal (digits : Nat) (exponent : Int) : Float :=
  let point := ((digitsOf digits).length : Int) + exponent
  if digits == 0 || point < -400 then 0.0
  else if 400 < point then 1.0 / 0.0
  else
    let (tenUp, tenDown) := powerFraction 10 exponent
    nearest (digits * tenUp) tenDown

/-- The value of the exponent part `e`, sign and digits, if it is one. -/
def exponentValue? : Text → Option Int
  | [] => some 0
  | mark :: rest =>
    if mark == 'e' || mark == 'E' then
      let (negative, digits) :=
        match rest with
        | '-' :: digits => (true, digits)
        | '+' :: digits => (false, digits)
        | digits => (false, digits)
      if digits.isEmpty || !digits.all Symbol.isDigit then none
      else some (if negative then -(digitsValue digits : Int) else digitsValue digits)
    else none

/-- Reads an unsigned decimal with an optional fraction and an optional exponent. -/
def unsignedFloat? (text : Text) : Option Float :=
  let whole := text.takeWhile Symbol.isDigit
  let behind := text.dropWhile Symbol.isDigit
  let (fraction, behind) :=
    match behind with
    | '.' :: rest => (rest.takeWhile Symbol.isDigit, rest.dropWhile Symbol.isDigit)
    | rest => ([], rest)
  if whole.isEmpty && fraction.isEmpty then none
  else
    (exponentValue? behind).map fun exponent =>
      floatOfDecimal (digitsValue (whole ++ fraction)) (exponent - fraction.length)

/-- Not a number. -/
def notANumber : Float := 0.0 / 0.0

/-- Positive infinity. -/
def infinity : Float := 1.0 / 0.0

/-! ## Numbers in any script -/

/-- White space of ASCII, which may stand around a number. -/
def isSpace (c : Symbol) : Bool :=
  c == ' ' || (0x09 ≤ c.code && c.code ≤ 0x0D)

/-- A digit or a blank outside ASCII as the one of ASCII; other characters stay. -/
def plainChar (c : Symbol) : Symbol :=
  if c.code < 0x7F then c
  else if Text.isBlank c then ' '
  else
    match Text.decimal? c with
    | some value => Symbol.ofCode ('0'.toNat + value)
    | none => c

/-- The text of a number with the digits and blanks of ASCII. -/
def plainText (text : Text) : Text :=
  text.map plainChar

/-- Reads the text of a floating-point number, the special values included. -/
def float? (text : Text) : Option Float :=
  let (negative, body) :=
    match text with
    | '-' :: rest => (true, rest)
    | '+' :: rest => (false, rest)
    | rest => (false, rest)
  let word := body.map Symbol.toLower
  let unsigned :=
    if word == "inf" || word == "infinity" then some infinity
    else if word == "nan" then some notANumber
    else unsignedFloat? body
  unsigned.map fun value => if negative then -value else value

/-- Reads a floating-point number in the digits of any script, with white space around it. -/
def writtenFloat? (text : Text) : Option Float :=
  float? (Text.dropEndWhile isSpace ((plainText text).dropWhile isSpace))

end ApiDocs.Number
