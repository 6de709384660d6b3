import ApiDocs.Number.Rounded
import ApiDocs.Value.Message

/-!
# Messages with placeholders

A message may have placeholders, which are filled with values in turn.  A
placeholder starts with a percent sign and ends with a letter that says how its value
is shown: as a name, as a literal, as an integer in one of three bases, as a number with
a fraction, or as one character.  Between them may stand the name of an entry, if
the only value is a map, then flags, a least width and a precision; a star takes the
width or the precision from the values.  Two percent signs are one.

A message whose placeholders do not fit its values cannot be filled; the first problem
is reported.
-/

namespace ApiDocs.Template

/-- Why a message cannot be filled. -/
inductive Problem where
  /-- A placeholder or a star has no value. -/
  | missingValue
  /-- A value has no placeholder. -/
  | spareValue
  /-- A placeholder names an entry, and there is no map. -/
  | noMap
  /-- The message ends inside a placeholder. -/
  | incomplete
  | widthTooLarge
  | precisionTooLarge
  /-- A placeholder ends with a symbol that says nothing, at the given index. -/
  | unknownConversion (conversion : Symbol) (index : Nat)
  /-- A value is not of the kind that its place asks for. -/
  | unfit
  deriving DecidableEq, Repr, Inhabited

/-- The lower-case hexadecimal digits of a number, without zeros in front. -/
def hexText (value : Nat) : Text :=
  Text.ofChars (Nat.toDigits 16 value)

/-- The sentence for a problem. -/
def Problem.message : Problem → Text
  | .missingValue => "not enough arguments for format string"
  | .spareValue => "not all arguments converted during string formatting"
  | .noMap => "format requires a mapping"
  | .incomplete => "incomplete format"
  | .widthTooLarge => "width too big"
  | .precisionTooLarge => "precision too big"
  | .unknownConversion conversion index =>
    let shown : Symbol :=
      if 31 ≤ conversion.code && conversion.code ≤ 126 then conversion else '?'
    "unsupported format character '" ++ [shown] ++ "' (0x" ++ hexText conversion.code ++
      ") at index " ++ Number.intText index
  | .unfit => "value does not fit its placeholder"

/-- A placeholder. -/
structure Placeholder where
  /-- The name of an entry, if one was given. -/
  name : Option Text := none
  /-- The value stands at the left of its width. -/
  left : Bool := false
  /-- Numbers have a sign also if they are not negative. -/
  plus : Bool := false
  /-- Numbers have a space in place of a sign if they are not negative. -/
  space : Bool := false
  /-- The other form: bases are marked, and points and zeros are kept. -/
  alternate : Bool := false
  /-- Numbers are filled up with zeros. -/
  zeros : Bool := false
  width : Option Nat := none
  precision : Option Nat := none
  conversion : Symbol := 's'
  deriving Repr, Inhabited

/-- The values that are left to show: in turn, or the entries of one map. -/
inductive Supply where
  | inTurn (values : List Value)
  /-- A map, and whether it or one of its entries was shown. -/
  | entries (map : Value.Entries) (shown : Bool)
  deriving Inhabited

/-- Takes the next value. -/
def Supply.next? : Supply → Option (Value × Supply)
  | .inTurn (value :: rest) => some (value, .inTurn rest)
  | .inTurn [] => none
  | .entries map false => some (.map map, .entries map true)
  | .entries _ true => none

/-- Whether a message may end with this supply. -/
def Supply.mayEnd : Supply → Bool
  | .inTurn values => values.isEmpty
  | .entries _ _ => true

/-- The values for a message; a single map that is not empty gives its entries. -/
def Supply.ofValues : List Value → Supply
  | [.map (first :: others)] => .entries (first :: others) false
  | values => .inTurn values

/-! ## Reading a placeholder -/

/-- The name of an entry up to the bracket that closes it; brackets inside are part of it. -/
def readName (depth : Nat) : Text → Option (Text × Text)
  | [] => none
  | c :: rest =>
    if c == ')' && depth == 0 then some ([], rest)
    else
      let inner := if c == '(' then depth + 1 else if c == ')' then depth - 1 else depth
      (readName inner rest).map fun (name, behind) => (c :: name, behind)

/-- Reads the flags of a placeholder. -/
def readFlags (placeholder : Placeholder) : Text → Placeholder × Text
  | '-' :: rest => readFlags { placeholder with left := true } rest
  | '+' :: rest => readFlags { placeholder with plus := true } rest
  | ' ' :: rest => readFlags { placeholder with space := true } rest
  | '#' :: rest => readFlags { placeholder with alternate := true } rest
  | '0' :: rest => readFlags { placeholder with zeros := true } rest
  | text => (placeholder, text)

/-- The number that a star takes from the values. -/
def starred (supply : Supply) : Except Problem (Int × Supply) :=
  match supply.next? with
  | some (.int value, rest) => .ok (value, rest)
  | some (.bool value, rest) => .ok (if value then 1 else 0, rest)
  | some _ => .error .unfit
  | none => .error .missingValue

/-- The largest width. -/
def widthLimit : Nat := 0x7FFFFFFFFFFFFFFF

/-- The largest precision. -/
def precisionLimit : Nat := 0x7FFFFFFF

/-- Reads the width of a placeholder; a negative one puts the value at the left. -/
def readWidth (placeholder : Placeholder) (supply : Supply) :
    Text → Except Problem (Placeholder × Supply × Text)
  | '*' :: rest => do
    let (value, supply) ← starred supply
    let placeholder := if value < 0 then { placeholder with left := true } else placeholder
    pure ({ placeholder with width := some value.natAbs }, supply, rest)
  | text =>
    let digits := text.takeWhile Symbol.isDigit
    let width := Number.digitsValue digits
    if digits.isEmpty then .ok (placeholder, supply, text)
    else if widthLimit < width then .error .widthTooLarge
    else .ok ({ placeholder with width := some width }, supply, text.drop digits.length)

/-- Reads the precision of a placeholder; a point alone is the precision zero. -/
def readPrecision (placeholder : Placeholder) (supply : Supply) :
    Text → Except Problem (Placeholder × Supply × Text)
  | '.' :: '*' :: rest => do
    let (value, supply) ← starred supply
    pure ({ placeholder with precision := some value.toNat }, supply, rest)
  | '.' :: rest =>
    let digits := rest.takeWhile Symbol.isDigit
    let precision := Number.digitsValue digits
    if precisionLimit < precision then .error .precisionTooLarge
    else
      .ok ({ placeholder with precision := some precision }, supply, rest.drop digits.length)
  | text => .ok (placeholder, supply, text)

/-- Reads the name of an entry, if the placeholder has one. -/
def readEntryName (supply : Supply) : Text → Except Problem (Option Text × Text)
  | '(' :: rest =>
    match supply with
    | .inTurn _ => .error .noMap
    | .entries _ _ =>
      match readName 0 rest with
      | some (name, behind) => .ok (some name, behind)
      | none => .error .incomplete
  | text => .ok (none, text)

/-- Passes over the letter for the size of a number, which says nothing. -/
def dropSize : Text → Text
  | c :: rest => if c.isOneOf "hlL" then rest else c :: rest
  | [] => []

/-- Reads a placeholder behind its percent sign. -/
def readPlaceholder (supply : Supply) (text : Text) :
    Except Problem (Placeholder × Supply × Text) := do
  let (name, text) ← readEntryName supply text
  let (placeholder, text) := readFlags { name } text
  let (placeholder, supply, text) ← readWidth placeholder supply text
  let (placeholder, supply, text) ← readPrecision placeholder supply text
  match dropSize text with
  | [] => .error .incomplete
  | conversion :: rest => .ok ({ placeholder with conversion }, supply, rest)

/-! ## Showing a value -/

/-- A number in parts: its sign, the mark of its base, and its digits. -/
structure Shown where
  sign : Text := []
  mark : Text := []
  digits : Text

/-- Fills a text up to the width of a placeholder. -/
def pad (placeholder : Placeholder) (text : Text) : Text :=
  let blanks := Text.copies (placeholder.width.getD 0 - text.length) ' '
  if placeholder.left then text ++ blanks else blanks ++ text

/-- Fills a number up to the width of a placeholder; zeros stand behind the sign and the mark. -/
def padNumber (placeholder : Placeholder) (shown : Shown) : Text :=
  let front := shown.sign ++ shown.mark
  if placeholder.zeros && !placeholder.left then
    let missing := placeholder.width.getD 0 - (front.length + shown.digits.length)
    front ++ Text.copies missing '0' ++ shown.digits
  else pad placeholder (front ++ shown.digits)

/-- The sign of a number. -/
def signOf (placeholder : Placeholder) (negative : Bool) : Text :=
  if negative then "-"
  else if placeholder.plus then "+"
  else if placeholder.space then " "
  else []

/-- The integer that a value is shown as; a number with a fraction loses it. -/
def integer? (wholeOnly : Bool) : Value → Option Int
  | .bool value => some (if value then 1 else 0)
  | .int value => some value
  | .float value =>
    if wholeOnly || value.isNaN || value.isInf then none
    else
      let (numerator, denominator) := Number.fractionOf value
      let whole : Int := numerator / denominator
      some (if Number.isNegative value then -whole else whole)
  | _ => none

/-- The base of an integer conversion, and its mark in the other form. -/
def baseOf (conversion : Symbol) : Nat × Text :=
  match conversion with
  | 'o' => (8, ['0', 'o'])
  | 'x' => (16, ['0', 'x'])
  | 'X' => (16, ['0', 'X'])
  | _ => (10, [])

/-- Shows an integer. -/
def showInteger (placeholder : Placeholder) (value : Int) : Text :=
  let (base, mark) := baseOf placeholder.conversion
  let digits := Text.ofChars (Nat.toDigits base value.natAbs)
  let digits := Text.copies (placeholder.precision.getD 0 - digits.length) '0' ++ digits
  padNumber placeholder
    { sign := signOf placeholder (value < 0)
      mark := if placeholder.alternate then mark else []
      digits := if placeholder.conversion == 'X' then digits.map Symbol.toUpper else digits }

/-- The number with a fraction that a value is shown as. -/
def float? : Value → Option Float
  | .bool value => some (if value then 1.0 else 0.0)
  | .int value => Number.ofInt? value
  | .float value => some value
  | _ => none

/-- Shows a number with a fraction. -/
def showFloat (placeholder : Placeholder) (value : Float) : Text :=
  let precision := placeholder.precision.getD 6
  let keep := placeholder.alternate
  let (numerator, denominator) := Number.fractionOf value
  let digits : Text :=
    if value.isNaN then "nan"
    else if value.isInf then "inf"
    else
      match placeholder.conversion.toLower with
      | 'e' => Number.scientificText keep precision numerator denominator
      | 'f' => Number.fixedText keep precision numerator denominator
      | _ => Number.generalText keep precision numerator denominator
  padNumber placeholder
    { sign := signOf placeholder (Number.isNegative value && !value.isNaN)
      digits := if placeholder.conversion.isUpper then digits.map Symbol.toUpper else digits }

/-- The one character that a value is shown as. -/
def character? : Value → Option Symbol
  | .text value =>
    match value with
    | [c] => some c
    | _ => none
  | value =>
    match integer? true value with
    | some code => if 0 ≤ code && code ≤ 0x10FFFF then some (Symbol.ofCode code.toNat) else none
    | none => none

/-- What a value is shown as, if it is of the right kind. -/
def fitting (shown : Option Text) : Except Problem Text :=
  match shown with
  | some text => .ok text
  | none => .error .unfit

/-- Shows a value as a placeholder asks for it, whose conversion stands at the given index. -/
def showValue (placeholder : Placeholder) (index : Nat) (value : Value) : Except Problem Text :=
  let cut (text : Text) : Text :=
    pad placeholder
      (match placeholder.precision with
        | some length => text.take length
        | none => text)
  match placeholder.conversion with
  | 's' => .ok (cut value.nameText)
  | 'r' => .ok (cut value.literal)
  | 'a' => .ok (cut (Text.asciiOnly value.literal))
  | 'd' | 'i' | 'u' => fitting ((integer? false value).map (showInteger placeholder))
  | 'o' | 'x' | 'X' => fitting ((integer? true value).map (showInteger placeholder))
  | 'e' | 'E' | 'f' | 'F' | 'g' | 'G' => fitting ((float? value).map (showFloat placeholder))
  | 'c' => fitting ((character? value).map fun c => pad placeholder [c])
  | conversion => .error (.unknownConversion conversion index)

/-- Takes the value for a placeholder; behind an entry the map is no longer shown as a whole. -/
def valueFor (placeholder : Placeholder) (supply : Supply) : Except Problem (Value × Supply) :=
  match placeholder.name, supply with
  | some name, .entries map _ =>
    match Value.lookup (.text name) map with
    | some value => .ok (value, .entries map true)
    | none => .error .unfit
  | some _, .inTurn _ => .error .noMap
  | none, supply =>
    match supply.next? with
    | some next => .ok next
    | none => .error .missingValue

/-! ## Filling a message -/

/-- Fills the placeholders of the rest of a message with the given length. -/
def fillRest (length : Nat) : Nat → Supply → Text → Except Problem Text
  | 0, _, _ => .ok []
  | _ + 1, supply, [] => if supply.mayEnd then .ok [] else .error .spareValue
  | fuel + 1, supply, '%' :: '%' :: rest => do
    let more ← fillRest length fuel supply rest
    pure ('%' :: more)
  | fuel + 1, supply, '%' :: rest => do
    let (placeholder, supply, rest) ← readPlaceholder supply rest
    let (value, supply) ← valueFor placeholder supply
    let here ← showValue placeholder (length - rest.length - 1) value
    let more ← fillRest length fuel supply rest
    pure (here ++ more)
  | fuel + 1, supply, c :: rest => do
    let more ← fillRest length fuel supply rest
    pure (c :: more)

/-- Fills the placeholders of a message, if they fit; without values it stays as it is. -/
def fill (message : Text) (values : List Value) : Except Problem Text :=
  if values.isEmpty then .ok message
  else fillRest message.length (message.length + 1) (.ofValues values) message

end ApiDocs.Template
