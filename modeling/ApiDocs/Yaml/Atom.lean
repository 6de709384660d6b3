import ApiDocs.Text.Lowercase
import ApiDocs.Text.Quoted
import ApiDocs.Value.Message
import ApiDocs.Yaml.Kind
import ApiDocs.Yaml.Scalar

/-!
# Values of scalars

The text of a scalar is loaded as a value of the type that its node has: a truth
value, a number, bytes, a day or an instant, or the text itself.  A type that was
given by a tag need not fit the text, and the failure says why.
-/

namespace ApiDocs.Yaml

/-- The value of a digit in a base of up to sixteen. -/
def digitValue? (base : Nat) (c : Symbol) : Option Nat :=
  let value :=
    if c.isDigit then c.code - '0'.toNat
    else if 'a' ≤ c && c ≤ 'f' then c.code - 'a'.toNat + 10
    else if 'A' ≤ c && c ≤ 'F' then c.code - 'A'.toNat + 10
    else 16
  if value < base then some value else none

/-- The most characters of a wrong number that a message shows. -/
def shownLength : Nat := 200

/-- The failure for a text that is no integer in a base. -/
def noInteger (base : Nat) (text : Text) : Failure :=
  .invalidNumber ("invalid literal for int() with base " ++ Number.intText base ++ ": " ++
    (Text.quoted text).take shownLength)

/-- Drops the mark in front of the digits of a base that is a power of two. -/
def dropBaseMark (base : Nat) : Text → Text
  | '0' :: mark :: rest =>
    let letter := mark.toLower
    if (base == 16 && letter == 'x') || (base == 8 && letter == 'o') ||
        (base == 2 && letter == 'b') then rest
    else '0' :: mark :: rest
  | text => text

/--
Reads an integer in a base, in the digits of any script, with white space around it
and a sign in front.  That there are too many decimal digits shows before anything
behind them.
-/
def integerIn (base : Nat) (text : Text) : Except Failure Int :=
  let (negative, unsigned) :=
    match (Number.plainText text).dropWhile Number.isSpace with
    | '-' :: rest => (true, rest)
    | '+' :: rest => (false, rest)
    | rest => (false, rest)
  let digits := dropBaseMark base unsigned
  let run := digits.takeWhile fun c => (digitValue? base c).isSome
  if base == 10 && Number.digitLimit < run.length then
    .error (.invalidNumber (Number.tooManyDigitsText run.length))
  else if run.isEmpty || !(digits.drop run.length).all Number.isSpace then
    .error (noInteger base text)
  else
    let magnitude : Nat :=
      run.foldl (fun value c => value * base + (digitValue? base c).getD 0) 0
    .ok (if negative then -(magnitude : Int) else magnitude)

/-- Splits a text at colons. -/
def splitColons : Text → List Text
  | [] => [[]]
  | c :: rest =>
    match splitColons rest with
    | [] => [[c]]
    | first :: others => if c == ':' then [] :: first :: others else (c :: first) :: others

/-- Drops the sign of a number without separators; the number must not be empty. -/
def signed (text : Text) : Except Failure (Bool × Text) :=
  match text with
  | [] => .error .emptyNumber
  | '-' :: rest => .ok (true, rest)
  | '+' :: rest => .ok (false, rest)
  | rest => .ok (false, rest)

/-- Loads an integer. -/
def loadInteger (text : Text) : Except Failure Int := do
  let (negative, unsigned) ← signed (text.filter (· != '_'))
  let magnitude ←
    match unsigned with
    | ['0'] => pure 0
    | '0' :: 'b' :: rest => integerIn 2 rest
    | '0' :: 'x' :: rest => integerIn 16 rest
    | '0' :: _ => integerIn 8 unsigned
    | [] => .error .emptyNumber
    | _ =>
      if unsigned.contains ':' then do
        let parts ← (splitColons unsigned).mapM (integerIn 10)
        pure (parts.foldl (fun value part => value * 60 + part) 0)
      else integerIn 10 unsigned
  pure (if negative then -magnitude else magnitude)

/-- Reads a floating-point number with white space around it. -/
def floatIn (text : Text) : Except Failure Float :=
  match Number.writtenFloat? text with
  | some value => .ok value
  | none =>
    .error (.invalidNumber ("could not convert string to float: " ++ Text.quoted text))

/-- Adds groups of sixty to a sum, where the first one counts `unit` times. -/
def sumSixties (sum : Float) (unit : Nat) : List Float → Except Failure Float
  | [] => .ok sum
  | group :: rest =>
    match Number.ofInt? unit with
    | none => .error .numberTooLarge
    | some factor => sumSixties (sum + group * factor) (unit * 60) rest

/-- Loads a floating-point number. -/
def loadFloat (text : Text) : Except Failure Float := do
  let (negative, unsigned) ← signed (Text.lower (text.filter (· != '_')))
  let magnitude ←
    if unsigned == ".inf" then pure Number.infinity
    else if unsigned == ".nan" then pure Number.notANumber
    else if unsigned.contains ':' then do
      let groups ← (splitColons unsigned).mapM floatIn
      sumSixties 0.0 1 groups.reverse
    else floatIn unsigned
  pure (if negative then -magnitude else magnitude)

/-- Loads a truth value. -/
def loadTruth (text : Text) : Except Failure Bool :=
  let word := Text.lower text
  if word == "yes" || word == "true" || word == "on" then .ok true
  else if word == "no" || word == "false" || word == "off" then .ok false
  else .error (.unknownTruth word)

/-- The day with the given parts, if it is in the calendar. -/
def dayOf (year month day : Nat) : Except Failure Date :=
  if year < 1 then
    .error (.invalidNumber ("year " ++ Number.intText year ++ " is out of range"))
  else if month < 1 || 12 < month then .error (.invalidNumber "month must be in 1..12")
  else if day < 1 || daysInMonth year month < day then
    .error (.invalidNumber "day is out of range for month")
  else .ok ⟨year, month, day⟩

/-- The distance of a zone from universal time in seconds; it is less than a day. -/
def offsetOf (negative : Bool) (hours minutes : Nat) : Except Failure Int :=
  let magnitude : Int := hours * 3600 + minutes * 60
  let offset := if negative then -magnitude else magnitude
  if magnitude < 86400 then .ok offset
  else
    .error (.invalidNumber
      ("offset must be a timedelta strictly between -timedelta(hours=24) and " ++
        "timedelta(hours=24), not " ++ Instant.durationText offset ++ "."))

/-- Loads a day or an instant. -/
def loadInstant (text : Text) : Except Failure Value := do
  match instantText? (withoutBreak text) with
  | none => .error .notAnInstant
  | some parts =>
    let number := Number.digitsValue
    match parts.time with
    | none =>
      let date ← dayOf (number parts.year) (number parts.month) (number parts.day)
      pure (.date date)
    | some (hour, minute, second) =>
      let figures := parts.fraction.take 6
      let microsecond := number (figures ++ Text.copies (6 - figures.length) '0')
      let offset ←
        match parts.zone with
        | none => pure none
        | some none => pure (some 0)
        | some (some (negative, hours, minutes)) =>
          some <$> offsetOf negative (number hours) (number minutes)
      let date ← dayOf (number parts.year) (number parts.month) (number parts.day)
      if 23 < number hour then .error (.invalidNumber "hour must be in 0..23")
      else if 59 < number minute then .error (.invalidNumber "minute must be in 0..59")
      else if 59 < number second then .error (.invalidNumber "second must be in 0..59")
      else
        pure (.instant
          { date, hour := number hour, minute := number minute, second := number second,
            microsecond, offset })

/-- The value of a character of the base-64 alphabet. -/
def base64Value? (c : Symbol) : Option Nat :=
  if 'A' ≤ c && c ≤ 'Z' then some (c.code - 'A'.toNat)
  else if 'a' ≤ c && c ≤ 'z' then some (c.code - 'a'.toNat + 26)
  else if c.isDigit then some (c.code - '0'.toNat + 52)
  else if c == '+' then some 62
  else if c == '/' then some 63
  else none

/-- Decodes base 64: other characters are passed over, and the padding ends the data. -/
def base64 (place pads left : Nat) : Text → Option (List UInt8)
  | [] => if place == 0 then some [] else none
  | '=' :: rest =>
    if 2 ≤ place && 4 ≤ place + pads + 1 then some [] else base64 place (pads + 1) left rest
  | c :: rest =>
    match base64Value? c with
    | none => base64 place pads left rest
    | some value =>
      match place with
      | 0 => base64 1 0 value rest
      | 1 => (base64 2 0 (value % 16) rest).map ((left * 4 + value / 16).toUInt8 :: ·)
      | 2 => (base64 3 0 (value % 4) rest).map ((left * 16 + value / 4).toUInt8 :: ·)
      | _ => (base64 0 0 0 rest).map ((left * 64 + value).toUInt8 :: ·)

/-- Loads bytes, which are written in ASCII. -/
def loadBinary (text : Text) : Except Failure (List UInt8) :=
  if text.all fun c => c.code < 0x80 then
    match base64 0 0 0 text with
    | some bytes => .ok bytes
    | none => malformed
  else malformed

/-- Loads the text of a scalar as a value of the given type. -/
def loadScalar (kind : Kind) (text : Text) : Except Failure Value :=
  match kind with
  | .null => .ok .null
  | .truth => Value.bool <$> loadTruth text
  | .integer => Value.int <$> loadInteger text
  | .float => Value.float <$> loadFloat text
  | .binary => Value.bytes <$> loadBinary text
  | .instant => loadInstant text
  | .text => .ok (.text (text))
  | _ => malformed

end ApiDocs.Yaml
