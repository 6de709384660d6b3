import ApiDocs.Json.Failure
import ApiDocs.Text.Pair
import ApiDocs.Text.Search
import ApiDocs.Value.Basic

/-!
# Reading JSON

A recursive-descent reader over the symbols of a document.  Besides the
standard it takes the three words for non-finite numbers.  A name that occurs
twice in an object keeps its first place and its last value.  Every reader
returns what it read and the symbols behind it; the index of a problem is
found from the number of symbols that were left.
-/

namespace ApiDocs.Json

/-- A problem and the number of symbols that were left where it stands, or a limit. -/
inductive Stop where
  | problem (problem : Problem) (left : Nat)
  | tooManyDigits (count : Nat)
  | tooDeep (isObject : Bool)
  deriving Repr, Inhabited

/-- The white space between the parts of a document. -/
def isSpace (c : Symbol) : Bool :=
  c == ' ' || c == '\t' || c == '\n' || c == '\r'

/-- Drops white space. -/
def skipSpace (text : Text) : Text :=
  text.dropWhile isSpace

/-- A problem at the start of the given symbols. -/
def stopAt {α : Type} (problem : Problem) (here : Text) : Except Stop α :=
  .error (.problem problem here.length)

/-- The value of a hexadecimal digit. -/
def hexValue? (c : Symbol) : Option Nat :=
  if '0' ≤ c && c ≤ '9' then some (c.code - '0'.toNat)
  else if 'a' ≤ c && c ≤ 'f' then some (c.code - 'a'.toNat + 10)
  else if 'A' ≤ c && c ≤ 'F' then some (c.code - 'A'.toNat + 10)
  else none

/-- The value of four hexadecimal digits and the symbols behind them. -/
def fourDigits? : Text → Option (Nat × Text)
  | a :: b :: c :: d :: rest => do
    let first ← hexValue? a
    let second ← hexValue? b
    let third ← hexValue? c
    let fourth ← hexValue? d
    pure (((first * 16 + second) * 16 + third) * 16 + fourth, rest)
  | _ => none

/-- The character of a one-letter escape. -/
def shortEscape? : Symbol → Option Symbol
  | '"' => some '"'
  | '\\' => some '\\'
  | '/' => some '/'
  | 'b' => some '\x08'
  | 'f' => some '\x0c'
  | 'n' => some '\n'
  | 'r' => some '\r'
  | 't' => some '\t'
  | _ => none

/--
Reads the character behind `\u`.  The digits must be followed by a further
character, since the string is still open; a pair of units is one character, and half
of a pair alone is kept as such.
-/
def codeEscape (here : Text) : Except Stop (Symbol × Text) :=
  match here with
  | [] => stopAt .invalidCodeEscape here
  | letter :: digits =>
    if (digits.drop 4).isEmpty then stopAt .invalidCodeEscape (letter :: digits)
    else
      match fourDigits? digits with
      | none => stopAt .invalidCodeEscape (letter :: digits)
      | some (unit, rest) =>
        match rest with
        | '\\' :: 'u' :: more =>
          if Text.isHighHalf unit && !(more.drop 4).isEmpty then
            match fourDigits? more with
            | none => stopAt .invalidCodeEscape ('u' :: more)
            | some (second, behind) =>
              if Text.isLowHalf second then .ok (Text.pairSymbol unit second, behind)
              else .ok (Symbol.ofCode unit, rest)
          else .ok (Symbol.ofCode unit, rest)
        | _ => .ok (Symbol.ofCode unit, rest)

/--
Reads the rest of a string behind the symbols read before, which are held last first.
The text from the opening quote on is where a string without end is reported.
-/
def stringRest : Nat → Text → Text → Text → Except Stop (Text × Text)
  | 0, opening, _, _ => stopAt .unterminatedString opening
  | fuel + 1, opening, read, text =>
    match text with
    | [] => stopAt .unterminatedString opening
    | '"' :: rest => .ok (read.reverse, rest)
    | '\\' :: rest =>
      match rest with
      | [] => stopAt .unterminatedString opening
      | 'u' :: digits => do
        let (symbol, behind) ← codeEscape ('u' :: digits)
        stringRest fuel opening (symbol :: read) behind
      | letter :: behind =>
        match shortEscape? letter with
        | none => stopAt .invalidEscape ('\\' :: letter :: behind)
        | some symbol => stringRest fuel opening (symbol :: read) behind
    | symbol :: rest =>
      if symbol.code ≤ 0x1F then stopAt .controlCharacter (symbol :: rest)
      else stringRest fuel opening (symbol :: read) rest

/-- Reads a string from its opening quote on; each step takes a symbol of the document. -/
def readString (fuel : Nat) (opening : Text) : Except Stop (Text × Text) :=
  stringRest fuel opening [] (opening.drop 1)

/-- The fraction part at the start of the text: a point and at least one digit. -/
def fractionPart (text : Text) : Text × Text :=
  match text with
  | '.' :: rest =>
    let digits := rest.takeWhile Symbol.isDigit
    if digits.isEmpty then ([], text) else (digits, rest.dropWhile Symbol.isDigit)
  | _ => ([], text)

/-- The exponent part at the start of the text: a mark, an optional sign and at least one digit. -/
def exponentPart (text : Text) : Option Int × Text :=
  match text with
  | mark :: rest =>
    if mark == 'e' || mark == 'E' then
      let (negative, digits) :=
        match rest with
        | '-' :: digits => (true, digits)
        | '+' :: digits => (false, digits)
        | digits => (false, digits)
      let figures := digits.takeWhile Symbol.isDigit
      if figures.isEmpty then (none, text)
      else
        let value : Int := Number.digitsValue figures
        (some (if negative then -value else value), digits.dropWhile Symbol.isDigit)
    else (none, text)
  | [] => (none, [])

/-- The integer part at the start of the text: a zero, or digits that start with another one. -/
def integerPart (text : Text) : Option (Text × Text) :=
  match text with
  | '0' :: rest => some ("0", rest)
  | c :: rest =>
    if '1' ≤ c && c ≤ '9' then
      some (c :: rest.takeWhile Symbol.isDigit, rest.dropWhile Symbol.isDigit)
    else none
  | [] => none

/-- Reads a number. -/
def readNumber (text : Text) : Except Stop (Value × Text) :=
  let (negative, unsigned) :=
    match text with
    | '-' :: rest => (true, rest)
    | rest => (false, rest)
  match integerPart unsigned with
  | none => stopAt .expectingValue text
  | some (whole, rest) =>
    let (fraction, rest) := fractionPart rest
    let (exponent, rest) := exponentPart rest
    if fraction.isEmpty && exponent.isNone then
      if Number.digitLimit < whole.length then .error (.tooManyDigits whole.length)
      else
        let value : Int := Number.digitsValue whole
        .ok (.int (if negative then -value else value), rest)
    else
      let value :=
        Number.floatOfDecimal (Number.digitsValue (whole ++ fraction))
          (exponent.getD 0 - fraction.length)
      .ok (.float (if negative then -value else value), rest)

/-- The words that are values. -/
def words : List (Text × Value) :=
  [("null", .null), ("true", .bool true), ("false", .bool false), ("NaN", .float Number.notANumber),
    ("Infinity", .float Number.infinity), ("-Infinity", .float (-Number.infinity))]

/-- The word at the start of the text that is a value. -/
def readWord? (text : Text) : Option (Value × Text) :=
  words.findSome? fun (word, value) =>
    (Text.afterPrefix? word text).map fun rest => (value, rest)

mutual

/-- Reads one value, with the given number of arrays and objects around it. -/
def readValue : Nat → Nat → Text → Except Stop (Value × Text)
  | 0, _, text => stopAt .expectingValue text
  | fuel + 1, depth, text =>
    match text with
    | '"' :: rest => do
      let (content, rest) ← readString fuel ('"' :: rest)
      pure (.text content, rest)
    | '\x7b' :: rest =>
      if depthLimit ≤ depth then .error (.tooDeep true)
      else
        match skipSpace rest with
        | '\x7d' :: behind => .ok (.map [], behind)
        | members => readMembers fuel (depth + 1) [] members
    | '[' :: rest =>
      if depthLimit ≤ depth then .error (.tooDeep false)
      else
        match skipSpace rest with
        | ']' :: behind => .ok (.list [], behind)
        | items => readItems fuel (depth + 1) [] items
    | _ =>
      match readWord? text with
      | some read => .ok read
      | none => readNumber text

/-- Reads the members of an object behind the ones read before, up to its end. -/
def readMembers : Nat → Nat → Value.Entries → Text → Except Stop (Value × Text)
  | 0, _, _, text => stopAt .expectingName text
  | fuel + 1, depth, entries, text =>
    match text with
    | '"' :: rest => do
      let (name, rest) ← readString fuel ('"' :: rest)
      match skipSpace rest with
      | ':' :: rest =>
        let (value, rest) ← readValue fuel depth (skipSpace rest)
        let entries := Value.insert (.text name) value entries
        match skipSpace rest with
        | '\x7d' :: rest => .ok (.map entries, rest)
        | ',' :: rest => readMembers fuel depth entries (skipSpace rest)
        | here => stopAt .expectingComma here
      | here => stopAt .expectingColon here
    | here => stopAt .expectingName here

/-- Reads the items of an array behind the ones read before, which are held last first. -/
def readItems : Nat → Nat → List Value → Text → Except Stop (Value × Text)
  | 0, _, _, text => stopAt .expectingValue text
  | fuel + 1, depth, items, text => do
    let (value, rest) ← readValue fuel depth text
    match skipSpace rest with
    | ']' :: rest => .ok (.list (value :: items).reverse, rest)
    | ',' :: rest => readItems fuel depth (value :: items) (skipSpace rest)
    | here => stopAt .expectingComma here

end

/-- Reads a whole document; each level of nesting takes at least one character. -/
def readDocument (document : Text) : Except Stop Value :=
  match document with
  | '\uFEFF' :: _ => stopAt .byteOrderMark document
  | _ => do
    let (value, rest) ← readValue (2 * document.length + 2) 0 (skipSpace document)
    match skipSpace rest with
    | [] => .ok value
    | here => stopAt .extraData here

/-- The value of a document, or why it is refused. -/
def read (document : Text) : Except Failure Value :=
  match readDocument document with
  | .ok value => .ok value
  | .error (.problem problem left) =>
    .error (Failure.at document problem (document.length - left))
  | .error (.tooManyDigits count) => .error (.tooManyDigits count)
  | .error (.tooDeep isObject) => .error (.tooDeep isObject)

end ApiDocs.Json
