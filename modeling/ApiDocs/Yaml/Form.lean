import ApiDocs.Text.Symbol

/-!
# Types by form

A scalar that is written plainly and without a tag has the type that its form
gives it: the empty text and a few words denote the null value, twelve words with
their capitalisations are truth values, and there are forms for integers in four
bases, for numbers with a fraction, for both in groups of sixty, and for instants.
A line break may stand behind a form.  Everything else is a text, but for the three
marks that start other nodes, which denote nothing at all.
-/

namespace ApiDocs.Yaml

/-- The types that a form can give. -/
inductive Form where
  | null
  | truth
  | float
  | integer
  | merge
  | instant
  | default
  | mark
  | text
  deriving DecidableEq, Repr, Inhabited

/-- The text without the line break behind a form. -/
def withoutBreak (text : Text) : Text :=
  match text.getLast? with
  | some '\n' => if text.length = 1 then text else text.dropLast
  | _ => text

/-- The words for the null value. -/
def nullWords : List Text :=
  ["", "~", "null", "Null", "NULL"]

/-- The words for truth values. -/
def truthWords : List Text :=
  ["yes", "Yes", "YES", "no", "No", "NO", "true", "True", "TRUE", "false", "False", "FALSE",
    "on", "On", "ON", "off", "Off", "OFF"]

/-- A digit or a separator of digits. -/
def isDigitOrMark (c : Symbol) : Bool :=
  c.isDigit || c == '_'

/-- Drops one sign. -/
def dropSign : Text → Text
  | '-' :: rest => rest
  | '+' :: rest => rest
  | text => text

/-- Digits with separators that start with a digit; gives what stands behind them. -/
def afterDigits? : Text → Option Text
  | c :: rest => if c.isDigit then some (rest.dropWhile isDigitOrMark) else none
  | [] => none

/-- Whether the text is empty or an exponent with a sign. -/
def isSignedExponent : Text → Bool
  | [] => true
  | mark :: sign :: digits =>
    (mark == 'e' || mark == 'E') && (sign == '-' || sign == '+') && !digits.isEmpty &&
      digits.all Symbol.isDigit
  | _ => false

/-- Drops groups of up to sixty behind colons, as many as there are. -/
def dropSixties : Text → Text
  | ':' :: first :: second :: rest =>
    if '0' ≤ first && first ≤ '5' && second.isDigit then dropSixties rest
    else if first.isDigit then dropSixties (second :: rest)
    else ':' :: first :: second :: rest
  | [':', digit] => if digit.isDigit then [] else [':', digit]
  | text => text

/-- At least one group of up to sixty; gives what stands behind the groups. -/
def afterSixties? (text : Text) : Option Text :=
  let rest := dropSixties text
  if rest.length < text.length then some rest else none

/-- Whether the text is a point and digits with separators. -/
def isPlainFraction : Text → Bool
  | '.' :: rest => rest.all isDigitOrMark
  | _ => false

/-- Numbers with a fraction. -/
def isFloatForm (text : Text) : Bool :=
  let unsigned := dropSign text
  let decimal :=
    match afterDigits? unsigned with
    | some ('.' :: rest) => isSignedExponent (rest.dropWhile isDigitOrMark)
    | _ => false
  let pointed :=
    match text with
    | '.' :: rest =>
      match afterDigits? rest with
      | some behind => isSignedExponent behind
      | none => false
    | _ => false
  let sixties :=
    match (afterDigits? unsigned).bind afterSixties? with
    | some rest => isPlainFraction rest
    | none => false
  let infinities : List Text := [".inf", ".Inf", ".INF"]
  let undefinedNumbers : List Text := [".nan", ".NaN", ".NAN"]
  decimal || pointed || sixties || infinities.contains unsigned || undefinedNumbers.contains text

/-- Integers in four bases and in groups of sixty. -/
def isIntegerForm (text : Text) : Bool :=
  let digitsOf (rest : Text) (inBase : Symbol → Bool) : Bool :=
    !rest.isEmpty && rest.all fun c => inBase c || c == '_'
  match dropSign text with
  | '0' :: rest =>
    match rest with
    | [] => true
    | 'b' :: digits => digitsOf digits fun c => c == '0' || c == '1'
    | 'x' :: digits =>
      digitsOf digits fun c => c.isDigit || ('a' ≤ c && c ≤ 'f') || ('A' ≤ c && c ≤ 'F')
    | digits => digitsOf digits fun c => '0' ≤ c && c ≤ '7'
  | c :: rest =>
    if '1' ≤ c && c ≤ '9' then
      let behind := rest.dropWhile isDigitOrMark
      behind.isEmpty || afterSixties? behind == some []
    else false
  | [] => false

/-- The parts of an instant as written. -/
structure InstantText where
  year : Text
  month : Text
  day : Text
  time : Option (Text × Text × Text) := none
  fraction : Text := []
  /-- The zone: nothing, universal time, or a sign with hours and minutes. -/
  zone : Option (Option (Bool × Text × Text)) := none
  deriving Repr, Inhabited

/-- Between `least` and `most` digits, as many as there are. -/
def digits? (least most : Nat) (text : Text) : Option (Text × Text) :=
  let run := (text.take most).takeWhile Symbol.isDigit
  if run.length < least then none else some (run, text.drop run.length)

/-- What stands behind one character. -/
def after? (c : Symbol) : Text → Option Text
  | d :: rest => if c == d then some rest else none
  | [] => none

/-- A space or a tab. -/
def isSpaceOrTab (c : Symbol) : Bool :=
  c == ' ' || c == '\t'

/-- The zone that a text denotes; the outer value is missing if it denotes none. -/
def zone? (text : Text) : Option (Option (Option (Bool × Text × Text))) :=
  if text.isEmpty then some none
  else
    match text.dropWhile isSpaceOrTab with
    | ['Z'] => some (some none)
    | sign :: rest =>
      if sign == '-' || sign == '+' then
        match digits? 1 2 rest with
        | some (hours, []) => some (some (some (sign == '-', hours, [])))
        | some (hours, ':' :: rest) =>
          match digits? 2 2 rest with
          | some (minutes, []) => some (some (some (sign == '-', hours, minutes)))
          | _ => none
        | _ => none
      else none
    | [] => none

/-- The parts of a text that has the form of a day or an instant. -/
def instantText? (text : Text) : Option InstantText := do
  let (year, rest) ← digits? 4 4 text
  let rest ← after? '-' rest
  let (month, rest) ← digits? 1 2 rest
  let rest ← after? '-' rest
  let (day, rest) ← digits? 1 2 rest
  match rest with
  | [] => some { year, month, day }
  | c :: behind =>
    let rest ←
      if c == 'T' || c == 't' then some behind
      else if isSpaceOrTab c then some (behind.dropWhile isSpaceOrTab)
      else none
    let (hour, rest) ← digits? 1 2 rest
    let rest ← after? ':' rest
    let (minute, rest) ← digits? 2 2 rest
    let rest ← after? ':' rest
    let (second, rest) ← digits? 2 2 rest
    let (fraction, rest) :=
      match rest with
      | '.' :: rest => (rest.takeWhile Symbol.isDigit, rest.dropWhile Symbol.isDigit)
      | rest => ([], rest)
    let zone ← zone? rest
    some { year, month, day, time := some (hour, minute, second), fraction, zone }

/-- Days with two digits for month and day, and instants. -/
def isInstantForm (text : Text) : Bool :=
  match instantText? text with
  | some parts => parts.time.isSome || (parts.month.length == 2 && parts.day.length == 2)
  | none => false

/-- The type that the form of a text gives. -/
def Form.of (written : Text) : Form :=
  let text := withoutBreak written
  if truthWords.contains text then .truth
  else if isFloatForm text then .float
  else if isIntegerForm text then .integer
  else if text == "<<" then .merge
  else if nullWords.contains text then .null
  else if isInstantForm text then .instant
  else if text == "=" then .default
  else if text == "!" || text == "&" || text == "*" then .mark
  else .text

end ApiDocs.Yaml
