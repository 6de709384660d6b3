import ApiDocs.Text.Symbol

/-!
# Plain values

Settings files and compiler options hold data without behaviour: the values of
JSON, and of YAML also dates, instants, bytes, sets and ordered pairs.  A map keeps its
entries in the order in which their keys first came; a key that comes again
replaces the value and keeps its place.  A truth value, an integer and a
floating-point number that denote the same number are the same key, and so are two
instants that are the same moment.  A collection that holds itself is cut where it
comes again: there stands only that the list or map around is meant.
-/

namespace ApiDocs

/-- A calendar day. -/
structure Date where
  year : Nat
  month : Nat
  day : Nat
  deriving DecidableEq, Repr, Inhabited

/-- A day with a time, and the distance from universal time in seconds if it is known. -/
structure Instant where
  date : Date
  hour : Nat
  minute : Nat
  second : Nat
  microsecond : Nat
  offset : Option Int
  deriving DecidableEq, Repr, Inhabited

/-- The number of days from the first day of the calendar to the first day of a year. -/
def daysBeforeYear (year : Nat) : Nat :=
  let past := year - 1
  past * 365 + past / 4 - past / 100 + past / 400

/-- Whether a year has a leap day. -/
def isLeapYear (year : Nat) : Bool :=
  year % 4 == 0 && (year % 100 != 0 || year % 400 == 0)

/-- The number of days of a month. -/
def daysInMonth (year month : Nat) : Nat :=
  if month == 2 then if isLeapYear year then 29 else 28
  else if [4, 6, 9, 11].contains month then 30
  else 31

/-- The number of a day, counted from the first day of the calendar. -/
def Date.number (date : Date) : Nat :=
  let before := (List.range (date.month - 1)).foldl
    (fun days month => days + daysInMonth date.year (month + 1)) (daysBeforeYear date.year)
  before + date.day

/-- The microseconds of an instant in universal time, if its distance from it is known. -/
def Instant.moment? (instant : Instant) : Option Int :=
  instant.offset.map fun offset =>
    let hours : Int := instant.date.number * 24 + instant.hour
    let seconds : Int := (hours * 60 + instant.minute) * 60 + instant.second - offset
    seconds * 1000000 + instant.microsecond

/-- Whether two instants are the same moment; without a zone, whether they are the same. -/
def Instant.sameMoment (first second : Instant) : Bool :=
  match first.moment?, second.moment? with
  | some left, some right => left == right
  | _, _ => first == second

/-- Data without behaviour. -/
inductive Value where
  | null
  | bool (truth : Bool)
  | int (value : Int)
  | float (value : Float)
  | text (value : Text)
  | list (items : List Value)
  | map (entries : List (Value × Value))
  | date (value : Date)
  | instant (value : Instant)
  | bytes (value : List UInt8)
  | set (items : List Value)
  | pair (first second : Value)
  /-- The list around this place, again. -/
  | enclosingList
  /-- The map around this place, again. -/
  | enclosingMap
  deriving Inhabited

namespace Value

/-- The entries of a map. -/
abbrev Entries := List (Value × Value)

/-- The integer that a floating-point number denotes, if it denotes one. -/
def integerOf? (value : Float) : Option Int :=
  let bits := value.toBits.toNat
  let negative := bits / Nat.pow 2 63 % 2 == 1
  let biased := bits / Nat.pow 2 52 % Nat.pow 2 11
  let fraction := bits % Nat.pow 2 52
  let signed (magnitude : Nat) : Int := if negative then -(magnitude : Int) else magnitude
  if biased == 0x7FF then none
  else if biased == 0 then if fraction == 0 then some 0 else none
  else
    let mantissa := Nat.pow 2 52 + fraction
    if 1075 ≤ biased then some (signed (mantissa * Nat.pow 2 (biased - 1075)))
    else
      let unit := Nat.pow 2 (1075 - biased)
      if mantissa % unit == 0 then some (signed (mantissa / unit)) else none

/-- The integer that a value denotes as a key, if it denotes one. -/
def keyInteger? : Value → Option Int
  | .bool truth => some (if truth then 1 else 0)
  | .int value => some value
  | .float value => integerOf? value
  | _ => none

/-- Whether two values are the same key of a map. -/
def sameKey (first second : Value) : Bool :=
  match keyInteger? first, keyInteger? second with
  | some left, some right => left == right
  | none, none =>
    match first, second with
    | .null, .null => true
    | .float left, .float right => left == right
    | .text left, .text right => left == right
    | .date left, .date right => left == right
    | .instant left, .instant right => left.sameMoment right
    | .bytes left, .bytes right => left == right
    | _, _ => false
  | _, _ => false

/-- The value under a key. -/
def lookup (key : Value) : Entries → Option Value
  | [] => none
  | (other, value) :: rest => if sameKey other key then some value else lookup key rest

/-- Sets the value under a key: in place if the key is there, at the end if it is new. -/
def insert (key value : Value) : Entries → Entries
  | [] => [(key, value)]
  | (other, old) :: rest =>
    if sameKey other key then (other, value) :: rest else (other, old) :: insert key value rest

@[simp]
theorem insert_nil (key value : Value) : insert key value [] = [(key, value)] := rfl

/-- Whether one item of a set is listed in front of another. -/
def isListedFirst : Value → Value → Bool
  | .int first, .int second => first ≤ second
  | .text first, .text second => Text.atMost first second
  | _, _ => true

/--
The set of the given items.  A set has no order of its own: numbers are listed by value and
texts by their characters.
-/
def ofItems (items : List Value) : Value :=
  .set (items.mergeSort isListedFirst)

/-- The map that comes from setting the given pairs one after the other. -/
def ofPairs (pairs : Entries) : Entries :=
  pairs.foldl (fun entries (key, value) => insert key value entries) []

/-- Whether the value is a text. -/
def isText : Value → Bool
  | .text _ => true
  | _ => false

end Value

end ApiDocs
