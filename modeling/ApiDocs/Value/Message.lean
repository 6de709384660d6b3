import ApiDocs.Number.Notation
import ApiDocs.Text.Quoted
import ApiDocs.Value.Basic

/-!
# Values in messages

A message shows a value as a literal: texts are quoted, collections are
bracketed, days and instants are shown with their parts.  Standing alone as a
name, a text is shown without quotes and a day in the calendar's own notation.
-/

namespace ApiDocs

open Number (paddedDigits)

namespace Date

/-- The day as year, month and day with dashes. -/
def isoText (date : Date) : Text :=
  paddedDigits 4 date.year ++ "-" ++ paddedDigits 2 date.month ++ "-" ++ paddedDigits 2 date.day

/-- The parts of the day, separated by commas. -/
def partsText (date : Date) : Text :=
  Number.intText date.year ++ ", " ++ Number.intText date.month ++ ", " ++ Number.intText date.day

end Date

namespace Instant

/-- The distance from universal time as sign, hours, minutes and, if need be, seconds. -/
def offsetText (offset : Int) : Text :=
  let magnitude := offset.natAbs
  let seconds : Text := if magnitude % 60 == 0 then [] else ":" ++ paddedDigits 2 (magnitude % 60)
  (if offset < 0 then "-" else "+") ++ paddedDigits 2 (magnitude / 3600) ++ ":" ++
    paddedDigits 2 (magnitude / 60 % 60) ++ seconds

/-- Day and time in the calendar's notation, with the given separator between them. -/
def isoText (separator : Text) (instant : Instant) : Text :=
  let fraction : Text :=
    if instant.microsecond == 0 then [] else "." ++ paddedDigits 6 instant.microsecond
  instant.date.isoText ++ separator ++ paddedDigits 2 instant.hour ++ ":" ++
    paddedDigits 2 instant.minute ++ ":" ++ paddedDigits 2 instant.second ++ fraction ++
    (match instant.offset with
      | none => []
      | some offset => offsetText offset)

/-- A distance in days and seconds, where the seconds are never negative. -/
def durationText (seconds : Int) : Text :=
  let days := Int.fdiv seconds 86400
  let rest := Int.fmod seconds 86400
  let parts : List Text :=
    (if days == 0 then [] else ["days=" ++ Number.intText days]) ++
      (if rest == 0 then [] else ["seconds=" ++ Number.intText rest])
  let parts : List Text := if parts.isEmpty then ["0"] else parts
  "datetime.timedelta(" ++ Text.joinWith ", " parts ++ ")"

/-- The zone of an instant as a literal. -/
def zoneText (offset : Int) : Text :=
  if offset == 0 then "datetime.timezone.utc"
  else "datetime.timezone(" ++ durationText offset ++ ")"

/-- The instant as a literal. -/
def literal (instant : Instant) : Text :=
  let seconds : Text :=
    if instant.microsecond != 0 then
      ", " ++ Number.intText instant.second ++ ", " ++ Number.intText instant.microsecond
    else if instant.second != 0 then ", " ++ Number.intText instant.second
    else ""
  let zone : Text :=
    match instant.offset with
    | none => ""
    | some offset => ", tzinfo=" ++ zoneText offset
  "datetime.datetime(" ++ instant.date.partsText ++ ", " ++ Number.intText instant.hour ++ ", " ++
    Number.intText instant.minute ++ seconds ++ zone ++ ")"

end Instant

namespace Value

mutual

/-- The value as a literal. -/
def literal : Value → Text
  | .null => "None"
  | .bool true => "True"
  | .bool false => "False"
  | .int value => Number.intText value
  | .float value => Number.floatText .message value
  | .text value => Text.quoted value
  | .list items => "[" ++ Text.joinWith ", " (literals items) ++ "]"
  | .map entries => "\x7b" ++ Text.joinWith ", " (entryLiterals entries) ++ "\x7d"
  | .date value => "datetime.date(" ++ value.partsText ++ ")"
  | .instant value => value.literal
  | .bytes value => Text.quotedBytes value
  | .set [] => "set()"
  | .set (first :: others) =>
    "\x7b" ++ Text.joinWith ", " (literal first :: literals others) ++ "\x7d"
  | .pair first second => "(" ++ literal first ++ ", " ++ literal second ++ ")"
  | .enclosingList => "[...]"
  | .enclosingMap => "\x7b...\x7d"

/-- The literals of several values. -/
def literals : List Value → List Text
  | [] => []
  | value :: rest => literal value :: literals rest

/-- The literals of the entries of a map. -/
def entryLiterals : List (Value × Value) → List Text
  | [] => []
  | (key, value) :: rest => (literal key ++ ": " ++ literal value) :: entryLiterals rest

end

mutual

/-- Whether every integer of a value has few enough digits to be shown. -/
def isShowable : Value → Bool
  | .int value => Number.isShowable value
  | .list items => areShowable items
  | .map entries => haveShowableEntries entries
  | .set items => areShowable items
  | .pair first second => isShowable first && isShowable second
  | _ => true

/-- Whether several values can be shown. -/
def areShowable : List Value → Bool
  | [] => true
  | value :: rest => isShowable value && areShowable rest

/-- Whether the entries of a map can be shown. -/
def haveShowableEntries : List (Value × Value) → Bool
  | [] => true
  | (key, value) :: rest => isShowable key && isShowable value && haveShowableEntries rest

end

/-- The value as a name in a message. -/
def nameText : Value → Text
  | .text value => value
  | .date value => value.isoText
  | .instant value => value.isoText " "
  | value => value.literal

end Value

end ApiDocs
