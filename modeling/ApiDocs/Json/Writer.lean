import ApiDocs.Number.Notation
import ApiDocs.Text.Quoted
import ApiDocs.Value.Basic

/-!
# Writing JSON

Compiler options are written as an indented document in ASCII.  Numbers, truth
values and the null value may be names in an object and are then quoted.  Values
that have no place in JSON are refused: as a value by what they are, as a name
because only the kinds above can be names.  So are an integer that cannot be shown
and a collection that holds itself.
-/

namespace ApiDocs.Json

/-- Why a value cannot be written. -/
inductive Unwritable where
  | value (kind : Text)
  | name (kind : Text)
  | longInteger
  | endless
  deriving DecidableEq, Repr, Inhabited

/-- The sentence for a value that cannot be written. -/
def Unwritable.message : Unwritable → Text
  | .value kind => "Object of type " ++ kind ++ " is not JSON serializable"
  | .name kind => "keys must be str, int, float, bool or None, not " ++ kind
  | .longInteger => Number.unshowableText
  | .endless => "Circular reference detected"

/-- The word for the kind of a value. -/
def kindName : Value → Text
  | .null => "NoneType"
  | .bool _ => "bool"
  | .int _ => "int"
  | .float _ => "float"
  | .text _ => "str"
  | .list _ => "list"
  | .map _ => "dict"
  | .date _ => "date"
  | .instant _ => "datetime"
  | .bytes _ => "bytes"
  | .set _ => "set"
  | .pair _ _ => "tuple"
  | .enclosingList => "list"
  | .enclosingMap => "dict"

/-- A code unit as an escape. -/
def unitEscape (unit : Nat) : Text :=
  '\\' :: 'u' :: Text.hexDigits 4 unit

/-- One symbol inside a string. -/
def stringChar (c : Symbol) : Text :=
  if c == '"' then ['\\', '"']
  else if c == '\\' then ['\\', '\\']
  else if c == '\n' then ['\\', 'n']
  else if c == '\r' then ['\\', 'r']
  else if c == '\t' then ['\\', 't']
  else if c == '\x0c' then ['\\', 'f']
  else if c == '\x08' then ['\\', 'b']
  else if 0x20 ≤ c.code && c.code ≤ 0x7E then [c]
  else if c.code < 0x10000 then unitEscape c.code
  else
    let offset := c.code - 0x10000
    unitEscape (0xD800 + offset / 0x400) ++ unitEscape (0xDC00 + offset % 0x400)

/-- A string with its quotes. -/
def stringText (text : Text) : Text :=
  "\"" ++ text.flatMap stringChar ++ "\""

/-- The text of an integer that can be shown. -/
def integerText (value : Int) : Except Unwritable Text :=
  if Number.isShowable value then .ok (Number.intText value) else .error .longInteger

/-- A value as a name in an object. -/
def nameOf : Value → Except Unwritable Text
  | .text value => .ok value
  | .float value => .ok (Number.floatText .json value)
  | .bool true => .ok "true"
  | .bool false => .ok "false"
  | .null => .ok "null"
  | .int value => integerText value
  | value => .error (.name (kindName value))

/-- A line break and the indentation of a level. -/
def newline (level : Nat) : Text :=
  '\n' :: Text.copies (2 * level) ' '

mutual

/-- The text of a value on the given level of nesting. -/
def valueText (level : Nat) : Value → Except Unwritable Text
  | .null => .ok "null"
  | .bool true => .ok "true"
  | .bool false => .ok "false"
  | .int value => integerText value
  | .float value => .ok (Number.floatText .json value)
  | .text value => .ok (stringText value)
  | .enclosingList => .error .endless
  | .enclosingMap => .error .endless
  | .list [] => .ok "[]"
  | .list (first :: others) => do
    let head ← valueText (level + 1) first
    let tail ← itemTexts (level + 1) others
    pure ("[" ++ newline (level + 1) ++
      Text.joinWith ("," ++ newline (level + 1)) (head :: tail) ++ newline level ++ "]")
  | .pair first second => do
    let head ← valueText (level + 1) first
    let tail ← valueText (level + 1) second
    pure ("[" ++ newline (level + 1) ++ head ++ "," ++ newline (level + 1) ++ tail ++
      newline level ++ "]")
  | .map [] => .ok "\x7b\x7d"
  | .map (first :: others) => do
    let members ← memberTexts (level + 1) (first :: others)
    pure ("\x7b" ++ newline (level + 1) ++
      Text.joinWith ("," ++ newline (level + 1)) members ++ newline level ++ "\x7d")
  | value => .error (.value (kindName value))

/-- The texts of the items of an array. -/
def itemTexts (level : Nat) : List Value → Except Unwritable (List Text)
  | [] => .ok []
  | value :: rest => do
    let head ← valueText level value
    let tail ← itemTexts level rest
    pure (head :: tail)

/-- The texts of the members of an object. -/
def memberTexts (level : Nat) : List (Value × Value) → Except Unwritable (List Text)
  | [] => .ok []
  | (key, value) :: rest => do
    let name ← nameOf key
    let content ← valueText level value
    let tail ← memberTexts level rest
    pure ((stringText name ++ ": " ++ content) :: tail)

end

/-- The document of a value. -/
def write (value : Value) : Except Unwritable Text :=
  valueText 0 value

end ApiDocs.Json
