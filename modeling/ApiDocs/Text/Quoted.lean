import ApiDocs.Text.Printable
import ApiDocs.Text.Symbol

/-!
# Quoted texts

A quoted text is a literal on one line.  The single quote delimits it, unless the
text has a single quote and no double quote.  The delimiter and the backslash are
escaped, the three common controls have letters, and every other character that
is not printable is shown by its code in two, four or eight digits.  A literal in
ASCII shows every other character outside ASCII by its code as well.
-/

namespace ApiDocs.Text

/-- The lower-case hexadecimal digit of a number below sixteen. -/
def hexDigit (value : Nat) : Symbol :=
  Nat.digitChar (value % 16)

/-- The last `width` hexadecimal digits of a number. -/
def hexDigits : Nat → Nat → Text
  | 0, _ => []
  | width + 1, value => hexDigits width (value / 16) ++ [hexDigit value]

/-- A symbol by its code. -/
def codeEscape (c : Symbol) : Text :=
  let code := c.code
  if code < 0x100 then '\\' :: 'x' :: hexDigits 2 code
  else if code < 0x10000 then '\\' :: 'u' :: hexDigits 4 code
  else '\\' :: 'U' :: hexDigits 8 code

/-- One symbol inside a literal with the given delimiter. -/
def quotedChar (delimiter c : Symbol) : Text :=
  if c == delimiter || c == '\\' then ['\\', c]
  else if c == '\t' then ['\\', 't']
  else if c == '\n' then ['\\', 'n']
  else if c == '\r' then ['\\', 'r']
  else if isPrintable c then [c]
  else codeEscape c

/-- The delimiter of the literal of a text. -/
def delimiterFor (text : Text) : Symbol :=
  if text.contains '\x27' && !text.contains '"' then '"' else '\x27'

/-- The literal of a text. -/
def quoted (text : Text) : Text :=
  let delimiter := delimiterFor text
  delimiter :: text.flatMap (quotedChar delimiter) ++ [delimiter]

/-- A literal in ASCII. -/
def asciiOnly (literal : Text) : Text :=
  literal.flatMap fun c => if c.code < 0x80 then [c] else codeEscape c

/-- One byte inside a literal of bytes. -/
def quotedByte (delimiter : Symbol) (byte : UInt8) : Text :=
  let c := Symbol.ofCode byte.toNat
  if c == delimiter || c == '\\' then ['\\', c]
  else if c == '\t' then ['\\', 't']
  else if c == '\n' then ['\\', 'n']
  else if c == '\r' then ['\\', 'r']
  else if 0x20 ≤ byte.toNat && byte.toNat ≤ 0x7E then [c]
  else '\\' :: 'x' :: hexDigits 2 byte.toNat

/-- The literal of a sequence of bytes, marked by a leading letter. -/
def quotedBytes (bytes : List UInt8) : Text :=
  let delimiter := delimiterFor (bytes.map fun byte => Symbol.ofCode byte.toNat)
  [.char 'b', delimiter] ++ bytes.flatMap (quotedByte delimiter) ++ [delimiter]

end ApiDocs.Text
