import ApiDocs.Yaml.Failure

/-!
# A place in a YAML document

A cursor stands in front of the characters that have not been read and counts
lines and columns.  Documents hold no null character, so that character stands
for the end.  The module also supplies the character classes of the format.
-/

namespace ApiDocs.Yaml

/-- The unread characters and where they stand. -/
structure Cursor where
  rest : Text
  index : Nat := 0
  line : Nat := 0
  column : Nat := 0
  deriving Repr, Inhabited

/-- Stands for the end of the document. -/
def endMark : Symbol := '\x00'

/-- The characters that break a line. -/
def isBreak (c : Symbol) : Bool :=
  c == '\n' || c == '\r' || c == '\u0085' || c == '\u2028' || c == '\u2029'

/-- A line break or the end. -/
def isBreakOrEnd (c : Symbol) : Bool :=
  isBreak c || c == endMark

/-- A space, a line break or the end. -/
def isSpaceOrEnd (c : Symbol) : Bool :=
  c == ' ' || isBreakOrEnd c

/-- A space, a tab, a line break or the end. -/
def isGap (c : Symbol) : Bool :=
  c == '\t' || isSpaceOrEnd c

/-- The characters of names: ASCII letters and digits, the dash and the underscore. -/
def isNameChar (c : Symbol) : Bool :=
  c.isAlphanum || c == '-' || c == '_'

/-- Hexadecimal digits. -/
def isHexDigit (c : Symbol) : Bool :=
  c.isDigit || ('a' ≤ c && c ≤ 'f') || ('A' ≤ c && c ≤ 'F')

/-- The characters that a document may hold. -/
def isAllowed (c : Symbol) : Bool :=
  let code := c.code
  code == 0x09 || code == 0x0A || code == 0x0D || (0x20 ≤ code && code ≤ 0x7E) || code == 0x85 ||
    (0xA0 ≤ code && code ≤ 0xFFFD) || 0x10000 ≤ code

namespace Cursor

/-- The next character. -/
def peek (cursor : Cursor) : Symbol :=
  cursor.rest.headD endMark

/-- The character at a distance. -/
def peekAt (cursor : Cursor) (distance : Nat) : Symbol :=
  (cursor.rest.drop distance).headD endMark

/-- Moves over one character. -/
def advance (cursor : Cursor) : Cursor :=
  match cursor.rest with
  | [] => cursor
  | c :: rest =>
    let moved := { cursor with rest, index := cursor.index + 1 }
    if c == '\r' && rest.headD endMark == '\n' then moved
    else if isBreak c then { moved with line := cursor.line + 1, column := 0 }
    else if c == '\uFEFF' then moved
    else { moved with column := cursor.column + 1 }

/-- Moves over several characters. -/
def advanceBy (cursor : Cursor) : Nat → Cursor
  | 0 => cursor
  | count + 1 => cursor.advance.advanceBy count

/-- The longest run of characters of a class, and the cursor behind it. -/
def takeWhile (cursor : Cursor) (inClass : Symbol → Bool) : Text × Cursor :=
  let run := cursor.rest.takeWhile inClass
  (run, cursor.advanceBy run.length)

/-- Moves over a run of characters of a class. -/
def skipWhile (cursor : Cursor) (inClass : Symbol → Bool) : Cursor :=
  (cursor.takeWhile inClass).2

/-- Moves over spaces. -/
def skipSpaces (cursor : Cursor) : Cursor :=
  cursor.skipWhile (· == ' ')

/-- Moves over a comment, if one starts here, up to the line break. -/
def skipComment (cursor : Cursor) : Cursor :=
  if cursor.peek == '#' then cursor.skipWhile fun c => !isBreakOrEnd c else cursor

/-- Moves over one line break and gives what it stands for; nothing if there is none. -/
def lineBreak (cursor : Cursor) : Text × Cursor :=
  match cursor.rest with
  | '\r' :: '\n' :: _ => ("\n", cursor.advanceBy 2)
  | c :: _ =>
    if c == '\r' || c == '\n' || c == '\u0085' then ("\n", cursor.advance)
    else if c == '\u2028' || c == '\u2029' then ([c], cursor.advance)
    else ([], cursor)
  | [] => ([], cursor)

/-- Whether a document marker of three equal characters stands here. -/
def atMarker (cursor : Cursor) (mark : Symbol) : Bool :=
  cursor.peekAt 0 == mark && cursor.peekAt 1 == mark && cursor.peekAt 2 == mark &&
    isGap (cursor.peekAt 3)

/-- Whether a line that starts here starts with a document marker. -/
def atSeparator (cursor : Cursor) : Bool :=
  cursor.atMarker '-' || cursor.atMarker '.'

/-- Whether the document ends here. -/
def atEnd (cursor : Cursor) : Bool :=
  cursor.peek == endMark

end Cursor

end ApiDocs.Yaml
