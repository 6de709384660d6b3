import ApiDocs.Number.Notation
import ApiDocs.Text.Pair
import ApiDocs.Text.Utf8
import ApiDocs.Yaml.Token

/-!
# Reading names, tags and scalars

The parts of a document that consist of characters: anchors, tags, directives,
and scalars in their five styles.  Every reader starts at a cursor and returns
what it read and the cursor behind it.
-/

namespace ApiDocs.Yaml

/-- The document breaks a rule of the format. -/
def malformed {α : Type} : Except Failure α :=
  .error .malformed

/-- Reads the name of an anchor or alias behind its mark. -/
def readAnchor (cursor : Cursor) : Except Failure (Text × Cursor) :=
  let (name, behind) := cursor.advance.takeWhile isNameChar
  let next := behind.peek
  if name.isEmpty then malformed
  else if isGap next || next.isOneOf "?:,]\x7d%@`" then .ok (name, behind)
  else malformed

/-! ## Tags and directives -/

/-- The value of two hexadecimal digits. -/
def hexPair (first second : Symbol) : UInt8 :=
  let digit (c : Symbol) : Nat :=
    if c.isDigit then c.code - '0'.toNat
    else if 'a' ≤ c then c.code - 'a'.toNat + 10
    else c.code - 'A'.toNat + 10
  (digit first * 16 + digit second).toUInt8

/-- Reads a run of percent escapes as bytes. -/
def readEscapedBytes : Nat → Cursor → Except Failure (List UInt8 × Cursor)
  | 0, cursor => .ok ([], cursor)
  | fuel + 1, cursor =>
    if cursor.peek == '%' then
      let first := cursor.peekAt 1
      let second := cursor.peekAt 2
      if isHexDigit first && isHexDigit second then do
        let (bytes, behind) ← readEscapedBytes fuel (cursor.advanceBy 3)
        pure (hexPair first second :: bytes, behind)
      else malformed
    else .ok ([], cursor)

/-- The characters of the URI of a tag, the escape mark apart. -/
def isUriChar (c : Symbol) : Bool :=
  c.isAlphanum || c.isOneOf "-;/?:@&=+$,_.!~*'()[]"

/-- Reads the URI of a tag. -/
def readUriFrom : Nat → Cursor → Except Failure (Text × Cursor)
  | 0, cursor => .ok ([], cursor)
  | fuel + 1, cursor =>
    let (run, behind) := cursor.takeWhile isUriChar
    if behind.peek == '%' then do
      let (bytes, behind) ← readEscapedBytes behind.rest.length behind
      match Text.Utf8.decode bytes with
      | .error _ => malformed
      | .ok decoded =>
        let (more, behind) ← readUriFrom fuel behind
        pure (run ++ decoded ++ more, behind)
    else .ok (run, behind)

/-- Reads the URI of a tag, which is not empty. -/
def readUri (cursor : Cursor) : Except Failure (Text × Cursor) := do
  let (uri, behind) ← readUriFrom (cursor.rest.length + 1) cursor
  if behind.index == cursor.index then malformed else pure (uri, behind)

/-- Reads a tag handle: an exclamation mark, alone or with a name and a second one. -/
def readHandle (cursor : Cursor) : Except Failure (Text × Cursor) :=
  if cursor.peek != '!' then malformed
  else if cursor.peekAt 1 == ' ' then .ok ("!", cursor.advance)
  else
    let (name, behind) := cursor.advance.takeWhile isNameChar
    if behind.peek == '!' then .ok ("!" ++ name ++ "!", behind.advance) else malformed

/-- Whether a tag has a handle: a second exclamation mark before the next gap. -/
def hasHandle (cursor : Cursor) : Bool :=
  (cursor.advance.rest.takeWhile fun c => !isSpaceOrEnd c).contains '!'

/-- Reads a tag. -/
def readTag (cursor : Cursor) : Except Failure (TagText × Cursor) := do
  let next := cursor.peekAt 1
  let (tag, behind) ←
    if next == '<' then do
      let (uri, behind) ← readUri (cursor.advanceBy 2)
      if behind.peek == '>' then pure ((⟨none, uri⟩ : TagText), behind.advance) else malformed
    else if isGap next then pure ((⟨none, "!"⟩ : TagText), cursor.advance)
    else if hasHandle cursor then do
      let (handle, behind) ← readHandle cursor
      let (suffix, behind) ← readUri behind
      pure ((⟨some handle, suffix⟩ : TagText), behind)
    else do
      let (suffix, behind) ← readUri cursor.advance
      pure ((⟨some "!", suffix⟩ : TagText), behind)
  if isSpaceOrEnd behind.peek then pure (tag, behind) else malformed

/-- Reads the number of a version. -/
def readVersionNumber (cursor : Cursor) : Except Failure (Nat × Cursor) :=
  let (digits, behind) := cursor.takeWhile Symbol.isDigit
  if digits.isEmpty then malformed
  else if Number.digitLimit < digits.length then
    .error (.invalidNumber (Number.tooManyDigitsText digits.length))
  else .ok (Number.digitsValue digits, behind)

/-- Moves over the rest of a line that may hold nothing but a comment. -/
def skipLineRest (cursor : Cursor) : Except Failure Cursor :=
  let behind := cursor.skipSpaces.skipComment
  if isBreakOrEnd behind.peek then .ok behind.lineBreak.2 else malformed

/-- Reads a directive. -/
def readDirective (cursor : Cursor) : Except Failure (Directive × Cursor) := do
  let (name, behind) := cursor.advance.takeWhile isNameChar
  if name.isEmpty || !isSpaceOrEnd behind.peek then malformed
  else
    let (directive, behind) ←
      if name == "YAML" then do
        let (major, behind) ← readVersionNumber behind.skipSpaces
        if behind.peek != '.' then malformed
        else
          let (minor, behind) ← readVersionNumber behind.advance
          if isSpaceOrEnd behind.peek then pure (Directive.version major minor, behind)
          else malformed
      else if name == "TAG" then do
        let (handle, behind) ← readHandle behind.skipSpaces
        if behind.peek != ' ' then malformed
        else
          let (uri, behind) ← readUri behind.skipSpaces
          if isSpaceOrEnd behind.peek then pure (Directive.tag handle uri, behind) else malformed
      else pure (Directive.other, behind.skipWhile fun c => !isBreakOrEnd c)
    let behind ← skipLineRest behind
    pure (directive, behind)

/-! ## Quoted scalars -/

/-- The characters of the one-letter escapes of a double-quoted scalar. -/
def escapes : List (Symbol × Symbol) :=
  [('0', '\x00'), ('a', '\x07'), ('b', '\x08'), ('t', '\t'), ('\t', '\t'), ('n', '\n'),
    ('v', '\x0b'), ('f', '\x0c'), ('r', '\r'), ('e', '\x1b'), (' ', ' '), ('"', '"'),
    ('\\', '\\'), ('/', '/'), ('N', '\u0085'), ('_', '\u00a0'), ('L', '\u2028'), ('P', '\u2029')]

/-- The number of digits of an escape by code. -/
def codeLength? : Symbol → Option Nat
  | 'x' => some 2
  | 'u' => some 4
  | 'U' => some 8
  | _ => none

/-- The value of a run of hexadecimal digits. -/
def hexNumber (digits : Text) : Nat :=
  digits.foldl
    (fun value c =>
      value * 16 +
        (if c.isDigit then c.code - '0'.toNat
        else if 'a' ≤ c then c.code - 'a'.toNat + 10
        else c.code - 'A'.toNat + 10))
    0

/-- The character with a code; half of a pair is kept as such. -/
def charOfCode (code : Nat) : Except Failure Symbol :=
  if 0x7FFFFFFF < code then .error .codeBeyondWord
  else if 0x10FFFF < code then .error .codeTooLarge
  else .ok (Symbol.ofCode code)

/--
What a line break is folded into, given the breaks that follow it: a plain one becomes a
space, or nothing if others follow; any other one stays.
-/
def foldedBreak (mark breaks : Text) : Text :=
  if mark != "\n" then mark else if breaks.isEmpty then " " else ""

@[simp]
theorem foldedBreak_plain_nil : foldedBreak "\n" [] = " " := rfl

/-- The line breaks, and the spaces and tabs around them, inside a quoted scalar. -/
def readQuotedBreaks : Nat → Cursor → Except Failure (Text × Cursor)
  | 0, cursor => .ok ([], cursor)
  | fuel + 1, cursor =>
    if cursor.atSeparator then malformed
    else
      let behind := cursor.skipWhile fun c => c == ' ' || c == '\t'
      if isBreak behind.peek then do
        let (mark, behind) := behind.lineBreak
        let (more, behind) ← readQuotedBreaks fuel behind
        pure (mark ++ more, behind)
      else .ok ([], behind)

/-- The white space inside a quoted scalar: one line break is a space, further ones are kept. -/
def readQuotedSpaces (cursor : Cursor) : Except Failure (Text × Cursor) :=
  let (blanks, behind) := cursor.takeWhile fun c => c == ' ' || c == '\t'
  if behind.atEnd then malformed
  else if isBreak behind.peek then do
    let (mark, behind) := behind.lineBreak
    let (breaks, behind) ← readQuotedBreaks (behind.rest.length + 1) behind
    pure (foldedBreak mark breaks ++ breaks, behind)
  else .ok (blanks, behind)

/-- Reads an escape of a double-quoted scalar behind its backslash. -/
def readEscape (cursor : Cursor) : Except Failure (Text × Cursor) :=
  let mark := cursor.peek
  match escapes.find? fun (letter, _) => letter == mark with
  | some (_, c) => .ok ([c], cursor.advance)
  | none =>
    match codeLength? mark with
    | some length => do
      let digits := cursor.advance.rest.take length
      if digits.length == length && digits.all isHexDigit then
        let c ← charOfCode (hexNumber digits)
        pure ([c], cursor.advanceBy (length + 1))
      else malformed
    | none =>
      if isBreak mark then
        let behind := cursor.lineBreak.2
        readQuotedBreaks (behind.rest.length + 1) behind
      else malformed

/-- The characters that end a run inside a quoted scalar. -/
def endsQuotedRun (c : Symbol) : Bool :=
  c == '\x27' || c == '"' || c == '\\' || isGap c

/-- Reads the part of a quoted scalar up to the next white space or the closing quote. -/
def readQuotedRun (double : Bool) : Nat → Cursor → Except Failure (Text × Cursor)
  | 0, cursor => .ok ([], cursor)
  | fuel + 1, cursor => do
    let (run, behind) := cursor.takeWhile fun c => !endsQuotedRun c
    let next := behind.peek
    if !double && next == '\x27' && behind.peekAt 1 == '\x27' then
      let (more, behind) ← readQuotedRun double fuel (behind.advanceBy 2)
      pure (run ++ "\x27" ++ more, behind)
    else if (double && next == '\x27') || (!double && (next == '"' || next == '\\')) then
      let (more, behind) ← readQuotedRun double fuel behind.advance
      pure (run ++ next :: more, behind)
    else if double && next == '\\' then
      let (escaped, behind) ← readEscape behind.advance
      let (more, behind) ← readQuotedRun double fuel behind
      pure (run ++ escaped ++ more, behind)
    else pure (run, behind)

/-- Reads the rest of a quoted scalar, white space and runs in turn, up to the closing quote. -/
def readQuotedRest (double : Bool) : Nat → Cursor → Except Failure (Text × Cursor)
  | 0, _ => malformed
  | fuel + 1, cursor =>
    if cursor.peek == (if double then '"' else '\x27') then .ok ([], cursor.advance)
    else do
      let (spaces, behind) ← readQuotedSpaces cursor
      let (run, behind) ← readQuotedRun double (behind.rest.length + 1) behind
      let (more, behind) ← readQuotedRest double fuel behind
      pure (spaces ++ run ++ more, behind)

/-- Reads a quoted scalar. -/
def readQuoted (double : Bool) (cursor : Cursor) : Except Failure (Text × Cursor) := do
  let start := cursor.advance
  let (run, behind) ← readQuotedRun double (start.rest.length + 1) start
  let (more, behind) ← readQuotedRest double (behind.rest.length + 1) behind
  pure (run ++ more, behind)

/-! ## Block scalars -/

/-- What happens to the line breaks at the end of a block scalar. -/
inductive Chomping where
  | clip
  | strip
  | keep
  deriving DecidableEq, Repr, Inhabited

/-- Reads the indicators behind the mark of a block scalar. -/
def readIndicators (cursor : Cursor) : Except Failure (Chomping × Option Nat × Cursor) := do
  let chomping? (c : Symbol) : Option Chomping :=
    if c == '+' then some .keep else if c == '-' then some .strip else none
  let first := cursor.peek
  let (chomping, increment, behind) ←
    match chomping? first with
    | some chomping =>
      let next := cursor.peekAt 1
      if next.isDigit then
        if next == '0' then malformed
        else pure (chomping, some (next.code - '0'.toNat), cursor.advanceBy 2)
      else pure (chomping, none, cursor.advance)
    | none =>
      if first.isDigit then
        if first == '0' then malformed
        else
          match chomping? (cursor.peekAt 1) with
          | some chomping => pure (chomping, some (first.code - '0'.toNat), cursor.advanceBy 2)
          | none => pure (Chomping.clip, some (first.code - '0'.toNat), cursor.advance)
      else pure (Chomping.clip, none, cursor)
  if isSpaceOrEnd behind.peek then pure (chomping, increment, behind) else malformed

/-- The blank lines in front of a block scalar and the widest indentation among them. -/
def readIndentation : Nat → Nat → Cursor → Text × Nat × Cursor
  | 0, widest, cursor => ([], widest, cursor)
  | fuel + 1, widest, cursor =>
    if cursor.peek == ' ' then
      let behind := cursor.advance
      readIndentation fuel (max widest behind.column) behind
    else if isBreak cursor.peek then
      let (mark, behind) := cursor.lineBreak
      let (more, widest, behind) := readIndentation fuel widest behind
      (mark ++ more, widest, behind)
    else ([], widest, cursor)

/-- Moves over spaces, but not beyond the given column. -/
def skipIndent (indent : Nat) : Nat → Cursor → Cursor
  | 0, cursor => cursor
  | fuel + 1, cursor =>
    if cursor.column < indent && cursor.peek == ' ' then skipIndent indent fuel cursor.advance
    else cursor

/-- The line breaks between two lines of a block scalar. -/
def readBlockBreaks (indent : Nat) : Nat → Cursor → Text × Cursor
  | 0, cursor => ([], cursor)
  | fuel + 1, cursor =>
    let behind := skipIndent indent indent cursor
    if isBreak behind.peek then
      let (mark, behind) := behind.lineBreak
      let (more, behind) := readBlockBreaks indent fuel behind
      (mark ++ more, behind)
    else ([], behind)

/-- The lines of a block scalar behind the line breaks `breaks`. -/
def readBlockLines (folded : Bool) (chomping : Chomping) (indent : Nat) :
    Nat → Text → Text → Cursor → Text × Cursor
  | 0, _, _, cursor => ([], cursor)
  | fuel + 1, lastBreak, breaks, cursor =>
    let ending (mark breaks : Text) : Text :=
      match chomping with
      | .strip => []
      | .clip => mark
      | .keep => mark ++ breaks
    if cursor.column == indent && !cursor.atEnd then
      let startsDark := !(cursor.peek == ' ' || cursor.peek == '\t')
      let (line, behind) := cursor.takeWhile fun c => !isBreakOrEnd c
      let (mark, behind) := behind.lineBreak
      let (next, behind) := readBlockBreaks indent (behind.rest.length + 1) behind
      if behind.column == indent && !behind.atEnd then
        let darkNext := !(behind.peek == ' ' || behind.peek == '\t')
        let joint := if folded && startsDark && darkNext then foldedBreak mark next else mark
        let (more, behind) := readBlockLines folded chomping indent fuel mark next behind
        (breaks ++ line ++ joint ++ more, behind)
      else (breaks ++ line ++ ending mark next, behind)
    else (ending lastBreak breaks, cursor)

/-- Reads a block scalar in a collection with the given indentation. -/
def readBlock (folded : Bool) (parent : Int) (cursor : Cursor) :
    Except Failure (Text × Cursor) := do
  let (chomping, increment, behind) ← readIndicators cursor.advance
  let behind ← skipLineRest behind
  let least : Nat := (max (parent + 1) 1).toNat
  let size := behind.rest.length + 1
  let (breaks, indent, behind) :=
    match increment with
    | none =>
      let (breaks, widest, behind) := readIndentation size 0 behind
      (breaks, max least widest, behind)
    | some increment =>
      let indent := least + increment - 1
      let (breaks, behind) := readBlockBreaks indent size behind
      (breaks, indent, behind)
  pure (readBlockLines folded chomping indent size [] breaks behind)

/-! ## Plain scalars -/

/-- The white space behind a part of a plain scalar. -/
structure PlainGap where
  /-- What the white space stands for; nothing if the scalar ends here. -/
  text : Text
  /-- Whether a line break was passed. -/
  broken : Bool
  behind : Cursor

/-- The line breaks of a gap; nothing if a document marker follows. -/
def readPlainBreaks : Nat → Cursor → Option Text × Cursor
  | 0, cursor => (some [], cursor)
  | fuel + 1, cursor =>
    if cursor.peek == ' ' then readPlainBreaks fuel cursor.advance
    else if isBreak cursor.peek then
      let (mark, behind) := cursor.lineBreak
      if behind.atSeparator then (none, behind)
      else
        match readPlainBreaks fuel behind with
        | (some more, behind) => (some (mark ++ more), behind)
        | (none, behind) => (none, behind)
    else (some [], cursor)

/-- Reads the white space behind a part of a plain scalar. -/
def readPlainGap (cursor : Cursor) : PlainGap :=
  let (spaces, behind) := cursor.takeWhile (· == ' ')
  if isBreak behind.peek then
    let (mark, behind) := behind.lineBreak
    if behind.atSeparator then ⟨[], true, behind⟩
    else
      match readPlainBreaks (behind.rest.length + 1) behind with
      | (none, behind) => ⟨[], true, behind⟩
      | (some breaks, behind) =>
        ⟨foldedBreak mark breaks ++ breaks, true, behind⟩
  else ⟨spaces, false, behind⟩

/-- The longest run of characters that are part of a plain scalar. -/
def plainRun (inFlow : Bool) : Text → Text
  | [] => []
  | c :: rest =>
    let next := rest.headD endMark
    if isGap c || (c == ':' && (isGap next || (inFlow && next.isOneOf ",[]\x7b\x7d"))) ||
        (inFlow && c.isOneOf ",?[]\x7b\x7d") then []
    else c :: plainRun inFlow rest

/-- Reads a plain scalar; the result also says whether its last gap passed a line break. -/
def readPlainFrom (inFlow : Bool) (indent : Int) :
    Nat → Text → Bool → Cursor → Text × Bool × Cursor
  | 0, _, broken, cursor => ([], broken, cursor)
  | fuel + 1, gap, broken, cursor =>
    if cursor.peek == '#' then ([], broken, cursor)
    else
      let run := plainRun inFlow cursor.rest
      if run.isEmpty then ([], broken, cursor)
      else
        let next := readPlainGap (cursor.advanceBy run.length)
        if next.text.isEmpty || next.behind.peek == '#' ||
            (!inFlow && (next.behind.column : Int) < indent) then
          (gap ++ run, next.broken, next.behind)
        else
          let (more, broken, behind) :=
            readPlainFrom inFlow indent fuel next.text next.broken next.behind
          (gap ++ run ++ more, broken, behind)

/-- Reads a plain scalar in a collection with the given indentation. -/
def readPlain (inFlow : Bool) (parent : Int) (cursor : Cursor) : Text × Bool × Cursor :=
  readPlainFrom inFlow (parent + 1) (cursor.rest.length + 1) [] false cursor

end ApiDocs.Yaml
