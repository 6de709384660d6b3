import ApiDocs.Yaml.Scalar

/-!
# The tokens of a YAML document

The scan goes through the document once, and only as far as it is asked to: a
fault behind the last token that is asked for does not count.  The scan keeps the
indentation of the open block collections and, for every level of flow collections,
the place where a key without a mark of its own may have started.  When the colon
behind such a key is found, the token for the key is put in front of what was read
since; so a token is given out only when it is no longer such a place.
-/

namespace ApiDocs.Yaml

/-- A place where a key may have started: the number of its token, and where it stands. -/
structure KeyPlace where
  number : Nat
  /-- Whether what starts here can only be a key. -/
  required : Bool
  index : Nat
  line : Nat
  column : Nat
  deriving Repr, Inhabited

/-- The state of the scan. -/
structure Scan where
  cursor : Cursor
  /-- One more than the number of characters of the document. -/
  size : Nat
  /-- The tokens that were read and not yet given out. -/
  ready : List Token := []
  /-- The number of tokens that were given out. -/
  taken : Nat := 0
  indent : Int := -1
  outer : List Int := []
  flowLevel : Nat := 0
  keyAllowed : Bool := true
  /-- The places of possible keys, one for each level of flow collections, the innermost first. -/
  keys : List (Option KeyPlace) := [none]
  finished : Bool := false
  deriving Repr, Inhabited

namespace Scan

/-- Appends a token. -/
def emit (scan : Scan) (token : Token) : Scan :=
  { scan with ready := scan.ready ++ [token] }

/-- The possible key of the innermost level. -/
def key? (scan : Scan) : Option KeyPlace :=
  (scan.keys.head?).getD none

/-- Replaces the possible key of the innermost level. -/
def setKey (scan : Scan) (place : Option KeyPlace) : Scan :=
  { scan with keys := place :: scan.keys.drop 1 }

/-- Gives up the possible key of the innermost level; one that was required is an error. -/
def dropKey (scan : Scan) : Except Failure Scan :=
  match scan.key? with
  | some place => if place.required then malformed else .ok (scan.setKey none)
  | none => .ok scan

/-- Remembers that a key may start here, if one may. -/
def noteKey (scan : Scan) : Except Failure Scan := do
  if scan.keyAllowed then
    let scan ← scan.dropKey
    let cursor := scan.cursor
    pure (scan.setKey (some
      { number := scan.taken + scan.ready.length
        required := scan.flowLevel == 0 && scan.indent == (cursor.column : Int)
        index := cursor.index
        line := cursor.line
        column := cursor.column }))
  else pure scan

/-- Whether a place is too far back for a key: on another line, or too many characters ago. -/
def isStale (cursor : Cursor) (place : KeyPlace) : Bool :=
  place.line != cursor.line || 1024 < cursor.index - place.index

/-- Gives up the possible keys that are too far back. -/
def dropStaleKeys (scan : Scan) : Except Failure Scan := do
  let keys ← scan.keys.mapM fun key =>
    match key with
    | some place =>
      if isStale scan.cursor place then
        if place.required then malformed else pure none
      else pure (some place)
    | none => pure none
  pure { scan with keys }

/-- Closes the open block collections that are indented more than the given column. -/
def unwindFrom (column : Int) : List Int → Scan → Scan
  | outer, scan =>
    if scan.flowLevel != 0 || scan.indent ≤ column then scan
    else
      match outer with
      | [] => { scan with indent := -1 }
      | indent :: rest =>
        unwindFrom column rest ({ scan with indent, outer := rest }.emit .blockEnd)

/-- Closes the block collections that the given column is outside of. -/
def unwind (scan : Scan) (column : Int) : Scan :=
  unwindFrom column scan.outer scan

/-- Opens a block collection at a column, if the column is further in. -/
def enter (scan : Scan) (column : Nat) : Bool × Scan :=
  if scan.indent < (column : Int) then
    (true, { scan with outer := scan.indent :: scan.outer, indent := column })
  else (false, scan)

/-- Puts tokens in front of the token with the given number, which was not given out. -/
def insertAt (scan : Scan) (number : Nat) (added : List Token) : Scan :=
  let place := number - scan.taken
  { scan with ready := scan.ready.take place ++ added ++ scan.ready.drop place }

/-- Moves over one character. -/
def advance (scan : Scan) : Scan :=
  { scan with cursor := scan.cursor.advance }

/-- Moves over white space, comments and line breaks; after a line break a key may start. -/
def skipGaps : Nat → Scan → Scan
  | 0, scan => scan
  | fuel + 1, scan =>
    let behind := scan.cursor.skipSpaces.skipComment
    let (mark, next) := behind.lineBreak
    if mark.isEmpty then { scan with cursor := behind }
    else
      skipGaps fuel
        { scan with cursor := next, keyAllowed := scan.keyAllowed || scan.flowLevel == 0 }

/-- Moves to the next token. -/
def toNext (scan : Scan) : Scan :=
  let started :=
    if scan.cursor.index == 0 && scan.cursor.peek == '\uFEFF' then scan.advance else scan
  skipGaps scan.size started

/-! ## One kind of token after the other -/

/-- The end of the document. -/
def atStreamEnd (scan : Scan) : Except Failure Scan := do
  let scan ← (scan.unwind (-1)).dropKey
  pure { scan.emit .streamEnd with keyAllowed := false, finished := true }

/-- A directive. -/
def atDirective (scan : Scan) : Except Failure Scan := do
  let scan ← (scan.unwind (-1)).dropKey
  let (directive, cursor) ← readDirective scan.cursor
  pure { scan.emit (.directive directive) with cursor, keyAllowed := false }

/-- A document marker. -/
def atDocumentMarker (token : Token) (scan : Scan) : Except Failure Scan := do
  let scan ← (scan.unwind (-1)).dropKey
  pure { scan.emit token with cursor := scan.cursor.advanceBy 3, keyAllowed := false }

/-- The start of a flow collection. -/
def atFlowStart (token : Token) (scan : Scan) : Except Failure Scan := do
  let scan ← scan.noteKey
  pure
    { (scan.emit token).advance with
      flowLevel := scan.flowLevel + 1
      keys := none :: scan.keys
      keyAllowed := true }

/-- The end of a flow collection; there is one to end. -/
def atFlowEnd (token : Token) (scan : Scan) : Except Failure Scan := do
  let scan ← scan.dropKey
  if scan.flowLevel == 0 then malformed
  else
    pure
      { (scan.emit token).advance with
        flowLevel := scan.flowLevel - 1
        keys := scan.keys.drop 1
        keyAllowed := false }

/-- The comma between the entries of a flow collection. -/
def atFlowEntry (scan : Scan) : Except Failure Scan := do
  let scan ← scan.dropKey
  pure { (scan.emit .flowEntry).advance with keyAllowed := true }

/-- The dash in front of an entry of a block sequence. -/
def atBlockEntry (scan : Scan) : Except Failure Scan := do
  let scan ←
    if scan.flowLevel == 0 then
      if !scan.keyAllowed then malformed
      else
        let (opened, entered) := scan.enter scan.cursor.column
        pure (if opened then entered.emit .blockSequenceStart else entered)
    else pure scan
  let scan ← scan.dropKey
  pure { (scan.emit .blockEntry).advance with keyAllowed := true }

/-- The question mark in front of a key. -/
def atKey (scan : Scan) : Except Failure Scan := do
  let scan ←
    if scan.flowLevel == 0 then
      if !scan.keyAllowed then malformed
      else
        let (opened, entered) := scan.enter scan.cursor.column
        pure (if opened then entered.emit .blockMappingStart else entered)
    else pure scan
  let scan ← scan.dropKey
  pure { (scan.emit .key).advance with keyAllowed := scan.flowLevel == 0 }

/-- The colon in front of a value. -/
def atValue (scan : Scan) : Except Failure Scan := do
  let scan ←
    match scan.key? with
    | some place =>
      let scan := scan.setKey none
      let (opened, entered) :=
        if scan.flowLevel == 0 then scan.enter place.column else (false, scan)
      let added := if opened then [Token.blockMappingStart, .key] else [Token.key]
      pure { entered.insertAt place.number added with keyAllowed := false }
    | none =>
      if scan.flowLevel == 0 then
        if !scan.keyAllowed then malformed
        else
          let (opened, entered) := scan.enter scan.cursor.column
          let scan := if opened then entered.emit .blockMappingStart else entered
          Scan.dropKey { scan with keyAllowed := true }
      else Scan.dropKey { scan with keyAllowed := false }
  pure (scan.emit .value).advance

/-- An alias or an anchor. -/
def atAnchor (token : Text → Token) (scan : Scan) : Except Failure Scan := do
  let scan ← scan.noteKey
  let (name, cursor) ← readAnchor scan.cursor
  pure { scan.emit (token name) with cursor, keyAllowed := false }

/-- A tag. -/
def atTag (scan : Scan) : Except Failure Scan := do
  let scan ← scan.noteKey
  let (tag, cursor) ← readTag scan.cursor
  pure { scan.emit (.tag tag) with cursor, keyAllowed := false }

/-- A block scalar. -/
def atBlockScalar (folded : Bool) (scan : Scan) : Except Failure Scan := do
  let scan ← scan.dropKey
  let (text, cursor) ← readBlock folded scan.indent scan.cursor
  pure { scan.emit (.scalar text false) with cursor, keyAllowed := true }

/-- A quoted scalar. -/
def atQuoted (double : Bool) (scan : Scan) : Except Failure Scan := do
  let scan ← scan.noteKey
  let (text, cursor) ← readQuoted double scan.cursor
  pure { scan.emit (.scalar text false) with cursor, keyAllowed := false }

/-- A plain scalar. -/
def atPlain (scan : Scan) : Except Failure Scan := do
  let scan ← scan.noteKey
  let (text, broken, cursor) := readPlain (scan.flowLevel != 0) scan.indent scan.cursor
  pure { scan.emit (.scalar text true) with cursor, keyAllowed := broken }

/-- Whether a plain scalar may start here. -/
def plainStarts (scan : Scan) : Bool :=
  let c := scan.cursor.peek
  let next := scan.cursor.peekAt 1
  !(isGap c || c.isOneOf "-?:,[]\x7b\x7d#&*!|>'\"%@`") ||
    (!isGap next && (c == '-' || (scan.flowLevel == 0 && (c == '?' || c == ':'))))

/-- Reads the next token. -/
def step (scan : Scan) : Except Failure Scan := do
  let scan ← scan.toNext.dropStaleKeys
  let scan := scan.unwind (scan.cursor.column : Int)
  let cursor := scan.cursor
  let inFlow := scan.flowLevel != 0
  let next := cursor.peekAt 1
  match cursor.peek with
  | '\x00' => scan.atStreamEnd
  | '[' => scan.atFlowStart .flowSequenceStart
  | '\x7b' => scan.atFlowStart .flowMappingStart
  | ']' => scan.atFlowEnd .flowSequenceEnd
  | '\x7d' => scan.atFlowEnd .flowMappingEnd
  | ',' => scan.atFlowEntry
  | '*' => scan.atAnchor .alias
  | '&' => scan.atAnchor .anchor
  | '!' => scan.atTag
  | '\x27' => scan.atQuoted false
  | '"' => scan.atQuoted true
  | c =>
    if c == '%' && cursor.column == 0 then scan.atDirective
    else if c == '-' && cursor.column == 0 && cursor.atMarker '-' then
      scan.atDocumentMarker .documentStart
    else if c == '.' && cursor.column == 0 && cursor.atMarker '.' then
      scan.atDocumentMarker .documentEnd
    else if c == '-' && isGap next then scan.atBlockEntry
    else if c == '?' && (inFlow || isGap next) then scan.atKey
    else if c == ':' && (inFlow || isGap next) then scan.atValue
    else if c == '|' && !inFlow then scan.atBlockScalar false
    else if c == '>' && !inFlow then scan.atBlockScalar true
    else if scan.plainStarts then scan.atPlain
    else malformed

/-! ## Giving tokens out -/

/-- Whether the next token to be given out may still turn out to start a key. -/
def isUndecided (scan : Scan) : Bool :=
  scan.keys.any fun key =>
    match key with
    | some place => place.number == scan.taken
    | none => false

/-- Reads on until the next token to be given out is there and decided. -/
def fill : Nat → Scan → Except Failure Scan
  | 0, scan => .ok scan
  | fuel + 1, scan => do
    if scan.finished then pure scan
    else if scan.ready.isEmpty then fill fuel (← scan.step)
    else
      let scan ← scan.dropStaleKeys
      if scan.isUndecided then fill fuel (← scan.step) else pure scan

/-- The next token, and the scan that has it ready; behind the last one the end repeats. -/
def peek (scan : Scan) : Except Failure (Token × Scan) := do
  let scan ← fill (scan.size + 1) scan
  pure (scan.ready.headD .streamEnd, scan)

/-- Gives the next token out. -/
def skip (scan : Scan) : Scan :=
  { scan with ready := scan.ready.drop 1, taken := scan.taken + 1 }

/-- The scan of a document, which may hold only the characters of the format. -/
def start (document : Text) : Except Failure Scan :=
  if document.all isAllowed then
    .ok { cursor := { rest := document }, size := document.length + 1 }
  else malformed

end Scan

end ApiDocs.Yaml
