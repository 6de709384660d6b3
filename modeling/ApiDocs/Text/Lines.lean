import ApiDocs.Text.Symbol

/-!
# Lines of a text

Two notions of line are needed.  The lines *on screen* end at any of the eleven
line boundaries of the Unicode standard, where a carriage return followed by a
line feed counts as one; the lines *of a file* are separated by line feeds alone.
Reading a file first turns the other two end-of-line conventions into line feeds.
-/

namespace ApiDocs.Text

/-- The characters at which a line on screen ends. -/
def isLineBreak (c : Symbol) : Bool :=
  c == '\n' || c == '\r' || c == '\x0b' || c == '\x0c' || c == '\x1c' || c == '\x1d' ||
    c == '\x1e' || c == '\u0085' || c == '\u2028' || c == '\u2029'

/-- Puts a symbol in front of the first line. -/
def consLine (c : Symbol) : List Text → List Text
  | [] => [[c]]
  | line :: others => (c :: line) :: others

/--
The lines of a text without their line breaks.  A break at the end of the text
ends its last line and starts no further one, so the empty text has no line.
-/
def lines : Text → List Text
  | [] => []
  | '\r' :: '\n' :: rest => [] :: lines rest
  | c :: rest => if isLineBreak c then [] :: lines rest else consLine c (lines rest)

@[simp]
theorem lines_nil : lines [] = [] := rfl

/-- The pieces between line feeds; there is always at least one piece. -/
def fileLines : Text → List Text
  | [] => [[]]
  | c :: rest => if c = '\n' then [] :: fileLines rest else consLine c (fileLines rest)

@[simp]
theorem fileLines_nil : fileLines [] = [[]] := rfl

/-- Joins lines with line feeds. -/
def unlines (pieces : List Text) : Text :=
  joinWith "\n" pieces

@[simp]
theorem unlines_nil : unlines [] = [] := rfl

/-- Turns every carriage return, with the line feed after it if there is one, into a line feed. -/
def unifyBreaks : Text → Text
  | [] => []
  | '\r' :: '\n' :: rest => '\n' :: unifyBreaks rest
  | c :: rest => (if c = '\r' then '\n' else c) :: unifyBreaks rest

@[simp]
theorem unifyBreaks_nil : unifyBreaks [] = [] := rfl

end ApiDocs.Text
