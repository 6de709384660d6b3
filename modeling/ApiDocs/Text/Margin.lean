import ApiDocs.Text.Lines

/-!
# The common margin of a block of lines

A block of text may be indented as a whole.  The margin is the longest run of
spaces and tabs that every line with some other character starts with; removing
it brings the block to the left edge and keeps the relative indentation.  Lines
of spaces and tabs alone become empty and do not count for the margin.
-/

namespace ApiDocs.Text

/-- The characters that indent a line. -/
def isIndent (c : Symbol) : Bool :=
  c == ' ' || c == '\t'

/-- The longest common beginning of two texts. -/
def commonPrefix : Text → Text → Text
  | c :: first, d :: second => if c = d then c :: commonPrefix first second else []
  | _, _ => []

@[simp]
theorem commonPrefix_nil_left (second : Text) : commonPrefix [] second = [] := by
  cases second <;> rfl

/-- The indentation of a line that has a character other than spaces and tabs. -/
def indentOf? (line : Text) : Option Text :=
  if line.all isIndent then none else some (line.takeWhile isIndent)

/-- The margin of a block, if some line of it counts. -/
def margin? (block : List Text) : Option Text :=
  match block.filterMap indentOf? with
  | [] => none
  | first :: others => some (others.foldl commonPrefix first)

/-- Removes the margin from one line; a line of spaces and tabs becomes empty. -/
def outdentLine (margin line : Text) : Text :=
  if line.all isIndent then [] else line.drop margin.length

/-- Removes the common margin of a block. -/
def dedentLines (block : List Text) : List Text :=
  block.map (outdentLine ((margin? block).getD []))

/-- Removes the common margin of the lines of a text. -/
def dedent (text : Text) : Text :=
  unlines (dedentLines (fileLines text))

end ApiDocs.Text
