import ApiDocs.Comment.Basic
import ApiDocs.Text.Blank
import ApiDocs.Text.Lines
import ApiDocs.Text.Margin
import ApiDocs.Text.Search
import ApiDocs.Text.Word

/-!
# Reading documentation comments

Reading has two stages.  First the comment is unwrapped: its delimiters and the
gutter of each line go away and the lines of its content remain.  Then the lines
are scanned: a line that is a tag opens a section, the lines before the first
section are the description, and the lines of a section give the value of its
tag.  The value of an example keeps its layout, every other value is trimmed.
-/

namespace ApiDocs.Comment

open ApiDocs.Text

/-- Drops one space. -/
def dropSpace : Text → Text
  | ' ' :: rest => rest
  | text => text

/-- Drops the gutter of a line of a block comment: indentation, a star, and a space behind it. -/
def dropGutter (line : Text) : Text :=
  match line.dropWhile isIndent with
  | '*' :: rest => dropSpace rest
  | _ => line

/-- Drops the slashes that a line of a line comment starts with, and a space behind them. -/
def dropSlashes (line : Text) : Text :=
  match trimStart line with
  | '/' :: '/' :: rest => dropSpace (rest.dropWhile (· == '/'))
  | _ => line

/-- Drops the opening delimiter of a block comment, in its long or its short form. -/
def dropOpening (body : Text) : Text :=
  match body with
  | '/' :: '*' :: '*' :: rest => rest
  | '/' :: '*' :: rest => rest
  | _ => body

/-- Drops the closing delimiter of a block comment. -/
def dropClosing (body : Text) : Text :=
  if endsWith body ['*', '/'] then body.take (body.length - 2) else body

/-- The lines of the content of a comment. -/
def unwrap (text : Text) : List Text :=
  let body := trim text
  if startsWith body ['/', '/'] then (lines body).map dropSlashes
  else (lines (dropClosing (dropOpening body))).map dropGutter

/-- A line that opens a section: the name of the tag and the text behind it. -/
structure TagLine where
  name : Text
  rest : Text
  deriving DecidableEq, Repr, Inhabited

/-- The characters of a tag name behind its first letter. -/
def isTagChar (c : Symbol) : Bool :=
  isWordChar c || c == '-'

/-- The tag that a line opens, if it opens one. -/
def tagLine? (line : Text) : Option TagLine :=
  match trim line with
  | '@' :: letter :: text =>
    if letter.isAlpha then
      let behind := text.dropWhile isTagChar
      match behind with
      | [] => some ⟨letter :: text.takeWhile isTagChar, []⟩
      | c :: _ =>
        if isBlank c then some ⟨letter :: text.takeWhile isTagChar, trimStart behind⟩ else none
    else none
  | _ => none

/-- A section that is still open: its tag and its lines so far. -/
structure Section where
  name : Text
  lines : List Text
  deriving DecidableEq, Repr, Inhabited

/-- Drops the blank lines at both ends of a block. -/
def trimBlock (block : List Text) : List Text :=
  let started := block.dropWhile isBlankText
  (started.reverse.dropWhile isBlankText).reverse

/-- The value of an example: its block of lines, without blanks at line ends and without margin. -/
def exampleText (block : List Text) : Text :=
  unlines (dedentLines ((trimBlock block).map trimEnd))

/-- The value of any other tag: its lines as one trimmed text. -/
def plainText (block : List Text) : Text :=
  trim (unlines block)

/-- A text that is there only if it is not empty. -/
def nonEmpty? (text : Text) : Option Text :=
  if text.isEmpty then none else some (text)

/-- The value of a section. -/
def Section.value (opened : Section) : Option Text :=
  nonEmpty? (if opened.name = "example" then exampleText opened.lines
    else plainText opened.lines)

/-- What has been read of a comment. -/
structure Progress where
  description : List Text := []
  opened : Option Section := none
  tags : TagTable := []
  deriving Repr, Inhabited

/-- Closes the open section, if there is one. -/
def Progress.close (progress : Progress) : TagTable :=
  match progress.opened with
  | none => progress.tags
  | some opened => progress.tags.add (opened.name) opened.value

/-- Reads one line. -/
def Progress.step (progress : Progress) (line : Text) : Progress :=
  match tagLine? line with
  | some tag =>
    { progress with
      tags := progress.close
      opened := some ⟨tag.name, if tag.rest.isEmpty then [] else [tag.rest]⟩ }
  | none =>
    match progress.opened with
    | none => { progress with description := progress.description ++ [line] }
    | some opened =>
      { progress with opened := some { opened with lines := opened.lines ++ [line] } }

/-- The comment with the given lines. -/
def ofLines (content : List Text) : Comment :=
  let progress := content.foldl Progress.step {}
  { description := nonEmpty? (trim (unlines progress.description)), tags := progress.close }

/-- Reads a comment with its delimiters. -/
def read (text : Text) : Comment :=
  ofLines (unwrap text)

/-- The comment of a declaration: the last of the comments in front of it, or an empty one. -/
def ofBlocks (blocks : List Text) : Comment :=
  read (blocks.getLast?.getD "")

end ApiDocs.Comment
