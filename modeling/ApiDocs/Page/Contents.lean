import ApiDocs.Number.Notation
import ApiDocs.Text.Lines
import ApiDocs.Text.Lowercase
import ApiDocs.Text.Search
import ApiDocs.Text.Word

/-!
# Tables of contents

The table of contents of a page lists its headings of the first three levels, each
with a link to its anchor.  What stands between two fence lines is code and has no
headings.  An anchor that was given before gets a number.
-/

namespace ApiDocs.Contents

/-- A heading of a page. -/
structure Heading where
  level : Nat
  title : Text
  deriving DecidableEq, Repr, Inhabited

/-- The deepest level that is listed. -/
def deepest : Nat := 3

/-- Whether a line begins or ends a piece of code. -/
def isFence (line : Text) : Bool :=
  Text.startsWith line "```"

/-- The heading that a trimmed line is, if it is one. -/
def heading? (line : Text) : Option Heading :=
  let marks : Text := line.takeWhile (· == '#')
  let level := marks.length
  match line.drop level with
  | c :: rest =>
    if 1 ≤ level && level ≤ deepest && Text.isBlank c then some ⟨level, Text.trim rest⟩ else none
  | [] => none

/-- The headings among some lines; `inCode` says whether the first one stands in code. -/
def headingsFrom (inCode : Bool) : List Text → List Heading
  | [] => []
  | line :: rest =>
    let trimmed := Text.trim line
    if isFence trimmed then headingsFrom (!inCode) rest
    else if inCode then headingsFrom inCode rest
    else (heading? trimmed).toList ++ headingsFrom inCode rest

/-- The headings of a page. -/
def headings (page : Text) : List Heading :=
  headingsFrom false (Text.lines page)

/-- The anchor of a title: its letters in lower case, with a dash for each blank. -/
def slug (title : Text) : Text :=
  ((Text.lower (Text.trim title)).filter fun c =>
    Text.isWordChar c || Text.isBlank c || c == '-').map fun c => if Text.isBlank c then '-' else c

/-- An anchor that was given `count` times before. -/
def numbered (anchor : Text) (count : Nat) : Text :=
  if count = 0 then anchor else anchor ++ "-" ++ Number.intText count

/-- The anchors of some titles, after the anchors that were asked for before. -/
def anchorsFrom (before : List Text) : List Text → List Text
  | [] => []
  | title :: rest =>
    let anchor := slug title
    numbered anchor (before.count anchor) :: anchorsFrom (anchor :: before) rest

/-- The anchors of some titles. -/
def anchors (titles : List Text) : List Text :=
  anchorsFrom [] titles

/-- The line for a heading; the topmost level is not indented. -/
def line (top : Nat) (heading : Heading) (anchor : Text) : Text :=
  Text.copies (2 * (heading.level - top)) ' ' ++ "- [" ++ heading.title ++ "](#" ++
    anchor ++ ")"

/-- The topmost level among some headings. -/
def top (list : List Heading) : Nat :=
  list.foldl (fun level heading => min level heading.level) deepest

/-- The table of contents of a page. -/
def ofPage (page : Text) : Text :=
  let list := headings page
  let anchors := anchors (list.map Heading.title)
  Text.unlines (List.zipWith (line (top list)) list anchors)

end ApiDocs.Contents
