import ApiDocs.Proofs.Comment.Sections
import ApiDocs.Proofs.Text.Lines
import ApiDocs.Proofs.Text.Search

/-!
# Styles of comments

The same lines can be written as a block comment, where each line has a gutter, and as line
comments.  Taking the delimiters, gutters and slashes away gives the lines back, up to blank lines
at the ends and the blanks behind the last line; so both are read as the same comment.
-/

namespace ApiDocs.Comment

open ApiDocs.Text

/-- A line of a block comment behind its gutter. -/
def gutterLine (indent line : Text) : Text :=
  indent ++ .char '*' :: .char ' ' :: line

/-- A block comment with the given lines, each with the indentation of its gutter. -/
def blockComment (rows : List (Text × Text)) : Text :=
  ("/**\n" : Text) ++ rows.flatMap (fun row => gutterLine row.1 row.2 ++ ("\n" : Text)) ++
    (" */" : Text)

/-- A block comment with the given body. -/
def delimited (body : Text) : Text :=
  .char '/' :: .char '*' :: body ++ [.char '*', .char '/']

/-- A body without the star that belongs to the opening delimiter, if it begins with one. -/
def behindStar : Text → Text
  | '*' :: rest => rest
  | body => body

/-- A line of a line comment. -/
def slashLine (line : Text) : Text :=
  .char '/' :: .char '/' :: .char ' ' :: line

/-- A line comment with the given lines. -/
def lineComment (content : List Text) : Text :=
  unlines (content.map slashLine)

/-! ## Block comments -/

theorem dropGutter_gutterLine {indent : Text} (indents : ∀ symbol ∈ indent, isIndent symbol = true)
    (line : Text) : dropGutter (gutterLine indent line) = line := by
  have behind : (gutterLine indent line).dropWhile isIndent = .char '*' :: .char ' ' :: line := by
    rw [gutterLine, List.dropWhile_append_of_pos indents]
    exact List.dropWhile_cons_of_neg (by decide)
  simp only [dropGutter, behind]
  rfl

theorem not_isLineBreak_of_isIndent {symbol : Symbol} (indents : isIndent symbol = true) :
    isLineBreak symbol = false := by
  rw [isIndent, Bool.or_eq_true, beq_iff_eq, beq_iff_eq] at indents
  rcases indents with rfl | rfl <;> rfl

theorem isWhole_gutterLine {indent line : Text}
    (indents : ∀ symbol ∈ indent, isIndent symbol = true)
    (whole : IsWhole line) : IsWhole (gutterLine indent line) := by
  intro symbol member
  rcases List.mem_append.mp member with inIndent | behind
  · exact not_isLineBreak_of_isIndent (indents symbol inIndent)
  · rcases List.mem_cons.mp behind with rfl | behind
    · rfl
    · rcases List.mem_cons.mp behind with rfl | inLine
      · rfl
      · exact whole symbol inLine

/-- The lines between the delimiters. -/
theorem lines_rows {rows : List (Text × Text)}
    (whole : ∀ row ∈ rows, IsWhole (gutterLine row.1 row.2))
    (rest : Text) :
    lines (rows.flatMap (fun row => gutterLine row.1 row.2 ++ ("\n" : Text)) ++ rest) =
      rows.map (fun row => gutterLine row.1 row.2) ++ lines rest := by
  induction rows with
  | nil => rfl
  | cons row more ih =>
      obtain ⟨own, others⟩ := List.forall_mem_cons.mp whole
      rw [List.flatMap_cons, List.append_assoc, List.append_assoc, List.map_cons, List.cons_append,
        ← ih others]
      exact lines_append_feed own _

theorem dropClosing_append (body : Text) : dropClosing (body ++ [.char '*', .char '/']) = body := by
  rw [dropClosing, if_pos (endsWith_append body _), List.length_append]
  exact List.take_left

theorem trim_delimited (body : Text) : trim (delimited body) = delimited body := by
  rw [delimited, trim, List.cons_append, trimStart, List.dropWhile_cons_of_neg (by decide),
    ← List.cons_append, List.append_cons, trimEnd_concat rfl]

/--
A block comment is what stands between its delimiters, without the gutters.  An empty body leaves
one star for both delimiters, which the opening one takes.
-/
theorem unwrap_delimited {body : Text} (nonempty : body ≠ []) :
    unwrap (delimited body) = (lines (behindStar body)).map dropGutter := by
  have isBlock : startsWith (delimited body) [.char '/', .char '/'] = false := rfl
  have opened : dropOpening (delimited body) = behindStar body ++ [.char '*', .char '/'] := by
    obtain ⟨first, rest, rfl⟩ := List.exists_cons_of_ne_nil nonempty
    by_cases isStar : first = .char '*'
    · rw [isStar]
      rfl
    · rw [behindStar, delimited, List.cons_append, List.cons_append, dropOpening] <;> simp [isStar]
  rw [unwrap, trim_delimited, isBlock, opened, dropClosing_append]
  rfl

theorem unwrap_blockComment {rows : List (Text × Text)}
    (indents : ∀ row ∈ rows, ∀ symbol ∈ row.1, isIndent symbol = true)
    (whole : ∀ row ∈ rows, IsWhole row.2) :
    unwrap (blockComment rows) = [] :: rows.map Prod.snd ++ [[.char ' ']] := by
  have inside : lines (.char '\n' :: (rows.flatMap (fun row =>
        gutterLine row.1 row.2 ++ ("\n" : Text)) ++ [.char ' '])) =
      [] :: (rows.map (fun row => gutterLine row.1 row.2) ++ [[.char ' ']]) := by
    have wholeRows : ∀ row ∈ rows, IsWhole (gutterLine row.1 row.2) := fun row member =>
      isWhole_gutterLine (indents row member) (whole row member)
    exact congrArg ([] :: ·) (lines_rows wholeRows [.char ' '])
  have form : blockComment rows = delimited (.char '*' :: .char '\n' :: (rows.flatMap (fun row =>
        gutterLine row.1 row.2 ++ ("\n" : Text)) ++ [.char ' '])) := by
    rw [blockComment, delimited]
    simp [Text.ofString, Text.ofChars]
  have gutters : (rows.map fun row => gutterLine row.1 row.2).map dropGutter = rows.map Prod.snd := by
    rw [List.map_map]
    exact List.map_congr_left fun row member => dropGutter_gutterLine (indents row member) row.2
  rw [form, unwrap_delimited (List.cons_ne_nil _ _), behindStar, inside, List.map_cons,
    List.map_append, gutters]
  rfl

/-! ## Line comments -/

theorem dropSlashes_slashLine (line : Text) : dropSlashes (slashLine line) = line := by
  rfl

theorem exists_trimEnd_slashLine (line : Text) :
    ∃ rest, trimEnd (slashLine line) = .char '/' :: .char '/' :: rest ∧
      dropSlashes (trimEnd (slashLine line)) = trimEnd line := by
  have cut : slashLine line = [.char '/', .char '/'] ++ .char ' ' :: line := rfl
  cases blank : isBlankText line with
  | true =>
      have behind : isBlankText (.char ' ' :: line) = true := by
        rw [isBlankText, List.all_cons, ← isBlankText, blank]
        rfl
      rw [cut, trimEnd_append_of_isBlankText behind, trimEnd_eq_nil_iff.mpr blank]
      exact ⟨[], rfl, rfl⟩
  | false =>
      have stays : trimEnd ([.char '/', .char '/', .char ' '] ++ line) =
          [.char '/', .char '/', .char ' '] ++ trimEnd line := trimEnd_append blank
      change ∃ rest, trimEnd ([.char '/', .char '/', .char ' '] ++ line) = _ ∧
        dropSlashes (trimEnd ([.char '/', .char '/', .char ' '] ++ line)) = _
      rw [stays]
      exact ⟨_, rfl, dropSlashes_slashLine _⟩

theorem exists_unlines_slashes (front : List Text) {last behind : Text}
    (begins : last = .char '/' :: .char '/' :: behind) :
    ∃ rest, unlines (front.map slashLine ++ [last]) = .char '/' :: .char '/' :: rest := by
  cases front with
  | nil => exact ⟨behind, begins⟩
  | cons first more => cases more <;> exact ⟨_, rfl⟩

theorem unwrap_lineComment {front : List Text} {last : Text}
    (wholeFront : ∀ line ∈ front, IsWhole line)
    (wholeLast : IsWhole last) :
    unwrap (lineComment (front ++ [last])) = front ++ [trimEnd last] := by
  obtain ⟨behind, begins, ends⟩ := exists_trimEnd_slashLine last
  have wholeSlash {line : Text} (whole : IsWhole line) : IsWhole (slashLine line) := by
    simpa [IsWhole, slashLine] using ⟨rfl, rfl, whole⟩
  have started : ∃ rest, lineComment (front ++ [last]) = .char '/' :: .char '/' :: rest := by
    rw [lineComment, List.map_append]
    exact exists_unlines_slashes front rfl
  have trimmed : trim (lineComment (front ++ [last])) =
      unlines (front.map slashLine ++ [trimEnd (slashLine last)]) := by
    obtain ⟨rest, same⟩ := started
    have notBlank : isBlankText (slashLine last) = false := rfl
    rw [trim, same, trimStart, List.dropWhile_cons_of_neg (by decide), ← same, lineComment,
      List.map_append, List.map_singleton, trimEnd_unlines_concat _ notBlank]
  obtain ⟨rest, same⟩ := exists_unlines_slashes front begins
  have isLine : startsWith (.char '/' :: .char '/' :: rest) [.char '/', .char '/'] = true := rfl
  have seen : lines (unlines (front.map slashLine ++ [trimEnd (slashLine last)])) =
      front.map slashLine ++ [trimEnd (slashLine last)] := by
    refine lines_unlines ?_ ((wholeSlash wholeLast).of_subset (trimEnd_subset _)) (by simp [begins])
    intro piece member
    obtain ⟨line, inFront, rfl⟩ := List.mem_map.mp member
    exact wholeSlash (wholeFront line inFront)
  have slashes : dropSlashes ∘ slashLine = id := funext dropSlashes_slashLine
  rw [unwrap, trimmed, same, isLine, if_pos rfl, ← same, seen, List.map_append, List.map_map, slashes,
    List.map_id, List.map_singleton, ends]

/-! ## One comment in either style -/

theorem read_blockComment {rows : List (Text × Text)}
    (indents : ∀ row ∈ rows, ∀ symbol ∈ row.1, isIndent symbol = true)
    (whole : ∀ row ∈ rows, IsWhole row.2) :
    read (blockComment rows) = ofLines (rows.map Prod.snd) := by
  rw [read, unwrap_blockComment indents whole, ofLines_concat_blank rfl, ofLines_cons_nil]

theorem read_lineComment {content : List Text} (whole : ∀ line ∈ content, IsWhole line) :
    read (lineComment content) = ofLines content := by
  rcases List.eq_nil_or_concat' content with rfl | ⟨front, last, rfl⟩
  · rfl
  · have wholeLast := whole last (List.mem_append_right _ (List.mem_singleton.mpr rfl))
    rw [read, unwrap_lineComment (fun line member => whole line (List.mem_append_left _ member))
      wholeLast, ofLines_concat_trimEnd]

/-- A line feed behind a comment does not change it. -/
theorem read_append_feed (text : Text) : read (text ++ ("\n" : Text)) = read text := by
  have trimmed : trim (text ++ ("\n" : Text)) = trim text := trim_append_blank rfl
  rw [read, unwrap, trimmed, ← unwrap, ← read]

/--
Lines are read in the same way from a block comment, whatever the indentation of its gutter, and
from line comments.  They can be cut into a description and sections, and the comment is what
these say: a description that is trimmed and not empty, and for each tag, in the order in which
the tags were first seen, the values of its sections in their order.
-/
theorem read_in_either_style (rows : List (Text × Text))
    (indents : ∀ row ∈ rows, ∀ symbol ∈ row.1, isIndent symbol = true)
    (whole : ∀ row ∈ rows, IsWhole row.2) :
    (∃ description parts, Segments (rows.map Prod.snd) description parts) ∧
      ∀ description parts, Segments (rows.map Prod.snd) description parts →
        read (blockComment rows) = ofParts description parts ∧
        read (lineComment (rows.map Prod.snd)) = ofParts description parts ∧
        read (lineComment (rows.map Prod.snd) ++ ("\n" : Text)) = ofParts description parts := by
  have wholeLines : ∀ line ∈ rows.map Prod.snd, IsWhole line := by
    intro line member
    obtain ⟨row, inRows, rfl⟩ := List.mem_map.mp member
    exact whole row inRows
  refine ⟨exists_segments _, fun description parts cut => ?_⟩
  rw [read_append_feed, read_blockComment indents whole, read_lineComment wholeLines,
    ofLines_of_segments cut]
  exact ⟨rfl, rfl, rfl⟩

/-- Lines with gutters of several kinds. -/
def mixedRows : List (Text × Text) :=
  [("  ", "Adds up."), ("", ""), ("\t", "@since  1.0.0 "), (" ", "@example"), (" ", "   f(1)"),
    (" ", "     .g()"), (" ", "  @since 2.0.0"), (" ", "or so"), (" ", "@internal"), ("", "  ")]

theorem read_mixedRows :
    read (blockComment mixedRows) = read (lineComment (mixedRows.map Prod.snd)) ∧
      read (blockComment mixedRows) =
        { description := some "Adds up."
          tags := [("since", [some "1.0.0", some "2.0.0\nor so"]), ("example", [some "f(1)\n  .g()"]),
            ("internal", [none])] } := by
  obtain ⟨⟨description, parts, cut⟩, reads⟩ :=
    read_in_either_style mixedRows (by decide) (by decide)
  obtain ⟨block, line, -⟩ := reads description parts cut
  exact ⟨block.trans line.symm, by decide +kernel⟩

end ApiDocs.Comment
