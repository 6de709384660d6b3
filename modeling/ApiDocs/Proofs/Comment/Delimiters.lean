import ApiDocs.Proofs.Comment.Example

/-!
# Delimiters of block comments

A block comment is read as its body: the lines of the body, behind the star that may belong to the
opening delimiter, without their gutters.  This comment is said here by relations, for each line
and for the whole body, and not by the reader.

The reader finds it for every body but the empty one.  There the two delimiters of the long form
share a star, so the slash of the closing one is left and becomes the description.
-/

namespace ApiDocs.Comment

open ApiDocs.Text

/-! ## Gutters -/

/-- A line of a block comment, and what stands behind its gutter. -/
inductive BehindGutter : Text → Text → Prop
  /-- A space behind the star belongs to the gutter. -/
  | spaced {indent : Text} (indents : ∀ symbol ∈ indent, isIndent symbol = true) (kept : Text) :
      BehindGutter (indent ++ .char '*' :: .char ' ' :: kept) kept
  | tight {indent kept : Text} (indents : ∀ symbol ∈ indent, isIndent symbol = true)
      (noSpace : kept.head? ≠ some (.char ' ')) : BehindGutter (indent ++ .char '*' :: kept) kept
  | none {line : Text} (noStar : ∀ indent rest, (∀ symbol ∈ indent, isIndent symbol = true) →
      line ≠ indent ++ .char '*' :: rest) : BehindGutter line line

variable {line kept text body : Text} {content : List Text} {symbol : Symbol}

theorem dropWhile_isIndent_append_star {indent : Text}
    (indents : ∀ symbol ∈ indent, isIndent symbol = true) (rest : Text) :
    (indent ++ .char '*' :: rest).dropWhile isIndent = .char '*' :: rest := by
  rw [List.dropWhile_append_of_pos indents, List.dropWhile_cons_of_neg (by decide)]

theorem dropGutter_of_behindGutter (behind : BehindGutter line kept) : dropGutter line = kept := by
  cases behind with
  | spaced indents kept =>
      simp only [dropGutter, dropWhile_isIndent_append_star indents]
      rfl
  | tight indents noSpace =>
      simp only [dropGutter, dropWhile_isIndent_append_star indents]
      rw [dropSpace.eq_def]
      split
      · exact absurd rfl noSpace
      · rfl
  | none noStar =>
      rw [dropGutter]
      split
      · rename_i rest same
        refine absurd ?_ (noStar (line.takeWhile isIndent) rest fun symbol => List.mem_takeWhile_imp)
        rw [← same, List.takeWhile_append_dropWhile]
      · rfl

theorem behindGutter_dropGutter (line : Text) : BehindGutter line (dropGutter line) := by
  have indents : ∀ symbol ∈ line.takeWhile isIndent, isIndent symbol = true :=
    fun symbol => List.mem_takeWhile_imp
  have cut : line.takeWhile isIndent ++ line.dropWhile isIndent = line :=
    List.takeWhile_append_dropWhile
  rw [dropGutter]
  split
  · rename_i rest same
    rw [same] at cut
    rw [dropSpace.eq_def]
    split
    · rename_i kept
      have behind := BehindGutter.spaced indents kept
      rwa [cut] at behind
    · rename_i noSpace
      have behind : BehindGutter _ rest := .tight indents fun space => by
        obtain ⟨kept, rfl⟩ := List.head?_eq_some_iff.mp space
        exact noSpace kept rfl
      rwa [cut] at behind
  · rename_i noStar
    refine .none fun indent rest indents same => noStar rest ?_
    rw [same, dropWhile_isIndent_append_star indents]

theorem forall₂_behindGutter_iff {rows : List Text} :
    List.Forall₂ BehindGutter rows content ↔ content = rows.map dropGutter := by
  have behind : BehindGutter = fun line kept => kept = dropGutter line := by
    funext line kept
    refine propext ⟨fun behind => (dropGutter_of_behindGutter behind).symm, ?_⟩
    rintro rfl
    exact behindGutter_dropGutter line
  rw [behind, List.forall₂_iff_get]
  constructor
  · rintro ⟨length, each⟩
    refine List.ext_get (by simp [length]) fun index inContent inRows => ?_
    simpa using each index (length ▸ inContent) inContent
  · rintro rfl
    exact ⟨by simp, by simp⟩

/-! ## The comment of a body -/

/--
The comment that a body stands for.  The lines of the body, behind the star that may belong to the
opening delimiter and without their gutters, are a description and sections, and these say what the
comment is.
-/
def IsCommentOf (body : Text) (comment : Comment) : Prop :=
  ∃ content description parts, List.Forall₂ BehindGutter (lines (behindStar body)) content ∧
    Segments content description parts ∧ comment = ofParts description parts

theorem isCommentOf_iff {comment : Comment} :
    IsCommentOf body comment ↔ comment = ofLines ((lines (behindStar body)).map dropGutter) := by
  constructor
  · rintro ⟨content, description, parts, behind, cut, rfl⟩
    rw [← forall₂_behindGutter_iff.mp behind, ofLines_of_segments cut]
  · rintro rfl
    obtain ⟨description, parts, cut⟩ := exists_segments ((lines (behindStar body)).map dropGutter)
    exact ⟨_, description, parts, forall₂_behindGutter_iff.mpr rfl, cut, ofLines_of_segments cut⟩

/-! ## What a comment shows -/

/-- The comment has a text for its description or as a value of a tag. -/
def Shows (comment : Comment) (text : Text) : Prop :=
  comment.description = some text ∨ ∃ entry ∈ comment.tags, some text ∈ entry.2

theorem mem_of_mem_unlines {block : List Text} (member : symbol ∈ unlines block) :
    symbol = .char '\n' ∨ ∃ line ∈ block, symbol ∈ line := by
  by_contra absent
  rw [not_or, not_exists] at absent
  refine not_mem_joinWith ?_ (fun line (inBlock : line ∈ block) inLine => ?_) member
  · simpa [Text.ofString, Text.ofChars] using absent.1
  · exact absent.2 line ⟨inBlock, inLine⟩

theorem mem_of_mem_plainText {block : List Text} (member : symbol ∈ plainText block) :
    symbol = .char '\n' ∨ ∃ line ∈ block, symbol ∈ line :=
  mem_of_mem_unlines (trim_subset _ member)

theorem mem_of_mem_exampleText {block : List Text} (member : symbol ∈ exampleText block) :
    symbol = .char '\n' ∨ ∃ line ∈ block, symbol ∈ line := by
  refine (mem_of_mem_unlines member).imp_right ?_
  rintro ⟨line, inExample, inLine⟩
  obtain ⟨trimmed, inBlock, rfl⟩ := List.mem_map.mp inExample
  obtain ⟨original, inTrimmed, rfl⟩ := List.mem_map.mp inBlock
  refine ⟨original, trimBlock_subset block inTrimmed, trimEnd_subset original ?_⟩
  rw [outdentLine] at inLine
  split at inLine
  · cases inLine
  · exact List.mem_of_mem_drop inLine

/-- What a comment shows is made of its lines, and of line feeds that join them. -/
theorem mem_of_shows (shows : Shows (ofLines content) text) (member : symbol ∈ text) :
    symbol = .char '\n' ∨ ∃ line ∈ content, symbol ∈ line := by
  obtain ⟨description, parts, cut⟩ := exists_segments content
  rw [ofLines_of_segments cut] at shows
  rcases shows with described | ⟨entry, inTags, inValues⟩
  · obtain ⟨rfl, -⟩ := nonEmpty?_eq_some_iff.mp described
    refine (mem_of_mem_plainText member).imp_right ?_
    rintro ⟨line, inDescription, inLine⟩
    exact ⟨line, by rw [cut.whole]; exact List.mem_append_left _ inDescription, inLine⟩
  · obtain ⟨name, -, rfl⟩ := List.mem_map.mp inTags
    obtain ⟨part, inName, made⟩ := List.mem_map.mp inValues
    have inParts := List.mem_of_mem_filter inName
    have ofBlock : symbol = .char '\n' ∨ ∃ line ∈ part.tag.rest :: part.body, symbol ∈ line := by
      rw [Part.value, Section.value, nonEmpty?_eq_some_iff] at made
      obtain ⟨rfl, -⟩ := made
      split at member
      · exact mem_of_mem_exampleText member
      · exact mem_of_mem_plainText member
    refine ofBlock.imp_right ?_
    rintro ⟨line, inBlock, inLine⟩
    have ofPart {line : Text} (inPart : line ∈ part.lines) : line ∈ content := by
      rw [cut.whole]
      exact List.mem_append_right _ (List.mem_flatMap.mpr ⟨part, inParts, inPart⟩)
    rcases List.mem_cons.mp inBlock with rfl | inBody
    · exact ⟨part.head, ofPart List.mem_cons_self, (cut.heads part inParts).rest_subset inLine⟩
    · exact ⟨line, ofPart (List.mem_cons_of_mem _ inBody), inLine⟩

/-! ## Reading between the delimiters -/

theorem behindStar_subset (body : Text) : behindStar body ⊆ body := by
  rw [behindStar.eq_def]
  split
  · exact List.subset_cons_self _ _
  · exact List.Subset.refl _

theorem read_delimited (nonempty : body ≠ []) :
    read (delimited body) = ofLines ((lines (behindStar body)).map dropGutter) := by
  rw [read, unwrap_delimited nonempty]

/-- The slash of the closing delimiter is all that is left of an empty body. -/
theorem read_delimited_nil : read (delimited []) = { description := some "/" } := by
  decide +kernel

/--
A block comment is read as the comment that its body stands for exactly if the body is not empty;
and exactly then every symbol that the comment shows is one of the body, or a line feed that joins
its lines.
-/
theorem read_delimited_is_comment_of_body_iff (body : Text) :
    (IsCommentOf body (read (delimited body)) ↔ body ≠ []) ∧
      ((∀ text, Shows (read (delimited body)) text → ∀ symbol ∈ text,
        symbol ∈ body ∨ symbol = .char '\n') ↔ body ≠ []) := by
  constructor
  · constructor
    · rintro isComment rfl
      rw [isCommentOf_iff, read_delimited_nil] at isComment
      cases isComment
    · exact fun nonempty => isCommentOf_iff.mpr (read_delimited nonempty)
  · constructor
    · rintro kept rfl
      have leaked := kept "/" (.inl (by rw [read_delimited_nil])) (.char '/') (by decide)
      revert leaked
      decide
    · intro nonempty text shows symbol member
      rw [read_delimited nonempty] at shows
      rcases mem_of_shows shows member with feed | ⟨line, inContent, inLine⟩
      · exact .inr feed
      · obtain ⟨original, inBody, rfl⟩ := List.mem_map.mp inContent
        exact .inl (behindStar_subset body
          (subset_of_mem_lines inBody (dropGutter_subset original inLine)))

/-- An empty block comment is described by a slash, though its body stands for an empty comment. -/
theorem read_of_empty_body_shows_slash :
    read "/**/" = { description := some "/" } ∧ IsCommentOf "" {} := by
  refine ⟨by decide +kernel, isCommentOf_iff.mpr rfl⟩

end ApiDocs.Comment
