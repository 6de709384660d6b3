import ApiDocs.Proofs.Comment.Styles
import ApiDocs.Proofs.Text.Margin

/-!
# Examples in normal form

The value of an example has neither blank lines at its ends, nor blanks at the ends of its lines,
nor a margin.  Making it again from its own lines changes nothing; so it can be written as the
only example of a block comment and is read back.
-/

namespace ApiDocs.Comment

open ApiDocs.Text

/-- A text as examples are kept. -/
structure IsNormal (value : Text) : Prop where
  first : ∃ line ∈ (fileLines value).head?, isBlankText line = false
  last : ∃ line ∈ (fileLines value).getLast?, isBlankText line = false
  trimmed : ∀ line ∈ fileLines value, trimEnd line = line
  dedented : dedent value = value
  /-- The lines on screen are the lines of the file. -/
  whole : lines value = fileLines value

/-! ## Blocks -/

section Block

variable {block : List Text} {line : Text}

theorem trimBlock_subset (block : List Text) : trimBlock block ⊆ block := by
  intro line member
  have isPrefix := List.rdropWhile_prefix isBlankText (block.dropWhile isBlankText)
  exact (List.dropWhile_sublist isBlankText).subset (isPrefix.subset member)

theorem isBlankText_of_mem_head? (isFirst : line ∈ (trimBlock block).head?) :
    isBlankText line = false := by
  obtain ⟨rest, same⟩ := List.rdropWhile_prefix isBlankText (block.dropWhile isBlankText)
  rw [← trimBlock_eq] at same
  have stays := List.head?_dropWhile_not isBlankText block
  rwa [← same, List.head?_append, Option.mem_def.mp isFirst] at stays

theorem isBlankText_of_mem_getLast? (isLast : line ∈ (trimBlock block).getLast?) :
    isBlankText line = false := by
  obtain ⟨nonempty, same⟩ := List.mem_getLast?_eq_getLast isLast
  have stays := List.rdropWhile_last_not isBlankText (block.dropWhile isBlankText) nonempty
  rw [same]
  exact Bool.eq_false_iff.mpr stays

/-- A block whose first and last lines are not blank has nothing to trim. -/
theorem trimBlock_eq_self (first : ∃ line ∈ block.head?, isBlankText line = false)
    (last : ∃ line ∈ block.getLast?, isBlankText line = false) : trimBlock block = block := by
  obtain ⟨first, isFirst, firstStays⟩ := first
  obtain ⟨last, isLast, lastStays⟩ := last
  obtain ⟨rest, rfl⟩ := List.head?_eq_some_iff.mp isFirst
  obtain ⟨nonempty, same⟩ := List.mem_getLast?_eq_getLast isLast
  rw [trimBlock_eq, List.dropWhile_cons_of_neg (Bool.eq_false_iff.mp firstStays),
    List.rdropWhile_eq_self_iff]
  intro nonempty
  rw [← same, lastStays]
  exact Bool.false_ne_true

/-- The lines of an example: those of its block, without blanks at their ends and without margin. -/
def exampleLines (block : List Text) : List Text :=
  dedentLines ((trimBlock block).map trimEnd)

theorem exampleText_eq (block : List Text) : exampleText block = unlines (exampleLines block) := rfl

/-- Each line of an example is made of a line of its block. -/
theorem exampleLines_eq_map (block : List Text) :
    exampleLines block = (trimBlock block).map fun line =>
      outdentLine (marginOf ((trimBlock block).map trimEnd)) (trimEnd line) := by
  rw [exampleLines, dedentLines_eq_map, List.map_map]
  rfl

section Lines

variable (member : line ∈ trimBlock block)

include member

theorem marginOf_begins_trimEnd (counts : (trimEnd line).all isIndent = false) :
    marginOf ((trimBlock block).map trimEnd) <+: (trimEnd line).takeWhile isIndent :=
  marginOf_begins (List.mem_map_of_mem member) counts

theorem isBlankText_exampleLine :
    isBlankText (outdentLine (marginOf ((trimBlock block).map trimEnd)) (trimEnd line)) =
      isBlankText line := by
  rw [isBlankText_outdentLine (marginOf_begins_trimEnd member), isBlankText_trimEnd]

end Lines

theorem trimBlock_ne_nil (present : exampleText block ≠ []) : trimBlock block ≠ [] := by
  intro noLine
  rw [exampleText_eq, exampleLines_eq_map, noLine] at present
  exact present rfl

/-- The first line of an example is not blank. -/
theorem exists_head?_exampleLines (nonempty : trimBlock block ≠ []) :
    ∃ line ∈ (exampleLines block).head?, isBlankText line = false := by
  obtain ⟨first, isFirst⟩ : ∃ first, first ∈ (trimBlock block).head? :=
    ⟨_, List.head?_eq_some_head nonempty⟩
  refine ⟨_, ?_, (isBlankText_exampleLine (List.mem_of_mem_head? isFirst)).trans
    (isBlankText_of_mem_head? isFirst)⟩
  rw [exampleLines_eq_map, List.head?_map, Option.mem_def.mp isFirst]
  rfl

/-- The last line of an example is not blank. -/
theorem exists_getLast?_exampleLines (nonempty : trimBlock block ≠ []) :
    ∃ line ∈ (exampleLines block).getLast?, isBlankText line = false := by
  obtain ⟨last, isLast⟩ : ∃ last, last ∈ (trimBlock block).getLast? :=
    ⟨_, List.getLast?_eq_some_getLast nonempty⟩
  refine ⟨_, ?_, (isBlankText_exampleLine (List.mem_of_mem_getLast? isLast)).trans
    (isBlankText_of_mem_getLast? isLast)⟩
  rw [exampleLines_eq_map, List.getLast?_map, Option.mem_def.mp isLast]
  rfl

theorem isWhole_of_mem_exampleLines (whole : ∀ line ∈ block, IsWhole line)
    (member : line ∈ exampleLines block) : IsWhole line := by
  rw [exampleLines_eq_map] at member
  obtain ⟨original, kept, rfl⟩ := List.mem_map.mp member
  refine (whole original (trimBlock_subset block kept)).of_subset ?_
  exact List.Subset.trans (outdentLine_subset _ _) (trimEnd_subset original)

/-- The value of an example is in normal form. -/
theorem isNormal_exampleText (whole : ∀ line ∈ block, IsWhole line)
    (present : exampleText block ≠ []) :
    IsNormal (exampleText block) := by
  have nonempty : trimBlock block ≠ [] := trimBlock_ne_nil present
  have linesNonempty : exampleLines block ≠ [] := by
    rw [exampleLines_eq_map]
    simpa using nonempty
  have wholeLines : ∀ line ∈ exampleLines block, IsWhole line := fun line member =>
    isWhole_of_mem_exampleLines whole member
  have cut : fileLines (exampleText block) = exampleLines block := by
    rw [exampleText_eq]
    exact fileLines_unlines linesNonempty fun line member => (wholeLines line member).feed_not_mem
  refine ⟨?_, ?_, ?_, ?_, ?_⟩
  · rw [cut]
    exact exists_head?_exampleLines nonempty
  · rw [cut]
    exact exists_getLast?_exampleLines nonempty
  · intro line member
    rw [cut, exampleLines_eq_map] at member
    obtain ⟨original, kept, rfl⟩ := List.mem_map.mp member
    exact trimEnd_outdentLine (marginOf_begins_trimEnd kept) (trimEnd_trimEnd original)
  · rw [dedent, cut, exampleLines, dedentLines_dedentLines]
    rfl
  · obtain ⟨last, isLast, notBlank⟩ := exists_getLast?_exampleLines nonempty
    obtain ⟨front, same⟩ := List.getLast?_eq_some_iff.mp isLast
    rw [cut, exampleText_eq]
    rw [same] at wholeLines ⊢
    refine lines_unlines (fun line member => wholeLines line (List.mem_append_left _ member))
      (wholeLines last (List.mem_append_right _ (List.mem_singleton.mpr rfl))) ?_
    rintro rfl
    cases notBlank

/-- A text in normal form is the value of its lines. -/
theorem exampleText_fileLines {value : Text} (normal : IsNormal value) :
    exampleText (fileLines value) = value := by
  have kept : (fileLines value).map trimEnd = fileLines value :=
    (List.map_congr_left normal.trimmed).trans (List.map_id _)
  rw [exampleText, trimBlock_eq_self normal.first normal.last, kept]
  exact normal.dedented

end Block

/-! ## Lines of a comment -/

theorem dropSpace_subset (line : Text) : dropSpace line ⊆ line := by
  rw [dropSpace.eq_def]
  split
  · exact List.subset_cons_self _ _
  · exact List.Subset.refl _

theorem dropGutter_subset (line : Text) : dropGutter line ⊆ line := by
  rw [dropGutter]
  split
  · rename_i rest same
    have behind := (List.dropWhile_sublist (l := line) isIndent).subset
    rw [same] at behind
    exact List.Subset.trans (dropSpace_subset rest) (List.subset_of_cons_subset behind)
  · exact List.Subset.refl _

theorem dropSlashes_subset (line : Text) : dropSlashes line ⊆ line := by
  rw [dropSlashes]
  split
  · rename_i rest same
    have behind : trimStart line ⊆ line := (List.dropWhile_sublist isBlank).subset
    rw [same] at behind
    refine List.Subset.trans (dropSpace_subset _) ?_
    refine List.Subset.trans (List.dropWhile_sublist _).subset ?_
    exact List.subset_of_cons_subset (List.subset_of_cons_subset behind)
  · exact List.Subset.refl _

/-- The lines of the content of a comment hold no character at which lines end. -/
theorem isWhole_of_mem_unwrap {text line : Text} (member : line ∈ unwrap text) : IsWhole line := by
  rw [unwrap] at member
  split at member
  · obtain ⟨original, seen, rfl⟩ := List.mem_map.mp member
    exact (isWhole_of_mem_lines seen).of_subset (dropSlashes_subset original)
  · obtain ⟨original, seen, rfl⟩ := List.mem_map.mp member
    exact (isWhole_of_mem_lines seen).of_subset (dropGutter_subset original)

theorem Opens.rest_subset {line : Text} {tag : TagLine} (opens : Opens line tag) :
    tag.rest ⊆ line := by
  obtain ⟨letter, more, gap, same, -⟩ := opens
  refine List.Subset.trans ?_ (trim_subset line)
  rw [same]
  exact List.subset_append_right _ _

theorem isWhole_of_segments {content description : List Text} {parts : List Part} {part : Part}
    (whole : ∀ line ∈ content, IsWhole line) (cut : Segments content description parts)
    (member : part ∈ parts) : ∀ line ∈ part.tag.rest :: part.body, IsWhole line := by
  have inContent : ∀ line ∈ part.lines, line ∈ content := by
    intro line inPart
    rw [cut.whole]
    exact List.mem_append_right _ (List.mem_flatMap.mpr ⟨part, member, inPart⟩)
  refine List.forall_mem_cons.mpr ⟨?_, fun line inBody => ?_⟩
  · exact (whole _ (inContent _ List.mem_cons_self)).of_subset (cut.heads part member).rest_subset
  · exact whole line (inContent line (List.mem_cons_of_mem _ inBody))

/-! ## Values of tags -/

theorem TagTable.values_map (name : Text) (names : List Text) (values : Text → List (Option Text)) :
    TagTable.values name (names.map fun other => (other, values other)) =
      if name ∈ names then values name else [] := by
  induction names with
  | nil => rfl
  | cons first rest ih =>
      rw [List.map_cons, TagTable.values, ih]
      by_cases own : first = name
      · rw [if_pos own, own, if_pos List.mem_cons_self]
      · have other : name ≠ first := fun same => own same.symm
        rw [if_neg own]
        simp [other]

/-- Each value of a tag comes from a section of it. -/
theorem exists_part_of_mem_values {description : List Text} {parts : List Part} {name : Text}
    {value : Option Text} (member : value ∈ (ofParts description parts).tags.values name) :
    ∃ part ∈ parts, part.tag.name = name ∧ part.value = value := by
  rw [ofParts, TagTable.values_map] at member
  split at member
  · obtain ⟨part, inName, same⟩ := List.mem_map.mp member
    obtain ⟨inParts, hasName⟩ := List.mem_filter.mp inName
    exact ⟨part, inParts, of_decide_eq_true hasName, same⟩
  · cases member

theorem nonEmpty?_eq_some_iff {text value : Text} :
    nonEmpty? text = some value ↔ text = value ∧ text ≠ [] := by
  cases text with
  | nil => simp [nonEmpty?]
  | cons symbol rest => simp [nonEmpty?]

/-- The value of an example is in normal form. -/
theorem isNormal_of_mem_values {text value : Text}
    (member : some value ∈ (read text).tags.values "example") : IsNormal value := by
  obtain ⟨description, parts, cut⟩ := exists_segments (unwrap text)
  rw [read, ofLines_of_segments cut] at member
  obtain ⟨part, inParts, isExample, made⟩ := exists_part_of_mem_values member
  rw [Part.value, Section.value, if_pos isExample, nonEmpty?_eq_some_iff] at made
  obtain ⟨rfl, present⟩ := made
  exact isNormal_exampleText
    (isWhole_of_segments (fun line => isWhole_of_mem_unwrap) cut inParts) present

/-! ## Reading an example back -/

/-- A comment that has nothing but one example. -/
def exampleComment (value : Text) : Text :=
  blockComment ((" ", "@example") :: (fileLines value).map fun line => (" ", line))

theorem opens_example : Opens "@example" { name := "example", rest := [] } :=
  opens_of_tagLine? (by decide +kernel)

theorem read_exampleComment {value : Text} (normal : IsNormal value)
    (noTag : ∀ line ∈ fileLines value, ∀ tag, ¬Opens line tag) :
    read (exampleComment value) =
      { description := none, tags := [("example", [some value])] } := by
  have wholeLines : ∀ line ∈ fileLines value, IsWhole line := by
    rw [← normal.whole]
    exact fun line => isWhole_of_mem_lines
  have present : value ≠ [] := by
    obtain ⟨first, isFirst, notBlank⟩ := normal.first
    rintro rfl
    cases isFirst
    cases notBlank
  let part : Part := ⟨"@example", { name := "example", rest := [] }, fileLines value⟩
  have cut : Segments ("@example" :: fileLines value) [] [part] :=
    { whole := by simp [part, Part.lines]
      description := by simp
      heads := by simpa [part] using opens_example
      bodies := by simpa [part] using noTag }
  have made : part.value = some value := by
    rw [Part.value, Section.value_cons_nil, Section.value, if_pos rfl, exampleText_fileLines normal,
      nonEmpty?_eq_some_iff]
    exact ⟨rfl, present⟩
  have alone : ofParts [] [part] = { description := none, tags := [("example", [some value])] } := by
    simp [ofParts, plainText, nonEmpty?, List.eraseDups_cons, made, part]
  have content : (((" " : Text), ("@example" : Text)) ::
      (fileLines value).map fun line => (" ", line)).map Prod.snd =
        ("@example" : Text) :: fileLines value := by
    rw [List.map_cons, List.map_map]
    exact congrArg (_ :: ·) (List.map_id _)
  rw [exampleComment, read_blockComment, content, ofLines_of_segments cut, alone]
  · refine List.forall_mem_cons.mpr ⟨by decide, List.forall_mem_map.mpr fun line _ => ?_⟩
    show ∀ symbol ∈ (" " : Text), isIndent symbol = true
    decide
  · exact List.forall_mem_cons.mpr ⟨by decide, List.forall_mem_map.mpr wholeLines⟩

/--
The value of an example is in normal form: its first and last lines are not blank, no line ends
with a blank, it has no margin, and its lines are the same on screen as in a file.  Written as the
only example of a block comment it is read back, unless a line of it opens a tag.
-/
theorem example_is_normal_and_read_back (text value : Text)
    (member : some value ∈ (read text).tags.values "example") :
    IsNormal value ∧
      ((∀ line ∈ fileLines value, ∀ tag, ¬Opens line tag) →
        read (exampleComment value) =
          { description := none, tags := [("example", [some value])] }) :=
  ⟨isNormal_of_mem_values member, read_exampleComment (isNormal_of_mem_values member)⟩

/-- A comment with an example that is indented by spaces and tabs. -/
def indentedText : Text :=
  "/**\n * @example\n *\n * \t  f(1) \n * \t    .g()\n * \t\n */"

/-- The example is read without its margin, and is read back from a comment of its own. -/
theorem example_of_indentedText_is_read_back :
    IsNormal "f(1)\n  .g()" ∧
      read (exampleComment "f(1)\n  .g()") =
        { description := none, tags := [("example", [some "f(1)\n  .g()"])] } := by
  have member : some ("f(1)\n  .g()" : Text) ∈ (read indentedText).tags.values "example" := by
    decide +kernel
  obtain ⟨normal, readBack⟩ := example_is_normal_and_read_back _ _ member
  refine ⟨normal, readBack fun line isLine => tagLine?_eq_none_iff.mp ?_⟩
  have noTag : ∀ line ∈ fileLines "f(1)\n  .g()", tagLine? line = none := by decide +kernel
  exact noTag line isLine

end ApiDocs.Comment
