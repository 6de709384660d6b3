import Mathlib.Data.List.Dedup
import ApiDocs.Proofs.Comment.Tag

/-!
# Comments and their sections

The lines of a comment are a description and sections, each of which begins with a line that
opens its tag.  The reader goes through the lines once and closes a section when the next one
begins; what it makes of them is said here by the sections alone.

Blank lines at either end and blanks behind the last line do not change the comment, because no
value keeps them.
-/

namespace ApiDocs.Comment

open ApiDocs.Text

/-- A section: the line that opens its tag, and the lines behind it. -/
structure Part where
  head : Text
  tag : TagLine
  body : List Text

namespace Part

def lines (part : Part) : List Text :=
  part.head :: part.body

/-- What the section gives to its tag, made of the text behind the name and the lines below. -/
def value (part : Part) : Option Text :=
  Section.value { name := part.tag.name, lines := part.tag.rest :: part.body }

end Part

/-- Lines are cut into a description and sections. -/
structure Segments (content description : List Text) (parts : List Part) : Prop where
  whole : content = description ++ parts.flatMap Part.lines
  description : ∀ line ∈ description, ∀ tag, ¬Opens line tag
  heads : ∀ part ∈ parts, Opens part.head part.tag
  bodies : ∀ part ∈ parts, ∀ line ∈ part.body, ∀ tag, ¬Opens line tag

/--
The comment with a description and sections: each tag has the values of its sections in their
order, and the tags are in the order in which they were first seen.
-/
def ofParts (description : List Text) (parts : List Part) : Comment where
  description := nonEmpty? (plainText description)
  tags := (parts.map fun part => part.tag.name).eraseDups.map fun name =>
    (name, (parts.filter fun part => decide (part.tag.name = name)).map Part.value)

/-- Lines can always be cut so. -/
theorem exists_segments (content : List Text) :
    ∃ description parts, Segments content description parts := by
  induction content with
  | nil => exact ⟨[], [], rfl, by simp, by simp, by simp⟩
  | cons line rest ih =>
      obtain ⟨description, parts, rfl, noTag, heads, bodies⟩ := ih
      cases opened : tagLine? line with
      | none =>
          refine ⟨line :: description, parts, rfl, ?_, heads, bodies⟩
          exact List.forall_mem_cons.mpr ⟨tagLine?_eq_none_iff.mp opened, noTag⟩
      | some tag =>
          refine ⟨[], { head := line, tag, body := description } :: parts, rfl, by simp, ?_, ?_⟩
          · exact List.forall_mem_cons.mpr ⟨opens_of_tagLine? opened, heads⟩
          · exact List.forall_mem_cons.mpr ⟨noTag, bodies⟩

/-! ## Tables of tags -/

/-- Adding a value changes one tag, or adds it behind the others. -/
theorem TagTable.add_map {names : List Text} (distinct : names.Nodup)
    (values : Text → List (Option Text)) (name : Text) (value : Option Text) :
    TagTable.add name value (names.map fun other => (other, values other)) =
      if name ∈ names then
        names.map fun other => (other, if other = name then values other ++ [value] else values other)
      else names.map (fun other => (other, values other)) ++ [(name, [value])] := by
  induction names with
  | nil => rfl
  | cons first rest ih =>
      obtain ⟨notAgain, others⟩ := List.nodup_cons.mp distinct
      rw [List.map_cons, TagTable.add]
      by_cases own : first = name
      · subst own
        have kept : ∀ other ∈ rest, other ≠ first := by
          rintro other member rfl
          exact notAgain member
        rw [if_pos rfl, if_pos List.mem_cons_self, List.map_cons, if_pos rfl]
        congr 1
        exact List.map_congr_left fun other member => by rw [if_neg (kept other member)]
      · have other : name ≠ first := fun same => own same.symm
        rw [if_neg own, ih others]
        by_cases inRest : name ∈ rest
        · rw [if_pos inRest, if_pos (List.mem_cons_of_mem _ inRest), List.map_cons, if_neg own]
        · rw [if_neg inRest, if_neg (by simp [other, inRest])]
          rfl

/-- Values that are added one after the other are grouped by their tags. -/
theorem TagTable.foldl_add (pairs : List (Text × Option Text)) :
    pairs.foldl (fun table pair => TagTable.add pair.1 pair.2 table) [] =
      (pairs.map Prod.fst).eraseDups.map fun name =>
        (name, (pairs.filter fun pair => decide (pair.1 = name)).map Prod.snd) := by
  induction pairs using List.reverseRecOn with
  | nil => rfl
  | append_singleton front pair ih =>
      obtain ⟨name, value⟩ := pair
      have distinct := Text.nodup_eraseDups (front.map Prod.fst)
      have added := TagTable.add_map distinct
        (fun other => (front.filter fun pair => decide (pair.1 = other)).map Prod.snd) name value
      have grouped (other : Text) :
          ((front ++ [(name, value)]).filter fun pair => decide (pair.1 = other)).map Prod.snd =
            (front.filter fun pair => decide (pair.1 = other)).map Prod.snd ++
              if other = name then [value] else [] := by
        rw [List.filter_append, List.map_append]
        congr 1
        by_cases own : other = name
        · simp [own]
        · have apart : name ≠ other := fun same => own same.symm
          simp [own, apart]
      rw [List.foldl_append, ih, List.foldl_cons, List.foldl_nil]
      refine added.trans ?_
      simp only [grouped, List.map_append, List.eraseDups_append, List.map_cons, List.map_nil]
      by_cases known : name ∈ front.map Prod.fst
      · have noMore : [name].removeAll (front.map Prod.fst) = [] := by
          simpa [List.removeAll] using known
        rw [if_pos (List.mem_eraseDups.mpr known), noMore, List.eraseDups_nil, List.map_nil,
          List.append_nil]
        refine List.map_congr_left fun other _ => ?_
        split <;> simp
      · have oneMore : [name].removeAll (front.map Prod.fst) = [name] := by
          simpa [List.removeAll] using known
        have none : front.filter (fun pair => decide (pair.1 = name)) = [] := by
          rw [List.filter_eq_nil_iff]
          rintro pair member same
          exact known (List.mem_map.mpr ⟨pair, member, of_decide_eq_true same⟩)
        rw [if_neg (fun member => known (List.mem_eraseDups.mp member)), oneMore]
        congr 1
        · refine List.map_congr_left fun other member => ?_
          have apart : other ≠ name := by
            rintro rfl
            exact known (List.mem_eraseDups.mp member)
          rw [if_neg apart, List.append_nil]
        · simp [none, List.eraseDups_cons]

/-! ## Values of sections -/

section Values

variable {block : List Text} {line : Text}

theorem trimBlock_eq (block : List Text) :
    trimBlock block = (block.dropWhile isBlankText).rdropWhile isBlankText := rfl

theorem trimBlock_cons_blank (blank : isBlankText line = true) (block : List Text) :
    trimBlock (line :: block) = trimBlock block := by
  rw [trimBlock, List.dropWhile_cons_of_pos blank, trimBlock]

theorem trimBlock_concat_blank (blank : isBlankText line = true) (block : List Text) :
    trimBlock (block ++ [line]) = trimBlock block := by
  rw [trimBlock_eq, trimBlock_eq, List.dropWhile_append]
  split
  · rename_i allBlank
    rw [List.isEmpty_iff.mp allBlank, List.dropWhile_cons_of_pos blank]
    rfl
  · exact List.rdropWhile_concat_pos _ _ _ blank

theorem trimBlock_map_trimEnd (block : List Text) :
    trimBlock (block.map trimEnd) = (trimBlock block).map trimEnd := by
  have same : isBlankText ∘ trimEnd = isBlankText := funext isBlankText_trimEnd
  simp only [trimBlock, List.dropWhile_map, ← List.map_reverse, same]

/-- Blanks at the ends of lines do not matter for an example. -/
theorem exampleText_map_trimEnd (block : List Text) :
    exampleText (block.map trimEnd) = exampleText block := by
  have twice : trimEnd ∘ trimEnd = trimEnd := funext trimEnd_trimEnd
  rw [exampleText, trimBlock_map_trimEnd, List.map_map, twice, exampleText]

theorem exampleText_concat_trimEnd (block : List Text) (line : Text) :
    exampleText (block ++ [trimEnd line]) = exampleText (block ++ [line]) := by
  rw [← exampleText_map_trimEnd, ← exampleText_map_trimEnd (block ++ [line])]
  simp

theorem Section.value_cons_nil (name : Text) (block : List Text) :
    Section.value { name, lines := [] :: block } = Section.value { name, lines := block } := by
  simp only [Section.value, plainText, trim_unlines_cons_nil, exampleText,
    trimBlock_cons_blank (rfl : isBlankText [] = true)]

theorem Section.value_concat_blank (name : Text) (block : List Text)
    (blank : isBlankText line = true) :
    Section.value { name, lines := block ++ [line] } = Section.value { name, lines := block } := by
  simp only [Section.value, plainText, trim_unlines_concat_blank blank, exampleText,
    trimBlock_concat_blank blank]

theorem Section.value_concat_trimEnd (name : Text) (block : List Text) (line : Text) :
    Section.value { name, lines := block ++ [trimEnd line] } =
      Section.value { name, lines := block ++ [line] } := by
  simp only [Section.value, plainText, trim_unlines_concat_trimEnd, exampleText_concat_trimEnd]

end Values

/-! ## Reading lines -/

namespace Progress

/-- The comment, if no more lines come. -/
def finish (progress : Progress) : Comment where
  description := nonEmpty? (plainText progress.description)
  tags := progress.close

variable {progress : Progress} {content : List Text} {line : Text}

theorem ofLines_eq_finish (content : List Text) :
    ofLines content = (content.foldl step {}).finish := rfl

theorem foldl_step_description (notOpened : progress.opened = none)
    (noTag : ∀ line ∈ content, ∀ tag, ¬Opens line tag) :
    content.foldl step progress =
      { progress with description := progress.description ++ content } := by
  induction content generalizing progress with
  | nil => simp
  | cons line rest ih =>
      obtain ⟨first, others⟩ := List.forall_mem_cons.mp noTag
      have taken : progress.step line =
          { progress with description := progress.description ++ [line] } := by
        simp only [step, tagLine?_eq_none_iff.mpr first, notOpened]
      rw [List.foldl_cons, taken, ih, List.append_assoc]
      · rfl
      · exact notOpened
      · exact others

theorem foldl_step_body {opened : Section} (isOpened : progress.opened = some opened)
    (noTag : ∀ line ∈ content, ∀ tag, ¬Opens line tag) :
    content.foldl step progress =
      { progress with opened := some { opened with lines := opened.lines ++ content } } := by
  induction content generalizing progress opened with
  | nil =>
      rw [List.foldl_nil, List.append_nil, ← isOpened]
  | cons line rest ih =>
      obtain ⟨first, others⟩ := List.forall_mem_cons.mp noTag
      have taken : progress.step line =
          { progress with opened := some { opened with lines := opened.lines ++ [line] } } := by
        simp only [step, tagLine?_eq_none_iff.mpr first, isOpened]
      rw [List.foldl_cons, taken, ih rfl others, List.append_assoc]
      rfl

/-- The lines of a section give its tag one value more. -/
theorem foldl_step_part (progress : Progress) {part : Part} (head : Opens part.head part.tag)
    (body : ∀ line ∈ part.body, ∀ tag, ¬Opens line tag) :
    (part.lines.foldl step progress).description = progress.description ∧
      (part.lines.foldl step progress).close =
        TagTable.add part.tag.name part.value progress.close := by
  have taken : progress.step part.head =
      { progress with
        tags := progress.close
        opened := some ⟨part.tag.name, if part.tag.rest.isEmpty then [] else [part.tag.rest]⟩ } := by
    simp only [step, tagLine?_of_opens head]
  rw [Part.lines, List.foldl_cons, taken, foldl_step_body rfl body]
  refine ⟨rfl, ?_⟩
  rw [close, Part.value]
  dsimp only
  congr 1
  split
  · rename_i noRest
    rw [List.isEmpty_iff.mp noRest, Section.value_cons_nil, List.nil_append]
  · rfl

theorem foldl_step_parts (progress : Progress) {parts : List Part}
    (heads : ∀ part ∈ parts, Opens part.head part.tag)
    (bodies : ∀ part ∈ parts, ∀ line ∈ part.body, ∀ tag, ¬Opens line tag) :
    ((parts.flatMap Part.lines).foldl step progress).description = progress.description ∧
      ((parts.flatMap Part.lines).foldl step progress).close =
        parts.foldl (fun table part => TagTable.add part.tag.name part.value table) progress.close := by
  induction parts generalizing progress with
  | nil => exact ⟨rfl, rfl⟩
  | cons part rest ih =>
      obtain ⟨head, otherHeads⟩ := List.forall_mem_cons.mp heads
      obtain ⟨body, otherBodies⟩ := List.forall_mem_cons.mp bodies
      obtain ⟨description, tags⟩ := foldl_step_part progress head body
      obtain ⟨same, table⟩ := ih (part.lines.foldl step progress) otherHeads otherBodies
      rw [List.flatMap_cons, List.foldl_append]
      exact ⟨same.trans description, by rw [table, tags, List.foldl_cons]⟩

end Progress

/-- Lines are read as their description and sections say. -/
theorem ofLines_of_segments {content description : List Text} {parts : List Part}
    (cut : Segments content description parts) : ofLines content = ofParts description parts := by
  obtain ⟨rfl, noTag, heads, bodies⟩ := cut
  have described : description.foldl Progress.step {} = { description } :=
    Progress.foldl_step_description rfl noTag
  obtain ⟨same, table⟩ :=
    Progress.foldl_step_parts (description.foldl Progress.step {}) heads bodies
  rw [Progress.ofLines_eq_finish, List.foldl_append, Progress.finish, same, table, described, ofParts]
  congr 1
  have pairs := TagTable.foldl_add (parts.map fun part => (part.tag.name, part.value))
  rw [List.foldl_map, List.map_map] at pairs
  refine pairs.trans ?_
  simp only [List.filter_map, List.map_map]
  rfl

/-! ## The ends of a comment -/

section Ends

variable {line : Text}

theorem Progress.finish_step_blank (progress : Progress) (blank : isBlankText line = true) :
    (progress.step line).finish = progress.finish := by
  cases opened : progress.opened with
  | none =>
      simp only [step, tagLine?_of_isBlankText blank, opened, finish, close, plainText,
        trim_unlines_concat_blank blank]
  | some current =>
      simp only [step, tagLine?_of_isBlankText blank, opened, finish, close,
        Section.value_concat_blank _ _ blank]

theorem Progress.finish_step_trimEnd (progress : Progress) (line : Text) :
    (progress.step (trimEnd line)).finish = (progress.step line).finish := by
  rw [step, tagLine?_trimEnd, step]
  cases tagLine? line with
  | some tag => rfl
  | none =>
      cases opened : progress.opened with
      | none => simp only [finish, close, plainText, trim_unlines_concat_trimEnd]
      | some current => simp only [finish, close, Section.value_concat_trimEnd]

/-- An empty line in front of the others does not change the comment. -/
theorem ofLines_cons_nil (content : List Text) : ofLines ([] :: content) = ofLines content := by
  obtain ⟨description, parts, cut⟩ := exists_segments content
  have extended : Segments ([] :: content) ([] :: description) parts :=
    { whole := by rw [cut.whole]; rfl
      description := List.forall_mem_cons.mpr ⟨tagLine?_eq_none_iff.mp rfl, cut.description⟩
      heads := cut.heads
      bodies := cut.bodies }
  rw [ofLines_of_segments extended, ofLines_of_segments cut, ofParts, plainText,
    trim_unlines_cons_nil, ofParts, plainText]

/-- A blank line behind the others does not change the comment. -/
theorem ofLines_concat_blank (blank : isBlankText line = true) (content : List Text) :
    ofLines (content ++ [line]) = ofLines content := by
  rw [Progress.ofLines_eq_finish, List.foldl_append]
  exact Progress.finish_step_blank _ blank

/-- Blanks at the end of the last line do not change the comment. -/
theorem ofLines_concat_trimEnd (content : List Text) (line : Text) :
    ofLines (content ++ [trimEnd line]) = ofLines (content ++ [line]) := by
  rw [Progress.ofLines_eq_finish, Progress.ofLines_eq_finish, List.foldl_append, List.foldl_append]
  exact Progress.finish_step_trimEnd _ line

end Ends

end ApiDocs.Comment
