import Mathlib.Data.List.Nodup
import ApiDocs.Page.Contents
import ApiDocs.Proofs.Outcome
import ApiDocs.Proofs.Text.Blank
import ApiDocs.Proofs.Text.Lines

/-!
# Anchors of a table of contents

The anchor of a heading is the slug of its title, with a number behind it if headings with the
same slug came before.  So an anchor stands for a slug and a number, and each such pair is given
once.  Two pairs have one anchor only if a title has a slug that ends in a dash and a number, and
that number was given to another slug as well.

A table of contents has one line for each heading, and the anchor can be read off its line.
-/

namespace ApiDocs.Contents

open Number (intText intText_natCast)
open Text (IsWhole isBlank isWordChar)

variable {title anchor : Text} {titles before : List Text} {count : Nat}

/-- The anchor to which a line of a table of contents leads: what stands behind its last hash. -/
def target (line : Text) : Text :=
  (line.reverse.takeWhile (· != Symbol.char '#')).reverse.dropLast

/-! ## Slugs -/

/-- A slug has letters, numerals, underscores and dashes. -/
theorem mem_slug {symbol : Symbol} (member : symbol ∈ slug title) :
    symbol = '-' ∨ (isWordChar symbol = true ∧ isBlank symbol = false) := by
  obtain ⟨original, kept, rfl⟩ := List.mem_map.mp member
  obtain ⟨-, inClass⟩ := List.mem_filter.mp kept
  simp only [Bool.or_eq_true, beq_iff_eq] at inClass
  split
  · exact .inl rfl
  · rename_i solid
    have solid : isBlank original = false := Bool.eq_false_iff.mpr solid
    rcases inClass with (word | blank) | dash
    · exact .inr ⟨word, solid⟩
    · rw [solid] at blank
      cases blank
    · exact .inl dash

theorem isWhole_slug (title : Text) : IsWhole (slug title) := by
  intro symbol member
  rw [Bool.eq_false_iff]
  intro breaks
  rcases mem_slug member with rfl | ⟨-, solid⟩
  · cases breaks
  · rw [Text.isBlank_of_isLineBreak breaks] at solid
    cases solid

theorem hash_not_mem_slug (title : Text) : Symbol.char '#' ∉ slug title := by
  intro member
  rcases mem_slug member with same | ⟨word, -⟩
  · cases same
  · revert word
    decide +kernel

/-! ## Numbered anchors -/

theorem numbered_zero (anchor : Text) : numbered anchor 0 = anchor :=
  if_pos rfl

theorem numbered_of_pos (positive : 0 < count) (anchor : Text) :
    numbered anchor count = anchor ++ "-" ++ intText count :=
  if_neg (Nat.ne_of_gt positive)

/-- Behind an anchor a number brings a dash and digits. -/
theorem mem_numbered {symbol : Symbol} (member : symbol ∈ numbered anchor count) :
    symbol ∈ anchor ∨ symbol = '-' ∨ symbol.isDigit = true := by
  rcases Nat.eq_zero_or_pos count with rfl | positive
  · exact .inl (numbered_zero anchor ▸ member)
  · rw [numbered_of_pos positive, intText_natCast] at member
    rcases List.mem_append.mp member with inFront | digit
    · rcases List.mem_append.mp inFront with inAnchor | dash
      · exact .inl inAnchor
      · exact .inr (.inl (List.mem_singleton.mp dash))
    · exact .inr (.inr (Number.isDigit_of_mem_digitsOf digit))

theorem isWhole_numbered (title : Text) (count : Nat) : IsWhole (numbered (slug title) count) := by
  intro symbol member
  rcases mem_numbered member with inSlug | rfl | digit
  · exact isWhole_slug title symbol inSlug
  · rfl
  · rw [Bool.eq_false_iff]
    intro breaks
    simp only [Text.isLineBreak, Bool.or_eq_true, beq_iff_eq] at breaks
    rcases breaks with (((((((((rfl | rfl) | rfl) | rfl) | rfl) | rfl) | rfl) | rfl) | rfl) | rfl) <;>
      cases digit

theorem hash_not_mem_numbered (title : Text) (count : Nat) :
    Symbol.char '#' ∉ numbered (slug title) count := by
  intro member
  rcases mem_numbered member with inSlug | dash | digit
  · exact hash_not_mem_slug title inSlug
  · cases dash
  · cases digit

/-- Slugs with numbers have the same anchor only if one of them ends in the other's number. -/
theorem numbered_inj {first second : Text} {number : Nat}
    (same : numbered first count = numbered second number) :
    (first = second ∧ count = number) ∨
      (0 < count ∧ number = 0 ∧ second = first ++ "-" ++ intText count) ∨
      (0 < number ∧ count = 0 ∧ first = second ++ "-" ++ intText number) := by
  rcases Nat.eq_zero_or_pos count with rfl | positive <;>
    rcases Nat.eq_zero_or_pos number with rfl | positive'
  · rw [numbered_zero, numbered_zero] at same
    exact .inl ⟨same, rfl⟩
  · rw [numbered_zero, numbered_of_pos positive'] at same
    exact .inr (.inr ⟨positive', rfl, same⟩)
  · rw [numbered_zero, numbered_of_pos positive] at same
    exact .inr (.inl ⟨positive, rfl, same.symm⟩)
  · rw [numbered_of_pos positive, numbered_of_pos positive'] at same
    exact .inl (Number.dashed_number_inj.mp same)

/-! ## The anchors of some titles -/

/-- The slugs of some titles, each with the number of times that it came before. -/
def placesFrom (before : List Text) : List Text → List (Text × Nat)
  | [] => []
  | title :: rest => (slug title, before.count (slug title)) :: placesFrom (slug title :: before) rest

theorem anchorsFrom_eq_map (before titles : List Text) : anchorsFrom before titles =
    (placesFrom before titles).map fun place => numbered place.1 place.2 := by
  induction titles generalizing before with
  | nil => rfl
  | cons title rest ih => rw [anchorsFrom, placesFrom, List.map_cons, ← ih]

theorem mem_placesFrom : (anchor, count) ∈ placesFrom before titles ↔
    before.count anchor ≤ count ∧ count < before.count anchor + (titles.map slug).count anchor := by
  induction titles generalizing before with
  | nil =>
      simp only [placesFrom, List.not_mem_nil, List.map_nil, List.count_nil, false_iff]
      omega
  | cons title rest ih =>
      rw [placesFrom, List.mem_cons, ih, List.map_cons, List.count_cons, List.count_cons,
        Prod.mk.injEq]
      by_cases same : slug title = anchor
      · simp only [same, beq_self_eq_true, if_true, true_and]
        omega
      · simp only [beq_iff_eq, same, if_false, Ne.symm same, false_and, false_or, Nat.add_zero]

theorem nodup_placesFrom (before titles : List Text) : (placesFrom before titles).Nodup := by
  induction titles generalizing before with
  | nil => exact List.nodup_nil
  | cons title rest ih =>
      rw [placesFrom, List.nodup_cons]
      refine ⟨fun again => ?_, ih _⟩
      have later := (mem_placesFrom.mp again).1
      rw [List.count_cons_self] at later
      omega

/-- A slug is given with every number below the number of its titles. -/
theorem mem_places : (anchor, count) ∈ placesFrom [] titles ↔
    count < (titles.map slug).count anchor := by
  rw [mem_placesFrom, List.count_nil]
  omega

/-- Anchors are distinct exactly if no slug is another one with a number that was given to it. -/
theorem nodup_anchors_iff : (anchors titles).Nodup ↔
    ∀ anchor count, 0 < count → count < (titles.map slug).count anchor →
      anchor ++ "-" ++ intText count ∉ titles.map slug := by
  rw [anchors, anchorsFrom_eq_map, List.nodup_map_iff_inj_on (nodup_placesFrom [] titles)]
  constructor
  · intro distinct anchor count positive given again
    have numberedPlace := mem_places.mpr given
    have plainPlace := mem_places.mpr (List.count_pos_iff.mpr again)
    have same := distinct _ numberedPlace _ plainPlace
      ((numbered_of_pos positive anchor).trans (numbered_zero _).symm)
    exact Nat.ne_of_gt positive (Prod.mk.inj same).2
  · rintro apart ⟨first, count⟩ isFirst ⟨second, number⟩ isSecond same
    have given := mem_places.mp isFirst
    have given' := mem_places.mp isSecond
    rcases numbered_inj same with ⟨rfl, rfl⟩ | ⟨positive, rfl, rfl⟩ | ⟨positive, rfl, rfl⟩
    · rfl
    · exact absurd (List.count_pos_iff.mp given') (apart first count positive given)
    · exact absurd (List.count_pos_iff.mp given) (apart second number positive given')

/-! ## The lines of a table of contents -/

theorem target_line (top : Nat) (heading : Heading) (absent : Symbol.char '#' ∉ anchor) :
    target (line top heading anchor) = anchor := by
  have passes : ∀ symbol ∈ (anchor ++ [Symbol.char ')']).reverse,
      (symbol != Symbol.char '#') = true := by
    intro symbol member
    rw [bne_iff_ne]
    rintro rfl
    rcases List.mem_append.mp (List.mem_reverse.mp member) with inAnchor | last
    · exact absent inAnchor
    · cases List.mem_singleton.mp last
  have cut : line top heading anchor =
      (Text.copies (2 * (heading.level - top)) ' ' ++ "- [" ++ heading.title ++ "](") ++
        Symbol.char '#' :: (anchor ++ [Symbol.char ')']) := by
    simp [line, Text.ofString, Text.ofChars]
  rw [target, cut, List.reverse_append, List.reverse_cons, List.append_assoc,
    List.takeWhile_append_of_pos passes]
  simp

theorem isWhole_line (top : Nat) {heading : Heading} (whole : IsWhole heading.title)
    (wholeAnchor : IsWhole anchor) : IsWhole (line top heading anchor) := by
  intro symbol member
  simp only [line, List.mem_append] at member
  rcases member with ((((indent | opening) | inTitle) | middle) | inAnchor) | closing
  · rw [List.eq_of_mem_replicate indent]
    rfl
  · exact (by decide : IsWhole "- [") symbol opening
  · exact whole symbol inTitle
  · exact (by decide : IsWhole "](#") symbol middle
  · exact wholeAnchor symbol inAnchor
  · exact (by decide : IsWhole ")") symbol closing

/-- The title of a heading stands on one line. -/
theorem isWhole_of_heading? {text : Text} {heading : Heading} (whole : IsWhole text)
    (found : heading? text = some heading) : IsWhole heading.title := by
  simp only [heading?] at found
  split at found
  · rename_i symbol rest behind
    split at found
    · cases found
      refine whole.of_subset (List.Subset.trans (Text.trim_subset rest) ?_)
      have tail := List.drop_subset (text.takeWhile (· == Symbol.char '#')).length text
      rw [behind] at tail
      exact List.subset_of_cons_subset tail
    · cases found
  · cases found

theorem isWhole_of_mem_headingsFrom {inCode : Bool} {list : List Text} {heading : Heading}
    (whole : ∀ text ∈ list, IsWhole text) (member : heading ∈ headingsFrom inCode list) :
    IsWhole heading.title := by
  induction list generalizing inCode with
  | nil => cases member
  | cons text rest ih =>
      obtain ⟨own, others⟩ := List.forall_mem_cons.mp whole
      rw [headingsFrom] at member
      split at member
      · exact ih others member
      · split at member
        · exact ih others member
        · rcases List.mem_append.mp member with here | behind
          · refine isWhole_of_heading? (own.of_subset (Text.trim_subset text)) ?_
            exact Option.mem_toList.mp here
          · exact ih others behind

theorem isWhole_of_mem_headings {page : Text} {heading : Heading}
    (member : heading ∈ headings page) :
    IsWhole heading.title :=
  isWhole_of_mem_headingsFrom (fun _ => Text.isWhole_of_mem_lines) member

/-- A table of contents has a line for each heading, with the slug of its title and a number. -/
theorem forall₂_lines (top : Nat) (before : List Text) (list : List Heading) :
    List.Forall₂ (fun heading text => ∃ count,
        text = line top heading (numbered (slug heading.title) count)) list
      (List.zipWith (line top) list (anchorsFrom before (list.map Heading.title))) := by
  induction list generalizing before with
  | nil => exact .nil
  | cons heading rest ih => exact .cons ⟨_, rfl⟩ (ih _)

theorem map_target_lines (top : Nat) (before : List Text) (list : List Heading) :
    (List.zipWith (line top) list (anchorsFrom before (list.map Heading.title))).map target =
      anchorsFrom before (list.map Heading.title) := by
  induction list generalizing before with
  | nil => rfl
  | cons heading rest ih =>
      rw [List.map_cons, anchorsFrom, List.zipWith_cons_cons, List.map_cons, ih,
        target_line top heading (hash_not_mem_numbered _ _)]

/-- The lines of a table of contents are seen as they were made. -/
theorem lines_ofPage (page : Text) : Text.lines (ofPage page) =
    List.zipWith (line (top (headings page))) (headings page)
      (anchors ((headings page).map Heading.title)) := by
  have made := forall₂_lines (top (headings page)) [] (headings page)
  refine Text.lines_unlines_of_forall fun text member => ?_
  obtain ⟨heading, isHeading, count, rfl⟩ := exists_of_mem_forall₂ made member
  refine ⟨isWhole_line _ (isWhole_of_mem_headings isHeading) (isWhole_numbered _ count), ?_⟩
  exact List.append_ne_nil_of_right_ne_nil _ (List.cons_ne_nil _ _)

/--
The lines of a table of contents lead to distinct anchors exactly if no slug is another slug with
a dash and a number that was given to this other slug: one from 1 to the number of its repetitions.
-/
theorem targets_distinct_iff (page : Text) :
    ((Text.lines (ofPage page)).map target).Nodup ↔
      ∀ anchor count, 0 < count →
        count < ((headings page).map fun heading => slug heading.title).count anchor →
        anchor ++ "-" ++ intText count ∉ (headings page).map fun heading => slug heading.title := by
  have slugs : ((headings page).map Heading.title).map slug =
      (headings page).map fun heading => slug heading.title := List.map_map
  rw [lines_ofPage, anchors, map_target_lines, ← anchors, nodup_anchors_iff, slugs]

/-- The number that is given to the second heading makes its anchor that of the third one. -/
theorem targets_of_repeated_title :
    (Text.lines (ofPage "# a\n# a\n# a-1\n")).map target = ["a", "a-1", "a-1"] ∧
      ¬((Text.lines (ofPage "# a\n# a\n# a-1\n")).map target).Nodup := by
  decide +kernel

end ApiDocs.Contents
