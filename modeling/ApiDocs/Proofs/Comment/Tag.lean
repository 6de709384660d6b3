import Mathlib.Data.List.TakeWhile
import ApiDocs.Comment.Reader
import ApiDocs.Proofs.Text.Blank

/-!
# Lines that open a tag

A line opens a tag if, blanks at its ends aside, it is an at sign and a name, and behind the
name nothing or blanks and a rest.  This is said here without scanning, and is what the
scanner of the reader finds; no blank is a character of a name, so a line opens at most one tag.
-/

namespace ApiDocs.Comment

open ApiDocs.Text

/-- The line opens the tag. -/
def Opens (line : Text) (tag : TagLine) : Prop :=
  ∃ letter more gap, trim line = .char '@' :: letter :: more ++ gap ++ tag.rest ∧
    tag.name = letter :: more ∧ letter.isAlpha = true ∧ (∀ symbol ∈ more, isTagChar symbol = true) ∧
    isBlankText gap = true ∧ (gap = [] → tag.rest = []) ∧ trimStart tag.rest = tag.rest

/-! ## Blanks are no part of a name -/

/-- The codes of the blanks within ASCII. -/
def asciiBlanks : List Nat :=
  [0x09, 0x0A, 0x0B, 0x0C, 0x0D, 0x1C, 0x1D, 0x1E, 0x1F, 0x20]

/-- The codes of the other blanks, as ranges. -/
def blankRanges : List (Nat × Nat) :=
  [(0x85, 0x85), (0xA0, 0xA0), (0x1680, 0x1680), (0x2000, 0x200A), (0x2028, 0x2029),
    (0x202F, 0x202F), (0x205F, 0x205F), (0x3000, 0x3000)]

theorem code_mem_of_isBlank {symbol : Symbol} (blank : isBlank symbol = true) :
    symbol.code ∈ asciiBlanks ∨
      ∃ range ∈ blankRanges, range.1 ≤ symbol.code ∧ symbol.code ≤ range.2 := by
  simp only [isBlank, Bool.or_eq_true, Bool.and_eq_true, decide_eq_true_eq, beq_iff_eq] at blank
  generalize symbol.code = code at blank ⊢
  simp only [asciiBlanks, blankRanges, List.mem_cons, List.not_mem_nil, or_false, exists_eq_or_imp,
    exists_eq_left]
  grind

/-- The ranges of letters and the ranges of blanks have no code in common. -/
theorem wordRanges_apart :
    (wordRanges.toList.all fun word => blankRanges.all fun blank =>
      Nat.blt word.2 blank.1 || Nat.blt blank.2 word.1) = true := by
  decide +kernel

/-- No blank is part of the name of a tag. -/
theorem isTagChar_of_isBlank {symbol : Symbol} (blank : isBlank symbol = true) :
    isTagChar symbol = false := by
  rcases code_mem_of_isBlank blank with isAscii | ⟨range, isRange, above, below⟩
  · have each : ∀ code ∈ asciiBlanks, isTagChar (.ofCode code) = false := by decide +kernel
    rw [← Symbol.ofCode_code symbol]
    exact each _ isAscii
  · have beyond : ∀ range ∈ blankRanges, 0x80 ≤ range.1 := by decide
    have notAscii : ¬symbol.code < 0x80 := by
      have := beyond range isRange
      omega
    have notDash : (symbol == .char '-') = false := by
      rw [beq_eq_false_iff_ne]
      rintro rfl
      exact notAscii (by decide)
    have noWord : inRanges wordRanges symbol.code = false := by
      rw [inRanges, ← Array.any_toList, List.any_eq_false]
      intro word isWord
      have apart := List.all_eq_true.mp (List.all_eq_true.mp wordRanges_apart word isWord) range isRange
      rw [Bool.or_eq_true, Nat.blt_eq, Nat.blt_eq] at apart
      simp only [Bool.and_eq_true, decide_eq_true_eq]
      omega
    rw [isTagChar, isWordChar, if_neg notAscii, noWord, notDash, Bool.or_false]

/-! ## What the scanner finds -/

section Scan

variable {line : Text} {tag other : TagLine}

theorem opens_of_tagLine? (found : tagLine? line = some tag) : Opens line tag := by
  rw [tagLine?] at found
  split at found
  · rename_i letter text same
    split at found
    · rename_i isLetter
      have cut : text.takeWhile isTagChar ++ text.dropWhile isTagChar = text :=
        List.takeWhile_append_dropWhile
      have inName : ∀ symbol ∈ text.takeWhile isTagChar, isTagChar symbol = true :=
        fun symbol => List.mem_takeWhile_imp
      dsimp only at found
      split at found
      · rename_i noMore
        cases found
        rw [noMore, List.append_nil] at cut
        refine ⟨letter, _, [], ?_, rfl, isLetter, inName, rfl, fun _ => rfl, rfl⟩
        rw [same, cut, List.append_nil, List.append_nil]
      · rename_i first rest behind
        split at found
        · rename_i blank
          cases found
          have gap : (text.dropWhile isTagChar).takeWhile isBlank ++
              trimStart (text.dropWhile isTagChar) = text.dropWhile isTagChar :=
            List.takeWhile_append_dropWhile
          refine ⟨letter, _, (text.dropWhile isTagChar).takeWhile isBlank, ?_, rfl, isLetter, inName,
            ?_, ?_, List.dropWhile_idempotent _ _⟩
          · rw [same, List.append_assoc, gap, List.cons_append, List.cons_append, cut]
          · exact isBlankText_iff.mpr fun symbol => List.mem_takeWhile_imp
          · rw [behind, List.takeWhile_cons_of_pos blank]
            exact fun isEmpty => nomatch isEmpty
        · cases found
    · cases found
  · cases found

theorem tagLine?_of_opens (opens : Opens line tag) : tagLine? line = some tag := by
  obtain ⟨letter, more, gap, same, name, isLetter, inName, blank, ends, starts⟩ := opens
  obtain ⟨tagName, rest⟩ := tag
  dsimp only at same name ends starts
  have behind : (more ++ (gap ++ rest)).dropWhile isTagChar = gap ++ rest ∧
      (more ++ (gap ++ rest)).takeWhile isTagChar = more := by
    cases gap with
    | nil =>
        rw [ends rfl, List.append_nil, List.append_nil]
        exact ⟨List.dropWhile_eq_nil_iff.mpr inName, List.takeWhile_eq_self_iff.mpr inName⟩
    | cons first others =>
        have stops : ¬isTagChar first = true := by
          rw [isTagChar_of_isBlank (isBlankText_iff.mp blank first List.mem_cons_self)]
          exact Bool.false_ne_true
        rw [List.dropWhile_append_of_pos inName, List.takeWhile_append_of_pos inName, List.cons_append,
          List.dropWhile_cons_of_neg stops, List.takeWhile_cons_of_neg stops, List.append_nil]
        exact ⟨rfl, rfl⟩
  rw [List.append_assoc, List.cons_append, List.cons_append] at same
  simp only [tagLine?, same, isLetter, if_true, behind]
  cases gap with
  | nil =>
      rw [ends rfl] at behind ⊢
      rw [name]
      rfl
  | cons first others =>
      have isBlankFirst := isBlankText_iff.mp blank first List.mem_cons_self
      have trimmed : trimStart (first :: others ++ rest) = rest := by
        rw [trimStart_append_of_isBlankText blank, starts]
      rw [List.cons_append] at trimmed ⊢
      simp only [isBlankFirst, if_true, trimmed, name]

/-- The scanner finds the tag that a line opens. -/
theorem tagLine?_eq_some_iff : tagLine? line = some tag ↔ Opens line tag :=
  ⟨opens_of_tagLine?, tagLine?_of_opens⟩

theorem tagLine?_eq_none_iff : tagLine? line = none ↔ ∀ tag, ¬Opens line tag := by
  simp only [← tagLine?_eq_some_iff, Option.eq_none_iff_forall_ne_some, ne_eq]

/-- A line opens at most one tag. -/
theorem Opens.unique (opens : Opens line tag) (again : Opens line other) : other = tag := by
  rw [← tagLine?_eq_some_iff] at opens again
  exact Option.some.inj (again.symm.trans opens)

theorem tagLine?_of_isBlankText (blank : isBlankText line = true) : tagLine? line = none := by
  rw [tagLine?, trim_eq_nil_of_isBlankText blank]

@[simp]
theorem tagLine?_trimEnd (line : Text) : tagLine? (trimEnd line) = tagLine? line := by
  rw [tagLine?, trim_trimEnd, tagLine?]

end Scan

end ApiDocs.Comment
