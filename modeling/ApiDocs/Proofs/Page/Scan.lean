import Mathlib.Tactic.MkIffOfInductiveProp
import ApiDocs.Page.Contents
import ApiDocs.Page.Entry
import ApiDocs.Proofs.Text.Blank
import ApiDocs.Proofs.Text.Lines
import ApiDocs.Proofs.Text.Search

/-!
# Headings among the lines of a text

A page is read line by line, and a fence line turns from prose to code and back.  `Scans` says
what reading a text comes to: which headings are found in it, and whether code or prose follows.
What stands behind the text on the page does not matter for that.  So the scans of the parts of a
page make up the scan of the page.

A piece of code is scanned without headings and leads back to prose, as long as none of its own
lines is a fence.
-/

namespace ApiDocs

namespace Text

variable {text label : Text}

/-- A text that fills one line: it is not empty, has no line breaks and no blanks at its ends. -/
@[mk_iff]
structure IsTitle (text : Text) : Prop where
  nonempty : text ≠ []
  whole : IsWhole text
  trimmed : trim text = text

instance (text : Text) : Decidable text.IsTitle :=
  decidable_of_iff' _ (isTitle_iff text)

/-- A text that can stand behind a title: it is empty, or it ends without a blank. -/
def IsLabel (label : Text) : Prop :=
  IsWhole label ∧ (label = [] ∨ isBlankText label = false ∧ trimEnd label = label)

instance (label : Text) : Decidable (IsLabel label) :=
  inferInstanceAs (Decidable (_ ∧ _))

namespace IsTitle

variable (isTitle : IsTitle text)

include isTitle

theorem not_isBlankText : isBlankText text = false := by
  rw [Bool.eq_false_iff]
  intro blank
  exact isTitle.nonempty (isTitle.trimmed.symm.trans (trim_eq_nil_of_isBlankText blank))

theorem trimEnd_eq : trimEnd text = text := by
  conv_lhs => rw [← isTitle.trimmed, trim, trimEnd_trimEnd]
  exact isTitle.trimmed

theorem trimStart_eq : trimStart text = text := by
  have shorter : (trimStart text).length ≤ text.length := (List.dropWhile_sublist isBlank).length_le
  have noShorter : text.length ≤ (trimStart text).length := by
    conv_lhs => rw [← isTitle.trimmed, trim, trimEnd_eq_rdropWhile]
    exact (List.rdropWhile_prefix isBlank _).length_le
  exact (List.dropWhile_sublist isBlank).eq_of_length (Nat.le_antisymm shorter noShorter)

/-- A text that begins without a blank and ends in a title is trimmed. -/
theorem trim_cons_append {symbol : Symbol} (solid : isBlank symbol = false) (front : Text) :
    trim (symbol :: front ++ text) = symbol :: front ++ text := by
  have start : trimStart (symbol :: front ++ text) = symbol :: front ++ text :=
    List.dropWhile_cons_of_neg (by simp [solid])
  rw [trim, start, trimEnd_append isTitle.not_isBlankText, isTitle.trimEnd_eq]

theorem append (isLabel : IsLabel label) : IsTitle (text ++ label) where
  nonempty := List.append_ne_nil_of_left_ne_nil isTitle.nonempty _
  whole := fun symbol member =>
    (List.mem_append.mp member).elim (isTitle.whole symbol) (isLabel.1 symbol)
  trimmed := by
    rcases isLabel.2 with rfl | ⟨notBlank, trimmed⟩
    · rw [List.append_nil, isTitle.trimmed]
    · rw [trim, trimStart_append isTitle.not_isBlankText, isTitle.trimStart_eq,
        trimEnd_append notBlank, trimmed]

theorem cons_append {symbol : Symbol} {front : Text} (solid : isBlank symbol = false)
    (whole : IsWhole (symbol :: front)) : IsTitle (symbol :: front ++ text) where
  nonempty := List.cons_ne_nil _ _
  whole := fun other member =>
    (List.mem_append.mp member).elim (whole other) (isTitle.whole other)
  trimmed := isTitle.trim_cons_append solid front

end IsTitle

end Text

namespace Contents

open Text (IsTitle IsWhole isBlank trim)

variable {text line title : Text} {list : List Text} {inCode after middle : Bool}
variable {found others : List Heading}

/-- A heading of the first three levels: one to three hashes with a blank behind them. -/
def IsHeadingLine (line : Text) : Prop :=
  ∃ level blank rest, 1 ≤ level ∧ level ≤ 3 ∧ isBlank blank = true ∧
    line = Text.copies level (.char '#') ++ blank :: rest

/-- A text none of whose lines is a fence. -/
def IsCode (text : Text) : Prop :=
  ∀ line ∈ Text.lines text, isFence (trim line) = false

/-- A text none of whose lines is a fence or a heading. -/
def IsProse (text : Text) : Prop :=
  ∀ line ∈ Text.lines text, isFence (trim line) = false ∧ ¬IsHeadingLine (trim line)

/--
Reading the lines of a text gives some headings.  Before it, and behind it, stands code or prose.
-/
def Scans (inCode : Bool) (text : Text) (found : List Heading) (after : Bool) : Prop :=
  ∀ rest, headingsFrom inCode (Text.lines (text ++ .char '\n' :: rest)) =
    found ++ headingsFrom after (Text.lines rest)

/-! ## Lines -/

theorem heading?_copies {level : Nat} {blank : Symbol} (least : 1 ≤ level) (most : level ≤ 3)
    (isBlank : isBlank blank = true) (rest : Text) :
    heading? (Text.copies level (.char '#') ++ blank :: rest) = some ⟨level, trim rest⟩ := by
  have marks : (Text.copies level (.char '#') ++ blank :: rest).takeWhile (· == Symbol.char '#') =
      Text.copies level (.char '#') := by
    have stops : (blank == Symbol.char '#') = false := by
      rw [beq_eq_false_iff_ne]
      rintro rfl
      cases isBlank
    rw [List.takeWhile_append_of_pos (by simp [Text.copies]),
      List.takeWhile_cons_of_neg (by simp [stops]), List.append_nil]
  have behind : (Text.copies level (.char '#') ++ blank :: rest).drop level = blank :: rest := by
    rw [List.drop_left' (Text.length_copies level _)]
  simp only [heading?, marks, Text.length_copies, behind, least, most, deepest, isBlank,
    decide_true, Bool.and_self, if_true]

theorem heading?_eq_none (notHeading : ¬IsHeadingLine line) : heading? line = none := by
  rw [Option.eq_none_iff_forall_ne_some]
  intro heading found
  have marks : line.takeWhile (· == Symbol.char '#') =
      Text.copies (line.takeWhile (· == Symbol.char '#')).length (.char '#') :=
    List.eq_replicate_of_mem fun symbol member => by
      simpa using List.mem_takeWhile_imp member
  simp only [heading?] at found
  split at found
  · rename_i blank rest behind
    split at found
    · rename_i isHeading
      simp only [Bool.and_eq_true, decide_eq_true_eq, deepest] at isHeading
      obtain ⟨⟨least, most⟩, isBlank⟩ := isHeading
      refine notHeading ⟨_, blank, rest, least, of_decide_eq_true most, isBlank, ?_⟩
      rw [← marks, ← behind]
      exact (List.prefix_iff_eq_append.mp (List.takeWhile_prefix _)).symm
    · cases found
  · cases found

theorem isHeadingLine_iff : IsHeadingLine line ↔ (heading? line).isSome = true := by
  constructor
  · rintro ⟨level, blank, rest, least, most, isBlank, rfl⟩
    rw [heading?_copies least most isBlank]
    rfl
  · contrapose
    intro notHeading
    rw [heading?_eq_none notHeading]
    exact Bool.false_ne_true

instance (line : Text) : Decidable (IsHeadingLine line) :=
  decidable_of_iff' _ isHeadingLine_iff

instance (text : Text) : Decidable (IsCode text) :=
  inferInstanceAs (Decidable (∀ _ ∈ _, _))

instance (text : Text) : Decidable (IsProse text) :=
  inferInstanceAs (Decidable (∀ _ ∈ _, _ ∧ _))

/-- No level is deeper than the deepest one, so a first heading above all others is topmost. -/
theorem top_cons {heading : Heading} (shallow : heading.level ≤ deepest)
    (least : ∀ other ∈ found, heading.level ≤ other.level) :
    top (heading :: found) = heading.level := by
  rw [top, List.foldl_cons, Nat.min_eq_right shallow]
  induction found with
  | nil => rfl
  | cons other rest ih =>
      rw [List.foldl_cons, Nat.min_eq_left (least other List.mem_cons_self)]
      exact ih fun below member => least below (List.mem_cons_of_mem _ member)

/-- A line that begins with another symbol is no fence and no heading. -/
theorem isProse_of_head {symbol : Symbol} (solid : isBlank symbol = false)
    (notFence : symbol ≠ .char '`') (notMark : symbol ≠ .char '#') (rest : Text) :
    isFence (trim (symbol :: rest)) = false ∧ ¬IsHeadingLine (trim (symbol :: rest)) := by
  have start : Text.trimStart (symbol :: rest) = symbol :: rest :=
    List.dropWhile_cons_of_neg (by simp [solid])
  obtain ⟨blanks, cut, areBlank⟩ := Text.exists_eq_trimEnd_append (symbol :: rest)
  -- What trimming leaves begins with the same symbol.
  obtain ⟨more, trimmed⟩ : ∃ more, trim (symbol :: rest) = symbol :: more := by
    rw [trim, start]
    cases kept : Text.trimEnd (symbol :: rest) with
    | nil =>
        have blank := Text.trimEnd_eq_nil_iff.mp kept
        rw [Text.isBlankText, List.all_cons, solid] at blank
        cases blank
    | cons first more =>
        rw [kept] at cut
        exact ⟨more, by rw [(List.cons.inj cut).1]⟩
  rw [trimmed]
  constructor
  · rw [Bool.eq_false_iff]
    intro fence
    obtain ⟨behind, same⟩ := Text.startsWith_iff.mp fence
    exact notFence (List.cons.inj same).1
  · rintro ⟨level, blank, behind, least, -, -, same⟩
    obtain ⟨fewer, rfl⟩ := Nat.exists_eq_add_of_le' least
    rw [Text.copies, List.replicate_succ] at same
    exact notMark (List.cons.inj same).1

/-- Prose stays prose behind the beginning of a line with another symbol. -/
theorem IsProse.cons_append {symbol : Symbol} {front : Text} (isProse : IsProse text)
    (solid : isBlank symbol = false) (notFence : symbol ≠ .char '`') (notMark : symbol ≠ .char '#')
    (whole : IsWhole (symbol :: front)) : IsProse (symbol :: front ++ text) := by
  obtain ⟨first, others, seen, behind⟩ :=
    Text.exists_lines_append whole (List.cons_ne_nil symbol front) text
  intro line member
  rw [seen] at member
  rcases List.mem_cons.mp member with rfl | inOthers
  · exact isProse_of_head solid notFence notMark (front ++ first)
  · exact isProse line (behind inOthers)

/-- Lines that are no fences and, in prose, no headings add nothing. -/
theorem headingsFrom_append_of_quiet {front : List Text}
    (quiet : ∀ line ∈ front, isFence (trim line) = false ∧
      (inCode = false → heading? (trim line) = none)) :
    headingsFrom inCode (front ++ list) = headingsFrom inCode list := by
  induction front with
  | nil => rfl
  | cons line rest ih =>
      obtain ⟨⟨noFence, noHeading⟩, others⟩ := List.forall_mem_cons.mp quiet
      rw [List.cons_append, headingsFrom, noFence, ih others]
      cases inCode with
      | true => rfl
      | false =>
          rw [noHeading rfl]
          rfl

/-- An empty line adds nothing. -/
theorem headingsFrom_concat_nil (inCode : Bool) (list : List Text) :
    headingsFrom inCode (list ++ [[]]) = headingsFrom inCode list := by
  induction list generalizing inCode with
  | nil => cases inCode <;> rfl
  | cons line rest ih => rw [List.cons_append, headingsFrom, headingsFrom, ih, ih]

/-! ## Scans of texts -/

namespace Scans

/-- Scans of two texts make up the scan of both, with a line feed between them. -/
theorem append {next : Text} (first : Scans inCode text found middle)
    (second : Scans middle next others after) :
    Scans inCode (text ++ .char '\n' :: next) (found ++ others) after := by
  intro rest
  rw [List.append_assoc, List.cons_append, first, second, List.append_assoc]

/-- A text without fences is scanned without headings, if it is code or has none. -/
theorem of_quiet (quiet : ∀ line ∈ Text.lines text, isFence (trim line) = false ∧
    (inCode = false → heading? (trim line) = none)) : Scans inCode text [] inCode := by
  intro rest
  obtain ⟨cut, -, seen, same⟩ := Text.exists_lines_append_feed text
  rw [seen, List.nil_append]
  apply headingsFrom_append_of_quiet
  intro line member
  rcases same with rfl | rfl
  · exact quiet line member
  · rcases List.mem_append.mp member with inText | isLast
    · exact quiet line inText
    · rw [List.mem_singleton.mp isLast]
      exact ⟨rfl, fun _ => rfl⟩

theorem of_isProse (isProse : IsProse text) : Scans inCode text [] inCode :=
  of_quiet fun line member =>
    ⟨(isProse line member).1, fun _ => heading?_eq_none (isProse line member).2⟩

theorem of_isCode (isCode : IsCode text) : Scans true text [] true :=
  of_quiet fun line member => ⟨isCode line member, fun prose => nomatch prose⟩

theorem nil (inCode : Bool) : Scans inCode [] [] inCode :=
  of_quiet fun _ member => nomatch member

/-- A fence line turns prose into code and code into prose. -/
theorem of_isFence (whole : IsWhole line) (isFence : isFence (trim line) = true) :
    Scans inCode line [] (!inCode) := by
  intro rest
  rw [Text.lines_append_feed whole, headingsFrom, isFence]
  rfl

/-- A heading line is found. -/
theorem heading {level : Nat} (least : 1 ≤ level) (most : level ≤ 3) (isTitle : IsTitle title) :
    Scans false (Text.copies level (.char '#') ++ .char ' ' :: title) [⟨level, title⟩] false := by
  obtain ⟨fewer, rfl⟩ := Nat.exists_eq_add_of_le' least
  have begins : Text.copies (fewer + 1) (.char '#') ++ .char ' ' :: title =
      .char '#' :: (Text.copies fewer (.char '#') ++ [.char ' ']) ++ title := by
    simp [Text.copies, List.replicate_succ]
  have marks : IsWhole (.char '#' :: (Text.copies fewer (.char '#') ++ [.char ' '])) := by
    intro symbol member
    simp only [Text.copies, List.mem_cons, List.mem_append, List.mem_replicate, List.not_mem_nil,
      or_false] at member
    rcases member with rfl | ⟨-, rfl⟩ | rfl <;> rfl
  have whole := isTitle.cons_append (by rfl) marks
  rw [← begins] at whole
  have found := heading?_copies least most (show isBlank (.char ' ') = true from rfl) title
  intro rest
  have notFence : isFence (Text.copies (fewer + 1) (.char '#') ++ .char ' ' :: title) = false := rfl
  rw [Text.lines_append_feed whole.whole, headingsFrom, whole.trimmed, notFence, found, isTitle.trimmed]
  rfl

/-- A text is read as if a line feed stood behind it. -/
theorem headings_eq (scans : Scans false text found after) : headings text = found := by
  obtain ⟨cut, -, seen, same⟩ := Text.exists_lines_append_feed text
  have whole := scans []
  rw [seen, Text.lines_nil, headingsFrom, List.append_nil, List.append_nil] at whole
  rw [headings, ← whole]
  rcases same with rfl | rfl
  · rfl
  · rw [headingsFrom_concat_nil]

/-! ## Joined blocks -/

open Page (joinBlocks)

variable {first second : List Text} {α : Type} {textOf : α → Text} {headingsOf : α → List Heading}

/-- Joined blocks are scanned one after the other. -/
theorem joinBlocks_append (firstScans : Scans inCode (joinBlocks first) found inCode)
    (secondScans : Scans inCode (joinBlocks second) others inCode) :
    Scans inCode (joinBlocks (first ++ second)) (found ++ others) inCode := by
  have foundNothing {found : List Heading} (scans : Scans inCode [] found inCode) : found = [] := by
    have alone := (scans []).symm.trans (nil inCode [])
    simpa [headingsFrom] using alone
  rcases eq_or_ne first [] with rfl | someFirst
  · rwa [foundNothing firstScans, List.nil_append, List.nil_append]
  · rcases eq_or_ne second [] with rfl | someSecond
    · rwa [foundNothing secondScans, List.append_nil, List.append_nil]
    · have cut : joinBlocks (first ++ second) =
          joinBlocks first ++ .char '\n' :: ([] ++ .char '\n' :: joinBlocks second) := by
        rw [joinBlocks, Text.joinWith_append _ someFirst someSecond, List.append_assoc]
        rfl
      rw [cut]
      exact firstScans.append ((nil inCode).append secondScans)

theorem joinBlocks_map {items : List α}
    (each : ∀ item ∈ items, Scans inCode (textOf item) (headingsOf item) inCode) :
    Scans inCode (joinBlocks (items.map textOf)) (items.flatMap headingsOf) inCode := by
  induction items with
  | nil => exact nil inCode
  | cons item rest ih =>
      obtain ⟨own, others⟩ := List.forall_mem_cons.mp each
      have alone : Scans inCode (joinBlocks [textOf item]) (headingsOf item) inCode := own
      exact alone.joinBlocks_append (ih others)

/-- Blocks without headings are scanned without headings. -/
theorem joinBlocks_of_nil {blocks : List Text}
    (each : ∀ block ∈ blocks, Scans inCode block [] inCode) :
    Scans inCode (joinBlocks blocks) [] inCode := by
  have all : Scans inCode (joinBlocks (blocks.map id)) (blocks.flatMap fun _ => []) inCode :=
    joinBlocks_map each
  rwa [List.map_id, List.flatMap_eq_nil_iff.mpr fun _ _ => rfl] at all

/-- A piece of code between two fences is scanned without headings. -/
theorem code (scans : Scans true text [] true) : Scans false (Page.code text) [] false := by
  have opens : Scans false "```ts" [] true := of_isFence (by decide) (by decide)
  have closes : Scans true "```" [] false := of_isFence (by decide) (by decide)
  have cut : Page.code text =
      Text.ofString "```ts" ++ .char '\n' :: (text ++ .char '\n' :: Text.ofString "```") := by
    simp [Page.code, Text.ofString, Text.ofChars]
  rw [cut]
  exact opens.append (scans.append closes)

end Scans

end Contents

end ApiDocs
