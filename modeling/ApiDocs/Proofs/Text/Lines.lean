import ApiDocs.Proofs.Text.Pieces
import ApiDocs.Text.Lines

/-!
# The lines of a text

Cutting a file into lines and joining lines are inverse to each other, as long as no line
has a line feed.  A text without carriage returns is read as it was written.

The lines on screen are cut at more characters.  Where the lines have none of them, it makes no
difference that they are joined with line feeds; only an empty last line is not seen.
-/

namespace ApiDocs.Text

variable {text line : Text} {lines : List Text}

theorem fileLines_eq_splitOn (text : Text) : fileLines text = text.splitOn (.char '\n') := by
  induction text with
  | nil => rfl
  | cons symbol rest ih =>
      have cut := List.splitOn_ne_nil (Symbol.char '\n') rest
      rw [fileLines, ih, List.splitOn_cons_eq_if_modifyHead]
      obtain ⟨head, others, same⟩ := List.exists_cons_of_ne_nil cut
      by_cases feeds : symbol = .char '\n'
      · simp [feeds]
      · simp [feeds, same, consLine]

theorem fileLines_ne_nil (text : Text) : fileLines text ≠ [] := by
  rw [fileLines_eq_splitOn]
  exact List.splitOn_ne_nil _ _

theorem feed_not_mem_of_mem_fileLines (member : line ∈ fileLines text) :
    Symbol.char '\n' ∉ line := by
  rw [fileLines_eq_splitOn] at member
  exact not_mem_of_mem_splitOn _ member

/-- The lines of a file, joined again, are the file. -/
theorem unlines_fileLines (text : Text) : unlines (fileLines text) = text := by
  rw [fileLines_eq_splitOn]
  exact joinWith_splitOn (Symbol.char '\n') text

/-- Lines without line feeds are the lines of the file to which they are joined. -/
theorem fileLines_unlines (nonempty : lines ≠ [])
    (whole : ∀ line ∈ lines, Symbol.char '\n' ∉ line) : fileLines (unlines lines) = lines := by
  rw [fileLines_eq_splitOn]
  exact splitOn_joinWith_of_not_mem (Symbol.char '\n') nonempty whole

theorem return_not_mem_unifyBreaks (text : Text) : Symbol.char '\r' ∉ unifyBreaks text := by
  fun_induction unifyBreaks text with
  | case1 => exact List.not_mem_nil
  | case2 rest ih => exact List.not_mem_cons_of_ne_of_not_mem (by decide) ih
  | case3 symbol rest notPair ih =>
      refine List.not_mem_cons_of_ne_of_not_mem ?_ ih
      split
      · decide
      · rename_i other
        exact Ne.symm other

/-- Without carriage returns there is nothing to unify. -/
theorem unifyBreaks_of_not_mem (whole : Symbol.char '\r' ∉ text) : unifyBreaks text = text := by
  fun_induction unifyBreaks text with
  | case1 => rfl
  | case2 rest ih => exact absurd List.mem_cons_self whole
  | case3 symbol rest notPair ih =>
      have other : symbol ≠ .char '\r' := fun same => whole (same ▸ List.mem_cons_self)
      rw [if_neg other, ih fun member => whole (List.mem_cons_of_mem symbol member)]

/-! ## Texts without carriage returns -/

/-- The text without its carriage returns. -/
def withoutReturns (text : Text) : Text :=
  text.filter (· != .char '\r')

/-- Every carriage return of a text stands in front of a line feed. -/
def PairsReturns (text : Text) : Prop :=
  ∀ front rest, text = front ++ .char '\r' :: rest → rest.head? = some (.char '\n')

theorem pairsReturns_cons_iff {symbol : Symbol} {rest : Text} :
    PairsReturns (symbol :: rest) ↔
      (symbol = .char '\r' → rest.head? = some (.char '\n')) ∧ PairsReturns rest := by
  constructor
  · intro paired
    refine ⟨fun isReturn => paired [] rest (by rw [isReturn]; rfl), fun front behind cut => ?_⟩
    exact paired (symbol :: front) behind (by rw [cut]; rfl)
  · rintro ⟨own, paired⟩ front behind cut
    cases front with
    | nil =>
        obtain ⟨isReturn, rfl⟩ := List.cons.inj cut
        exact own isReturn
    | cons first front => exact paired front behind (List.cons.inj cut).2

theorem withoutReturns_of_not_mem (whole : Symbol.char '\r' ∉ text) :
    withoutReturns text = text := by
  refine List.filter_eq_self.mpr fun symbol member => ?_
  rw [bne_iff_ne]
  rintro rfl
  exact whole member

/-- The lines of a text without carriage returns are its lines without them. -/
theorem fileLines_withoutReturns (text : Text) :
    fileLines (withoutReturns text) = (fileLines text).map withoutReturns := by
  induction text with
  | nil => rfl
  | cons symbol rest ih =>
      obtain ⟨head, others, cut⟩ := List.exists_cons_of_ne_nil (fileLines_ne_nil rest)
      rw [withoutReturns] at ih ⊢
      rw [fileLines]
      by_cases isReturn : symbol = .char '\r'
      · rw [List.filter_cons_of_neg (by simp [isReturn]), ih, if_neg (by simp [isReturn]), cut]
        simp [isReturn, consLine, withoutReturns]
      · rw [List.filter_cons_of_pos (by simpa using isReturn), fileLines, ih, cut]
        split <;> simp [isReturn, consLine, withoutReturns]

theorem length_fileLines (text : Text) :
    (fileLines text).length = text.count (.char '\n') + 1 := by
  induction text with
  | nil => rfl
  | cons symbol rest ih =>
      obtain ⟨head, others, cut⟩ := List.exists_cons_of_ne_nil (fileLines_ne_nil rest)
      rw [fileLines, List.count_cons]
      split
      · rename_i feeds
        rw [List.length_cons, ih, if_pos (by simpa using feeds)]
      · rename_i stays
        rw [cut] at ih
        rw [cut, consLine, if_neg (by simpa using stays)]
        simpa using ih

/--
Unifying the ends of lines takes away carriage returns if each stands in front of a line feed.
-/
theorem unifyBreaks_of_pairsReturns (paired : PairsReturns text) :
    unifyBreaks text = withoutReturns text := by
  fun_induction unifyBreaks text with
  | case1 => rfl
  | case2 rest ih =>
      have pairedRest := (pairsReturns_cons_iff.mp (pairsReturns_cons_iff.mp paired).2).2
      rw [ih pairedRest]
      rfl
  | case3 symbol rest notPair ih =>
      obtain ⟨own, pairedRest⟩ := pairsReturns_cons_iff.mp paired
      have other : symbol ≠ .char '\r' := by
        rintro rfl
        obtain ⟨behind, rfl⟩ := List.head?_eq_some_iff.mp (own rfl)
        exact notPair behind rfl rfl
      rw [if_neg other, ih pairedRest, withoutReturns, withoutReturns,
        List.filter_cons_of_pos (by simpa using other)]

/-- Unifying the ends of lines makes no lines exactly if each carriage return is part of an end. -/
theorem count_feeds_unifyBreaks (text : Text) :
    text.count (.char '\n') ≤ (unifyBreaks text).count (.char '\n') ∧
      ((unifyBreaks text).count (.char '\n') = text.count (.char '\n') ↔ PairsReturns text) := by
  fun_induction unifyBreaks text with
  | case1 => exact ⟨Nat.le_refl _, iff_of_true rfl fun front rest cut => by simp at cut⟩
  | case2 rest ih =>
      have behind : PairsReturns (.char '\r' :: .char '\n' :: rest) ↔ PairsReturns rest := by
        simp [pairsReturns_cons_iff]
      rw [behind, List.count_cons_self, List.count_cons_of_ne (by decide), List.count_cons_self,
        Nat.add_right_cancel_iff]
      exact ⟨Nat.succ_le_succ ih.1, ih.2⟩
  | case3 symbol rest notPair ih =>
      obtain ⟨fewer, same⟩ := ih
      by_cases isReturn : symbol = .char '\r'
      · subst isReturn
        rw [if_pos rfl, List.count_cons_self, List.count_cons_of_ne (by decide)]
        refine ⟨by omega, iff_of_false (by omega) fun paired => ?_⟩
        obtain ⟨behind, rfl⟩ := List.head?_eq_some_iff.mp ((pairsReturns_cons_iff.mp paired).1 rfl)
        exact notPair behind rfl rfl
      · have behind : PairsReturns (symbol :: rest) ↔ PairsReturns rest := by
          simp [pairsReturns_cons_iff, isReturn]
        rw [if_neg isReturn, behind, List.count_cons, List.count_cons, Nat.add_right_cancel_iff]
        exact ⟨Nat.add_le_add_right fewer _, same⟩

/-! ## Lines on screen -/

/-- A line that holds none of the characters at which lines end. -/
def IsWhole (line : Text) : Prop :=
  ∀ symbol ∈ line, isLineBreak symbol = false

instance (line : Text) : Decidable (IsWhole line) :=
  inferInstanceAs (Decidable (∀ symbol ∈ line, isLineBreak symbol = false))

theorem IsWhole.feed_not_mem (whole : IsWhole line) : Symbol.char '\n' ∉ line := by
  intro member
  cases whole _ member

theorem IsWhole.of_subset (whole : IsWhole text) (subset : line ⊆ text) : IsWhole line :=
  fun symbol member => whole symbol (subset member)

theorem lines_cons_of_not_break {symbol : Symbol} (stays : isLineBreak symbol = false)
    (rest : Text) : Text.lines (symbol :: rest) = consLine symbol (Text.lines rest) := by
  rw [Text.lines, stays, if_neg Bool.false_ne_true]
  rintro _ rfl
  cases stays

theorem lines_cons_of_break {symbol : Symbol} {rest : Text} (breaks : isLineBreak symbol = true)
    (notPair : ∀ others, symbol = .char '\r' → rest = .char '\n' :: others → False) :
    Text.lines (symbol :: rest) = [] :: Text.lines rest := by
  rw [Text.lines, if_pos breaks]
  exact notPair

/-- A line ends at a line feed. -/
theorem lines_append_feed (whole : IsWhole line) (rest : Text) :
    Text.lines (line ++ .char '\n' :: rest) = line :: Text.lines rest := by
  induction line with
  | nil => rfl
  | cons symbol line ih =>
      have others : IsWhole line := fun other member => whole other (List.mem_cons_of_mem _ member)
      rw [List.cons_append, lines_cons_of_not_break (whole symbol List.mem_cons_self), ih others]
      rfl

/-- What stands in front of a text without breaks belongs to its first line. -/
theorem exists_lines_append (whole : IsWhole line) (nonempty : line ≠ []) (text : Text) :
    ∃ first others, Text.lines (line ++ text) = (line ++ first) :: others ∧
      others ⊆ Text.lines text := by
  induction line with
  | nil => exact absurd rfl nonempty
  | cons symbol line ih =>
      have others : IsWhole line := fun other member => whole other (List.mem_cons_of_mem _ member)
      rw [List.cons_append, lines_cons_of_not_break (whole symbol List.mem_cons_self)]
      rcases eq_or_ne line [] with rfl | more
      · cases seen : Text.lines text with
        | nil =>
            refine ⟨[], [], ?_, List.nil_subset _⟩
            rw [List.nil_append, seen]
            rfl
        | cons first rest =>
            refine ⟨first, rest, ?_, List.subset_cons_self first rest⟩
            rw [List.nil_append, seen]
            rfl
      · obtain ⟨first, rest, seen, behind⟩ := ih others more
        exact ⟨first, rest, by rw [seen]; rfl, behind⟩

/--
A line feed ends a line whatever stands in front of it.  What it ends are the lines of the text,
and behind a break one more line that is empty.
-/
theorem exists_lines_append_feed (text : Text) :
    ∃ cut, cut ≠ [] ∧ (∀ rest, Text.lines (text ++ .char '\n' :: rest) = cut ++ Text.lines rest) ∧
      (cut = Text.lines text ∨ cut = Text.lines text ++ [[]]) := by
  fun_induction Text.lines text with
  | case1 => exact ⟨[[]], List.cons_ne_nil _ _, fun rest => rfl, .inr rfl⟩
  | case2 text ih =>
      obtain ⟨cut, -, seen, same⟩ := ih
      exact ⟨[] :: cut, List.cons_ne_nil _ _, fun rest => congrArg ([] :: ·) (seen rest),
        same.imp (congrArg ([] :: ·)) (congrArg ([] :: ·))⟩
  | case3 symbol text notPair breaks ih =>
      by_cases pair : text = [] ∧ symbol = .char '\r'
      · obtain ⟨rfl, rfl⟩ := pair
        exact ⟨[[]], List.cons_ne_nil _ _, fun rest => rfl, .inl rfl⟩
      · obtain ⟨cut, -, seen, same⟩ := ih
        refine ⟨[] :: cut, List.cons_ne_nil _ _, fun rest => ?_,
          same.imp (congrArg ([] :: ·)) (congrArg ([] :: ·))⟩
        have alone : ∀ others, symbol = .char '\r' →
            text ++ .char '\n' :: rest = .char '\n' :: others → False := by
          intro others returns begins
          cases text with
          | nil => exact pair ⟨rfl, returns⟩
          | cons first more => exact notPair more returns (by rw [(List.cons.inj begins).1])
        rw [List.cons_append, lines_cons_of_break breaks alone, seen, List.cons_append]
  | case4 symbol text notPair stays ih =>
      obtain ⟨cut, nonempty, seen, same⟩ := ih
      obtain ⟨first, others, rfl⟩ := List.exists_cons_of_ne_nil nonempty
      have stays : isLineBreak symbol = false := Bool.eq_false_iff.mpr stays
      refine ⟨consLine symbol (first :: others), List.cons_ne_nil _ _, fun rest => ?_, ?_⟩
      · rw [List.cons_append, lines_cons_of_not_break stays, seen]
        rfl
      · rcases same with same | same
        · rw [same]
          exact .inl rfl
        · cases before : Text.lines text with
          | nil =>
              rw [before] at same
              rw [same]
              exact .inl rfl
          | cons line more =>
              rw [before] at same
              rw [same]
              exact .inr rfl

theorem lines_eq_singleton (whole : IsWhole line) (nonempty : line ≠ []) :
    Text.lines line = [line] := by
  induction line with
  | nil => exact absurd rfl nonempty
  | cons symbol line ih =>
      have others : IsWhole line := fun other member => whole other (List.mem_cons_of_mem _ member)
      rw [lines_cons_of_not_break (whole symbol List.mem_cons_self)]
      rcases eq_or_ne line [] with rfl | more
      · rfl
      · rw [ih others more]
        rfl

/-- Lines that are joined with line feeds are seen again, if the last of them is not empty. -/
theorem lines_unlines {front : List Text} {last : Text} (wholeFront : ∀ line ∈ front, IsWhole line)
    (wholeLast : IsWhole last) (nonempty : last ≠ []) :
    Text.lines (unlines (front ++ [last])) = front ++ [last] := by
  induction front with
  | nil => exact lines_eq_singleton wholeLast nonempty
  | cons first rest ih =>
      obtain ⟨whole, others⟩ := List.forall_mem_cons.mp wholeFront
      rw [List.cons_append, unlines, joinWith_cons _ _ (List.append_ne_nil_of_right_ne_nil _ (by simp)),
        List.append_assoc, ← unlines]
      exact (lines_append_feed whole _).trans (congrArg (first :: ·) (ih others))

theorem lines_unlines_of_forall (proper : ∀ line ∈ lines, IsWhole line ∧ line ≠ []) :
    Text.lines (unlines lines) = lines := by
  rcases List.eq_nil_or_concat' lines with rfl | ⟨front, last, rfl⟩
  · rfl
  · obtain ⟨whole, nonempty⟩ := proper last (by simp)
    exact lines_unlines (fun line member => (proper line (List.mem_append_left _ member)).1) whole
      nonempty

/-- No line holds a character at which lines end. -/
theorem isWhole_of_mem_lines (member : line ∈ Text.lines text) : IsWhole line := by
  fun_induction Text.lines text generalizing line with
  | case1 => cases member
  | case2 rest ih =>
      rcases List.mem_cons.mp member with rfl | inRest
      · exact fun _ isIn => nomatch isIn
      · exact ih inRest
  | case3 symbol rest notPair breaks ih =>
      rcases List.mem_cons.mp member with rfl | inRest
      · exact fun _ isIn => nomatch isIn
      · exact ih inRest
  | case4 symbol rest notPair stays ih =>
      have stays : isLineBreak symbol = false := Bool.eq_false_iff.mpr stays
      cases others : Text.lines rest with
      | nil =>
          rw [others] at member
          rw [List.mem_singleton.mp member]
          simpa [IsWhole] using stays
      | cons first more =>
          rw [others] at member ih
          rcases List.mem_cons.mp member with rfl | inMore
          · exact List.forall_mem_cons.mpr ⟨stays, ih List.mem_cons_self⟩
          · exact ih (List.mem_cons_of_mem _ inMore)

/-- A line on screen is made of symbols of the text. -/
theorem subset_of_mem_lines (member : line ∈ Text.lines text) : line ⊆ text := by
  fun_induction Text.lines text generalizing line with
  | case1 => cases member
  | case2 rest ih =>
      rcases List.mem_cons.mp member with rfl | inRest
      · exact List.nil_subset _
      · exact fun symbol inLine => by simp [ih inRest inLine]
  | case3 symbol rest notPair breaks ih =>
      rcases List.mem_cons.mp member with rfl | inRest
      · exact List.nil_subset _
      · exact List.subset_cons_of_subset symbol (ih inRest)
  | case4 symbol rest notPair stays ih =>
      cases others : Text.lines rest with
      | nil =>
          rw [others] at member
          rw [List.mem_singleton.mp member]
          simp
      | cons first more =>
          rw [others] at member ih
          rcases List.mem_cons.mp member with rfl | inMore
          · exact List.cons_subset_cons symbol (ih List.mem_cons_self)
          · exact List.subset_cons_of_subset symbol (ih (List.mem_cons_of_mem _ inMore))

end ApiDocs.Text
