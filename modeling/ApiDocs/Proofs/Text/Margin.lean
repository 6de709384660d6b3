import Mathlib.Data.List.Infix
import ApiDocs.Proofs.Text.Blank
import ApiDocs.Text.Margin

/-!
# Blocks without a margin

The margin of a block is the longest common beginning of the indentations of its lines.  When it
is removed, the indentations have no common beginning any more; so removing the margin of the
block once more changes nothing.
-/

namespace ApiDocs.Text

variable {block : List Text} {line margin : Text}

/-! ## Common beginnings -/

/-- What two texts begin with alike is a part of their common beginning. -/
theorem commonPrefix_append (front first second : Text) :
    commonPrefix (front ++ first) (front ++ second) = front ++ commonPrefix first second := by
  induction front with
  | nil => rfl
  | cons symbol front ih => rw [List.cons_append, List.cons_append, commonPrefix, if_pos rfl, ih,
      List.cons_append]

theorem commonPrefix_prefix (first second : Text) :
    commonPrefix first second <+: first ∧ commonPrefix first second <+: second := by
  fun_induction commonPrefix first second with
  | case1 symbol first second ih =>
      exact ⟨List.cons_prefix_cons.mpr ⟨rfl, ih.1⟩, List.cons_prefix_cons.mpr ⟨rfl, ih.2⟩⟩
  | case2 => exact ⟨List.nil_prefix, List.nil_prefix⟩
  | case3 => exact ⟨List.nil_prefix, List.nil_prefix⟩

theorem foldl_commonPrefix_append (front first : Text) (others : List Text) :
    (others.map (front ++ ·)).foldl commonPrefix (front ++ first) =
      front ++ others.foldl commonPrefix first := by
  induction others generalizing first with
  | nil => rfl
  | cons next rest ih =>
      rw [List.map_cons, List.foldl_cons, commonPrefix_append, ih, List.foldl_cons]

theorem foldl_commonPrefix_prefix (first : Text) (others : List Text) :
    others.foldl commonPrefix first <+: first ∧
      ∀ other ∈ others, others.foldl commonPrefix first <+: other := by
  induction others generalizing first with
  | nil => exact ⟨List.prefix_rfl, by simp⟩
  | cons next rest ih =>
      obtain ⟨isPrefix, every⟩ := ih (commonPrefix first next)
      obtain ⟨ofFirst, ofNext⟩ := commonPrefix_prefix first next
      refine ⟨isPrefix.trans ofFirst, List.forall_mem_cons.mpr ⟨isPrefix.trans ofNext, every⟩⟩

/-- Without their common beginning, texts have none. -/
theorem foldl_commonPrefix_drop {first common : Text} {others : List Text}
    (isCommon : others.foldl commonPrefix first = common) :
    (others.map (·.drop common.length)).foldl commonPrefix (first.drop common.length) = [] := by
  obtain ⟨ofFirst, ofOthers⟩ := foldl_commonPrefix_prefix first others
  rw [isCommon] at ofFirst ofOthers
  have restored {text : Text} (begins : common <+: text) :
      common ++ text.drop common.length = text := by
    obtain ⟨rest, rfl⟩ := begins
    rw [List.drop_left]
  have same : (others.map (·.drop common.length)).map (common ++ ·) = others := by
    rw [List.map_map]
    exact (List.map_congr_left fun other member => restored (ofOthers other member)).trans
      (List.map_id others)
  have whole := foldl_commonPrefix_append common (first.drop common.length)
    (others.map (·.drop common.length))
  rw [same, restored ofFirst, isCommon] at whole
  exact List.append_cancel_left (by rw [← whole, List.append_nil])

/-! ## Margins -/

/-- The margin that is removed from a block; without a line that counts there is none. -/
def marginOf (block : List Text) : Text :=
  (margin? block).getD []

theorem indentOf?_eq_some_iff {indent : Text} :
    indentOf? line = some indent ↔
      line.all isIndent = false ∧ line.takeWhile isIndent = indent := by
  rw [indentOf?]
  split
  · rename_i isBlank
    simp [isBlank]
  · rename_i notBlank
    simp [Bool.eq_false_iff.mpr notBlank]

/-- Every line that counts begins with the margin. -/
theorem marginOf_begins (member : line ∈ block) (counts : line.all isIndent = false) :
    marginOf block <+: line.takeWhile isIndent := by
  have inIndents : line.takeWhile isIndent ∈ block.filterMap indentOf? :=
    List.mem_filterMap.mpr ⟨line, member, indentOf?_eq_some_iff.mpr ⟨counts, rfl⟩⟩
  rw [marginOf, margin?]
  cases indents : block.filterMap indentOf? with
  | nil =>
      rw [indents] at inIndents
      cases inIndents
  | cons first others =>
      obtain ⟨ofFirst, ofOthers⟩ := foldl_commonPrefix_prefix first others
      rw [indents] at inIndents
      rcases List.mem_cons.mp inIndents with same | inOthers
      · rw [same]
        exact ofFirst
      · exact ofOthers _ inOthers

/--
A line that counts is the margin and what stays; the indentation of that is shorter by the margin.
-/
theorem exists_outdentLine (begins : margin <+: line.takeWhile isIndent)
    (counts : line.all isIndent = false) :
    ∃ kept, line = margin ++ kept ∧ outdentLine margin line = kept ∧
      kept.all isIndent = false ∧ line.takeWhile isIndent = margin ++ kept.takeWhile isIndent := by
  obtain ⟨deeper, indentation⟩ := begins
  have cut : line = margin ++ (deeper ++ line.dropWhile isIndent) := by
    rw [← List.append_assoc, indentation, List.takeWhile_append_dropWhile]
  have dropped : outdentLine margin line = deeper ++ line.dropWhile isIndent := by
    rw [outdentLine, counts, if_neg Bool.false_ne_true]
    conv_lhs => rw [cut]
    exact List.drop_left
  have areIndents : ∀ symbol ∈ margin ++ deeper, isIndent symbol = true := by
    rw [indentation]
    exact fun symbol => List.mem_takeWhile_imp
  have marginIndents : margin.all isIndent = true :=
    List.all_eq_true.mpr fun symbol member => areIndents symbol (List.mem_append_left _ member)
  have deeperIndents : ∀ symbol ∈ deeper, isIndent symbol = true := fun symbol member =>
    areIndents symbol (List.mem_append_right _ member)
  refine ⟨_, cut, dropped, ?_, ?_⟩
  · rw [cut, List.all_append, marginIndents, Bool.true_and] at counts
    exact counts
  · have stops : (line.dropWhile isIndent).takeWhile isIndent = [] :=
      List.takeWhile_eq_nil_iff.mpr fun inside => List.dropWhile_get_zero_not _ _ inside
    rw [List.takeWhile_append_of_pos deeperIndents, stops, List.append_nil, indentation]

theorem outdentLine_of_all (blank : line.all isIndent = true) : outdentLine margin line = [] := by
  rw [outdentLine, blank, if_pos rfl]

/-- Removing the margin shortens the indentation by it. -/
theorem indentOf?_outdentLine
    (begins : line.all isIndent = false → margin <+: line.takeWhile isIndent) :
    indentOf? (outdentLine margin line) = (indentOf? line).map (·.drop margin.length) := by
  cases counts : line.all isIndent with
  | true =>
      have none : indentOf? line = none := by rw [indentOf?, counts, if_pos rfl]
      rw [outdentLine_of_all counts, none]
      rfl
  | false =>
      obtain ⟨kept, -, dropped, keptCounts, indentation⟩ := exists_outdentLine (begins counts) counts
      rw [dropped, indentOf?_eq_some_iff.mpr ⟨keptCounts, rfl⟩,
        indentOf?_eq_some_iff.mpr ⟨counts, indentation⟩, Option.map_some, List.drop_left]

theorem dedentLines_eq_map (block : List Text) :
    dedentLines block = block.map (outdentLine (marginOf block)) := rfl

/-- Without its margin a block has no margin. -/
theorem marginOf_dedentLines (block : List Text) : marginOf (dedentLines block) = [] := by
  have shorter : (dedentLines block).filterMap indentOf? =
      (block.filterMap indentOf?).map (·.drop (marginOf block).length) := by
    rw [dedentLines_eq_map, List.filterMap_map, List.map_filterMap]
    exact List.filterMap_congr fun line member => indentOf?_outdentLine (marginOf_begins member)
  rw [marginOf, margin?, shorter]
  cases indents : block.filterMap indentOf? with
  | nil => rfl
  | cons first others =>
      have isCommon : others.foldl commonPrefix first = marginOf block := by
        rw [marginOf, margin?, indents]
        rfl
      exact foldl_commonPrefix_drop isCommon

/-- Removing the margin once more changes nothing. -/
theorem dedentLines_dedentLines (block : List Text) :
    dedentLines (dedentLines block) = dedentLines block := by
  conv_lhs => rw [dedentLines_eq_map, marginOf_dedentLines]
  refine (List.map_congr_left fun line member => ?_).trans (List.map_id _)
  rw [dedentLines_eq_map] at member
  obtain ⟨original, inBlock, rfl⟩ := List.mem_map.mp member
  cases counts : original.all isIndent with
  | true =>
      rw [outdentLine_of_all counts]
      rfl
  | false =>
      obtain ⟨kept, -, dropped, keptCounts, -⟩ :=
        exists_outdentLine (marginOf_begins inBlock counts) counts
      rw [dropped, outdentLine, keptCounts, if_neg Bool.false_ne_true]
      rfl

/-! ## What stays of a line -/

section Line

theorem outdentLine_subset (margin line : Text) : outdentLine margin line ⊆ line := by
  rw [outdentLine]
  split
  · exact List.nil_subset _
  · exact List.drop_subset _ _

theorem isBlank_of_isIndent {symbol : Symbol} (indents : isIndent symbol = true) :
    isBlank symbol = true := by
  rw [isIndent, Bool.or_eq_true, beq_iff_eq, beq_iff_eq] at indents
  rcases indents with rfl | rfl <;> rfl

theorem isBlankText_of_all (indents : line.all isIndent = true) : isBlankText line = true :=
  isBlankText_iff.mpr fun symbol member =>
    isBlank_of_isIndent (List.all_eq_true.mp indents symbol member)

theorem isBlankText_margin (begins : margin <+: line.takeWhile isIndent) :
    isBlankText margin = true :=
  isBlankText_iff.mpr fun _ member =>
    isBlank_of_isIndent (List.mem_takeWhile_imp (begins.subset member))

variable (begins : line.all isIndent = false → margin <+: line.takeWhile isIndent)

include begins

theorem isBlankText_outdentLine : isBlankText (outdentLine margin line) = isBlankText line := by
  cases counts : line.all isIndent with
  | true =>
      rw [outdentLine_of_all counts, isBlankText_of_all counts]
      rfl
  | false =>
      obtain ⟨kept, cut, dropped, -, -⟩ := exists_outdentLine (begins counts) counts
      rw [dropped, cut, isBlankText_append, isBlankText_margin (begins counts), Bool.true_and]

/-- A line without blanks at its end has none there when the margin is gone. -/
theorem trimEnd_outdentLine (trimmed : trimEnd line = line) :
    trimEnd (outdentLine margin line) = outdentLine margin line := by
  cases counts : line.all isIndent with
  | true =>
      rw [outdentLine_of_all counts]
      rfl
  | false =>
      obtain ⟨kept, cut, dropped, keptCounts, -⟩ := exists_outdentLine (begins counts) counts
      rw [dropped]
      cases blank : isBlankText kept with
      | false =>
          rw [cut, trimEnd_append blank] at trimmed
          exact List.append_cancel_left trimmed
      | true =>
          have lineBlank : isBlankText line = true := by
            rw [cut, isBlankText_append, isBlankText_margin (begins counts), blank]
            rfl
          rw [trimEnd_eq_nil_iff.mpr lineBlank] at trimmed
          rw [← trimmed] at counts
          cases counts

end Line

end ApiDocs.Text
