import Mathlib.Data.List.Lex
import Mathlib.Data.List.Nodup
import Mathlib.Data.List.Perm.Basic
import Mathlib.Order.Defs.LinearOrder
import ApiDocs.Module.Extract

/-!
# Code order and stable sorting

Texts are compared symbol by symbol.  This module proves that the comparison is
the lexicographic order of the codes, and that sorting by it is stable.

`StableSort` says what a stable sort is without naming an algorithm: nothing is
lost or doubled, names ascend, and records of one name keep their order.  These
three facts leave exactly one list, so they may stand for the sorted list in
every later statement.
-/

namespace ApiDocs

/-- The codes of the symbols of a text. -/
def Text.codes (text : Text) : List Nat :=
  text.map Symbol.code

namespace Symbol

theorem code_injective : Function.Injective code := by
  intro first second equal
  rw [← ofCode_code first, ← ofCode_code second, equal]

theorem lt_iff_code_lt (first second : Symbol) :
    first < second ↔ first.code < second.code :=
  Iff.rfl

end Symbol

namespace Text

/-- A longer list of codes is compared at its first code, and behind it only if that one agrees. -/
theorem cons_codes_le_iff (first second : Nat) (left right : List Nat) :
    first :: left ≤ second :: right ↔ first < second ∨ first = second ∧ left ≤ right := by
  rw [← not_lt, List.cons_lt_cons_iff, ← not_lt]
  constructor
  · intro notAbove
    rcases Nat.lt_trichotomy first second with below | same | above
    · exact Or.inl below
    · exact Or.inr ⟨same, fun less => notAbove (Or.inr ⟨same.symm, less⟩)⟩
    · exact absurd (Or.inl above) notAbove
  · rintro (below | ⟨same, notLess⟩) (above | ⟨_, less⟩)
    · omega
    · omega
    · omega
    · exact notLess less

/-- Comparing texts is comparing their codes lexicographically. -/
theorem atMost_iff_codes_le (left right : Text) :
    atMost left right = true ↔ left.codes ≤ right.codes := by
  induction left generalizing right with
  | nil =>
      have smallest : codes [] ≤ right.codes := by
        rw [← not_lt]
        exact List.not_lt_nil _
      simp [smallest]
  | cons first left ih =>
      cases right with
      | nil =>
          have larger : ¬codes (first :: left) ≤ codes [] := by
            rw [not_le]
            exact List.nil_lt_cons _ _
          simp [atMost, larger]
      | cons second right =>
          have sameCode : first = second ↔ first.code = second.code :=
            Symbol.code_injective.eq_iff.symm
          simp only [codes] at ih
          simp only [atMost, codes, List.map_cons, cons_codes_le_iff,
            Bool.or_eq_true, Bool.and_eq_true, decide_eq_true_eq, beq_iff_eq,
            Symbol.lt_iff_code_lt, sameCode, ih]

theorem atMost_trans (first second third : Text)
    (left : atMost first second = true) (right : atMost second third = true) :
    atMost first third = true := by
  rw [atMost_iff_codes_le] at left right ⊢
  exact le_trans left right

theorem atMost_total (first second : Text) :
    (atMost first second || atMost second first) = true := by
  rw [Bool.or_eq_true, atMost_iff_codes_le, atMost_iff_codes_le]
  exact le_total first.codes second.codes

theorem atMost_antisymm (first second : Text) (left : atMost first second = true)
    (right : atMost second first = true) : first = second := by
  rw [atMost_iff_codes_le] at left right
  exact List.map_injective_iff.mpr Symbol.code_injective (le_antisymm left right)

/-- What stands in front of two texts does not matter for their order. -/
theorem atMost_append_left (front left right : Text) :
    atMost (front ++ left) (front ++ right) = atMost left right := by
  induction front with
  | nil => rfl
  | cons symbol front ih =>
      have notLess : decide (symbol < symbol) = false := by
        rw [decide_eq_false_iff_not, Symbol.lt_iff_code_lt]
        exact Nat.lt_irrefl _
      simp [atMost, notLess, ih]

/-- The order in which texts are given does not matter for sorting them. -/
theorem mergeSort_eq_of_perm {first second : List Text} (perm : first.Perm second) :
    first.mergeSort atMost = second.mergeSort atMost := by
  have sorted (list : List Text) : (list.mergeSort atMost).Pairwise fun left right =>
      atMost left right = true :=
    List.pairwise_mergeSort atMost_trans atMost_total list
  refine List.Perm.eq_of_pairwise (fun left right _ _ => atMost_antisymm left right)
    (sorted first) (sorted second) ?_
  exact (List.mergeSort_perm first _).trans (perm.trans (List.mergeSort_perm second _).symm)

end Text

/--
The second list is the first one in the order of names, where records of one
name keep the order of the first list.
-/
structure StableSort {α : Type} (nameOf : α → Text) (records ordered : List α) : Prop where
  /-- No record is lost and none is doubled. -/
  perm : ordered.Perm records
  /-- Names ascend in the order of codes. -/
  ascending : ordered.Pairwise fun left right => (nameOf left).codes ≤ (nameOf right).codes
  /-- Records of one name keep their order. -/
  stable : ∀ name : Text,
    ordered.filter (fun record => nameOf record == name) =
      records.filter fun record => nameOf record == name

section MergeSort

variable {α : Type} (nameOf : α → Text) (records : List α)

/-- Records of one name are in order already, so sorting cannot take them apart. -/
theorem filter_name_sublist_mergeSort (name : Text) :
    (records.filter fun record => nameOf record == name).Sublist
      (records.mergeSort fun left right => Text.atMost (nameOf left) (nameOf right)) := by
  apply List.sublist_mergeSort
  · exact fun first second third => Text.atMost_trans _ _ _
  · exact fun first second => Text.atMost_total _ _
  · apply List.pairwise_of_forall_mem_list
    intro left leftMember right rightMember
    have leftName := (List.mem_filter.mp leftMember).2
    have rightName := (List.mem_filter.mp rightMember).2
    rw [beq_iff_eq] at leftName rightName
    simp [leftName, rightName]
  · exact List.filter_sublist

theorem Extract.stableSort_sortByName :
    StableSort nameOf records (Extract.sortByName nameOf records) where
  perm := List.mergeSort_perm _ _
  ascending := by
    have ascending :
        (Extract.sortByName nameOf records).Pairwise fun left right =>
          Text.atMost (nameOf left) (nameOf right) = true := by
      apply List.pairwise_mergeSort
      · exact fun first second third => Text.atMost_trans _ _ _
      · exact fun first second => Text.atMost_total _ _
    exact ascending.imp fun ordered => (Text.atMost_iff_codes_le _ _).mp ordered
  stable := by
    intro name
    have kept := (filter_name_sublist_mergeSort nameOf records name).filter
      fun record => nameOf record == name
    rw [List.filter_filter] at kept
    simp only [Bool.and_self] at kept
    have sameLength :
        (records.filter fun record => nameOf record == name).length =
          ((Extract.sortByName nameOf records).filter
            fun record => nameOf record == name).length :=
      ((List.mergeSort_perm records _).filter _).length_eq.symm
    exact (kept.eq_of_length sameLength).symm

end MergeSort

/-- Where every record has a name of its own, the order of the records does not matter. -/
theorem StableSort.eq_of_perm {α : Type} {nameOf : α → Text} {first second : List α}
    {ordered reordered : List α} (sorted : StableSort nameOf first ordered)
    (resorted : StableSort nameOf second reordered) (perm : first.Perm second)
    (distinct : (first.map nameOf).Nodup) : ordered = reordered := by
  refine List.Perm.eq_of_pairwise ?_ sorted.ascending resorted.ascending
    (sorted.perm.trans (perm.trans resorted.perm.symm))
  intro left right leftMember rightMember below above
  have sameName : nameOf left = nameOf right :=
    List.map_injective_iff.mpr Symbol.code_injective (le_antisymm below above)
  have leftFirst := sorted.perm.subset leftMember
  have rightFirst := perm.symm.subset (resorted.perm.subset rightMember)
  exact List.inj_on_of_nodup_map distinct leftFirst rightFirst sameName

end ApiDocs
