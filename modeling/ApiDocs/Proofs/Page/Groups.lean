import ApiDocs.Proofs.Order
import ApiDocs.Proofs.Page.Shown

/-!
# The groups of a page

A page shows the things of a module in groups, one for each category.  `IsGrouping` says what
the groups are without saying how they are found: every thing stands in exactly one group, under
its own category; the categories ascend; and so do the entries of each group.

These facts leave only one text.  So the text of the groups depends on which things a module has
and not on the order in which it has them.
-/

namespace ApiDocs

/-- Two modules have the same things of each kind, in whatever order. -/
structure Module.HaveSameThings (first second : Module) : Prop where
  classes : first.classes.Perm second.classes
  constants : first.constants.Perm second.constants
  exports : first.exports.Perm second.exports
  functions : first.functions.Perm second.functions
  interfaces : first.interfaces.Perm second.interfaces
  typeAliases : first.typeAliases.Perm second.typeAliases

namespace Page

/-- A category with the things that are shown under it, in the order of the page. -/
structure Group where
  category : Text
  members : List Printable

/-- The section for a group: its heading, and behind it the entries. -/
def Group.text (group : Group) : Text :=
  "# " ++ group.category ++ "\n\n" ++ joinBlocks (group.members.map Printable.text)

/-- The category of a thing: the given one, or `utils` if none or an empty one is given. -/
inductive Printable.IsUnder (printable : Printable) : Text → Prop where
  | given {category : Text} : printable.doc.category = some category → category ≠ "" →
      IsUnder printable category
  | missing : printable.doc.category = none → IsUnder printable "utils"
  | empty : printable.doc.category = some ("" : Text) → IsUnder printable "utils"

/-- The groups in which some things are shown. -/
structure IsGrouping (printables : List Printable) (groups : List Group) : Prop where
  /-- Every thing stands in one group, as often as it is given. -/
  once : (groups.flatMap Group.members).Perm printables
  /-- The categories are distinct and ascend in the order of codes. -/
  ascending : (groups.map Group.category).Pairwise fun left right => left.codes < right.codes
  /-- No group is empty. -/
  inhabited : ∀ group ∈ groups, group.members ≠ []
  /-- The things of a group belong under its category. -/
  under : ∀ group ∈ groups, ∀ printable ∈ group.members, printable.IsUnder group.category
  /-- The entries of a group ascend in the order of codes. -/
  inOrder : ∀ group ∈ groups,
    (group.members.map Printable.text).Pairwise fun left right => left.codes ≤ right.codes

variable {first second : Module} {printable : Printable} {printables reordered : List Printable}
variable {groups : List Group} {group : Group} {category : Text}

/-! ## Things and their categories -/

namespace Printable

theorem isUnder_iff : printable.IsUnder category ↔ printable.category = category := by
  rw [Printable.category]
  cases chosen : printable.doc.category with
  | none =>
      constructor
      · intro isUnder
        cases isUnder with
        | given isGiven => simp [chosen] at isGiven
        | missing => rfl
        | empty isEmpty => simp [chosen] at isEmpty
      · rintro rfl
        exact .missing chosen
  | some text =>
      rcases eq_or_ne text "" with rfl | nonempty
      · constructor
        · intro isUnder
          cases isUnder with
          | given isGiven isNot =>
              rw [chosen, Option.some.injEq] at isGiven
              exact absurd isGiven.symm isNot
          | missing isMissing => simp [chosen] at isMissing
          | empty => rfl
        · rintro rfl
          exact .empty chosen
      · have shown : (given (some text)).headD defaultCategory = text := by
          simp [given, nonempty]
        rw [shown]
        constructor
        · intro isUnder
          cases isUnder with
          | given isGiven =>
              rw [chosen, Option.some.injEq] at isGiven
              exact isGiven
          | missing isMissing => simp [chosen] at isMissing
          | empty isEmpty =>
              rw [chosen, Option.some.injEq] at isEmpty
              exact absurd isEmpty nonempty
        · rintro rfl
          exact .given chosen nonempty

theorem ofModule_perm (same : first.HaveSameThings second) :
    (ofModule first).Perm (ofModule second) :=
  (((((same.classes.map _).append (same.constants.map _)).append (same.exports.map _)).append
    (same.functions.map _)).append (same.interfaces.map _)).append (same.typeAliases.map _)

theorem mem_categories_iff :
    category ∈ categories printables ↔ ∃ printable ∈ printables, printable.category = category := by
  rw [categories, sorted, List.mem_mergeSort, List.mem_eraseDups, List.mem_map]

theorem pairwise_categories (printables : List Printable) :
    (categories printables).Pairwise fun left right => left.codes < right.codes := by
  have ascending : (categories printables).Pairwise fun left right =>
      Text.atMost left right = true :=
    List.pairwise_mergeSort Text.atMost_trans Text.atMost_total _
  have distinct : (categories printables).Pairwise fun left right => left ≠ right :=
    nodup_categories printables
  refine (ascending.and distinct).imp fun {left right} both => ?_
  refine lt_of_le_of_ne ((Text.atMost_iff_codes_le _ _).mp both.1) fun same => both.2 ?_
  exact List.map_injective_iff.mpr Symbol.code_injective same

end Printable

/-! ## The groups of some things -/

/-- Things are grouped by their categories, and within a group by their entries. -/
theorem exists_isGrouping (printables : List Printable) :
    ∃ groups, IsGrouping printables groups := by
  have mem_members (category : Text) (printable : Printable) :
      printable ∈ Printable.byText (printables.filter fun printable => printable.category == category) ↔
        printable ∈ printables ∧ printable.category = category := by
    rw [Printable.byText, List.mem_mergeSort, List.mem_filter, beq_iff_eq]
  refine ⟨(Printable.categories printables).map fun category => ⟨category,
    Printable.byText (printables.filter fun printable => printable.category == category)⟩, ?_⟩
  constructor
  case once =>
    rw [List.flatMap_map]
    exact Printable.inPageOrder_perm printables
  case ascending =>
    rw [List.map_map]
    exact (List.map_id _).symm ▸ Printable.pairwise_categories printables
  case inhabited =>
    intro group isGroup none
    obtain ⟨category, listed, rfl⟩ := List.mem_map.mp isGroup
    obtain ⟨printable, given, same⟩ := Printable.mem_categories_iff.mp listed
    have member := (mem_members category printable).mpr ⟨given, same⟩
    exact List.ne_nil_of_mem member none
  case under =>
    intro group isGroup printable member
    obtain ⟨category, -, rfl⟩ := List.mem_map.mp isGroup
    exact Printable.isUnder_iff.mpr ((mem_members category printable).mp member).2
  case inOrder =>
    intro group isGroup
    obtain ⟨category, -, rfl⟩ := List.mem_map.mp isGroup
    rw [← Printable.sorted_map_text]
    have ordered := List.pairwise_mergeSort Text.atMost_trans Text.atMost_total
      ((printables.filter fun printable => printable.category == category).map Printable.text)
    exact ordered.imp fun ascends => (Text.atMost_iff_codes_le _ _).mp ascends

namespace IsGrouping

variable (grouping : IsGrouping printables groups)

include grouping

theorem of_perm (perm : printables.Perm reordered) : IsGrouping reordered groups :=
  { grouping with once := grouping.once.trans perm }

/-- A group has exactly the things under its category. -/
theorem members_perm (member : group ∈ groups) :
    group.members.Perm (printables.filter fun printable => printable.category == group.category) := by
  have own : (groups.flatMap Group.members).filter
      (fun printable => printable.category == group.category) = group.members := by
    have distinct := List.pairwise_map.mp grouping.ascending
    have under := grouping.under
    clear grouping
    induction groups with
    | nil => cases member
    | cons head rest ih =>
        obtain ⟨later, distinct⟩ := List.pairwise_cons.mp distinct
        have underOthers : ∀ other ∈ rest, ∀ printable ∈ other.members,
            printable.IsUnder other.category := fun other inRest =>
          under other (List.mem_cons_of_mem head inRest)
        -- The things of a group are kept by its own category and by no other one.
        have dropped (other : Group) (inGroups : other ∈ head :: rest)
            (differs : other.category ≠ group.category) (printable : Printable)
            (inOther : printable ∈ other.members) : ¬(printable.category == group.category) := by
          rw [beq_iff_eq, Printable.isUnder_iff.mp (under other inGroups printable inOther)]
          exact differs
        rw [List.flatMap_cons, List.filter_append]
        rcases List.mem_cons.mp member with rfl | behind
        · have none : (rest.flatMap Group.members).filter
              (fun printable => printable.category == group.category) = [] := by
            rw [List.filter_eq_nil_iff]
            intro printable inOthers
            obtain ⟨other, isOther, inOther⟩ := List.mem_flatMap.mp inOthers
            refine dropped other (List.mem_cons_of_mem group isOther) ?_ printable inOther
            exact fun same => lt_irrefl _ (same ▸ later other isOther)
          rw [none, List.append_nil, List.filter_eq_self]
          intro printable inGroup
          rw [beq_iff_eq]
          exact Printable.isUnder_iff.mp (under group member printable inGroup)
        · have none : head.members.filter
              (fun printable => printable.category == group.category) = [] := by
            rw [List.filter_eq_nil_iff]
            refine dropped head List.mem_cons_self ?_
            exact fun same => lt_irrefl _ (same ▸ later group behind)
          rw [none, List.nil_append, ih behind distinct underOthers]
  rw [← own]
  exact grouping.once.filter _

/-- The categories of the groups are those of the things. -/
theorem categories_eq : groups.map Group.category = Printable.categories printables := by
  have distinct : (groups.map Group.category).Nodup :=
    grouping.ascending.imp fun {left right} less same => by
      rw [same] at less
      exact lt_irrefl _ less
  refine List.Perm.eq_of_pairwise (fun left right _ _ => ?_) grouping.ascending
    (Printable.pairwise_categories printables) ?_
  · exact fun less greater => absurd (less.trans greater) (lt_irrefl _)
  · rw [List.perm_ext_iff_of_nodup distinct (Printable.nodup_categories printables)]
    intro category
    rw [Printable.mem_categories_iff, List.mem_map]
    constructor
    · rintro ⟨group, isGroup, rfl⟩
      obtain ⟨printable, member⟩ := List.exists_mem_of_ne_nil _ (grouping.inhabited group isGroup)
      refine ⟨printable, ?_, Printable.isUnder_iff.mp (grouping.under group isGroup printable member)⟩
      exact grouping.once.subset (List.mem_flatMap.mpr ⟨group, isGroup, member⟩)
    · rintro ⟨printable, given, rfl⟩
      obtain ⟨group, isGroup, member⟩ := List.mem_flatMap.mp (grouping.once.symm.subset given)
      exact ⟨group, isGroup,
        (Printable.isUnder_iff.mp (grouping.under group isGroup printable member)).symm⟩

/-- The section for a category is the text of its group. -/
theorem section_eq (member : group ∈ groups) :
    categorySection printables group.category = group.text := by
  have sortedTexts : sorted ((printables.filter fun printable =>
      printable.category == group.category).map Printable.text) =
        group.members.map Printable.text := by
    have ascending := List.pairwise_mergeSort Text.atMost_trans Text.atMost_total
      ((printables.filter fun printable => printable.category == group.category).map Printable.text)
    refine List.Perm.eq_of_pairwise (fun left right _ _ => Text.atMost_antisymm left right) ascending
      ((grouping.inOrder group member).imp fun ascends => (Text.atMost_iff_codes_le _ _).mpr ascends) ?_
    exact (List.mergeSort_perm _ _).trans ((grouping.members_perm member).symm.map _)
  rw [categorySection, sortedTexts, Group.text]

/-- What a page shows of some things is the text of their groups. -/
theorem contentOf_eq : contentOf printables = joinBlocks (groups.map Group.text) := by
  have sections : (Printable.categories printables).map (categorySection printables) =
      groups.map Group.text := by
    rw [← grouping.categories_eq, List.map_map]
    exact List.map_congr_left fun group member => grouping.section_eq member
  rw [← sections]
  rfl

end IsGrouping

/-- The order of things does not matter for what a page shows of them. -/
theorem contentOf_perm (perm : printables.Perm reordered) :
    contentOf printables = contentOf reordered := by
  obtain ⟨groups, grouping⟩ := exists_isGrouping printables
  rw [grouping.contentOf_eq, (grouping.of_perm perm).contentOf_eq]

/--
Modules with the same things have the same entries on their pages: the groups of these things,
each with a heading and its entries in order, and each thing in one group.
-/
theorem content_shows_groups (same : first.HaveSameThings second) :
    content first = content second ∧
      (∃ groups, IsGrouping (Printable.ofModule first) groups) ∧
      ∀ groups, IsGrouping (Printable.ofModule first) groups →
        content first = joinBlocks (groups.map Group.text) :=
  ⟨contentOf_perm (Printable.ofModule_perm same), exists_isGrouping _,
    fun _ grouping => grouping.contentOf_eq⟩

/-- A constant without a category. -/
def plainConstant : Item := ⟨{ name := "b" }, "b"⟩

/-- A constant under the category of things without one. -/
def filedConstant : Item := ⟨{ name := "a", category := some "utils" }, "a"⟩

/-- An interface under another category. -/
def modelInterface : Item := ⟨{ name := "Z", category := some "model" }, "interface Z"⟩

/-- In either order the two constants stand under one heading. -/
theorem content_of_swapped_constants :
    Module.HaveSameThings
        { constants := [plainConstant, filedConstant], interfaces := [modelInterface] }
        { constants := [filedConstant, plainConstant], interfaces := [modelInterface] } ∧
      content { constants := [plainConstant, filedConstant], interfaces := [modelInterface] } =
        content { constants := [filedConstant, plainConstant], interfaces := [modelInterface] } ∧
      content { constants := [plainConstant, filedConstant], interfaces := [modelInterface] } =
        joinBlocks (List.map Group.text
          [⟨"model", [.interface modelInterface]⟩,
            ⟨"utils", [.constant filedConstant, .constant plainConstant]⟩]) := by
  have same : Module.HaveSameThings
      { constants := [plainConstant, filedConstant], interfaces := [modelInterface] }
      { constants := [filedConstant, plainConstant], interfaces := [modelInterface] } :=
    { classes := .refl _
      constants := .swap _ _ _
      exports := .refl _
      functions := .refl _
      interfaces := .refl _
      typeAliases := .refl _ }
  obtain ⟨equal, -, determined⟩ := content_shows_groups same
  refine ⟨same, equal, determined _ ?_⟩
  constructor
  case once => decide +kernel
  case ascending => decide +kernel
  case inhabited => decide +kernel
  case under =>
    simp only [List.forall_mem_cons]
    exact ⟨⟨.given rfl (by decide), nofun⟩, ⟨.given rfl (by decide), .missing rfl, nofun⟩, nofun⟩
  case inOrder => decide +kernel

end Page

end ApiDocs
