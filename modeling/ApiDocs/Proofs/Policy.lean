import ApiDocs.Policy
import ApiDocs.Proofs.Checked

/-!
# What a comment lacks

The rules for documentation comments are stated by the *gaps* that a comment can
have.  Each gap is a condition on the comment and the settings, with a sentence for
it.  The main statement says that checking a comment reports exactly its gaps, in a
fixed order and each of them once.
-/

namespace ApiDocs

namespace Policy

/-- What a documentation comment can lack. -/
inductive Gap where
  | since
  | category
  | description
  | examples
  deriving DecidableEq, Repr

namespace Gap

/-- The gaps in the order in which they are reported. -/
def order : List Gap :=
  [.since, .category, .description, .examples]

/-- Whether a comment has a gap, as the settings see it. -/
def IsIn (settings : Settings) (isModule : Bool) (comment : Comment) : Gap → Prop
  | .since => settings.enforceVersion = true ∧ comment.first "since" = none
  | .category => comment.hasTag "category" = true ∧ comment.first "category" = none
  | .description => settings.enforceDescriptions = true ∧ comment.description = none
  | .examples =>
      settings.enforceExamples = true ∧ isModule = false ∧
        ∀ value ∈ comment.tags.values "example", value.getD "" = ""

instance (settings : Settings) (isModule : Bool) (comment : Comment) (gap : Gap) :
    Decidable (gap.IsIn settings isModule comment) :=
  match gap with
  | .since => inferInstanceAs (Decidable (_ ∧ _))
  | .category => inferInstanceAs (Decidable (_ ∧ _))
  | .description => inferInstanceAs (Decidable (_ ∧ _))
  | .examples => inferInstanceAs (Decidable (_ ∧ _ ∧ _))

/-- The sentence for a gap in the documentation at a place. -/
def message (place : Text) : Gap → Text
  | .since => "Missing \"@since\" tag in " ++ place ++ " documentation"
  | .category => "Missing @category value in " ++ place ++ " documentation"
  | .description => "Missing description in " ++ place ++ " documentation"
  | .examples => "Missing examples in " ++ place ++ " documentation"

end Gap

/-- The gaps of a comment, in the order in which they are reported. -/
def gaps (settings : Settings) (isModule : Bool) (comment : Comment) : List Gap :=
  Gap.order.filter fun gap => gap.IsIn settings isModule comment

/-- The sentence for one gap, if the comment has it. -/
def gapErrors (settings : Settings) (isModule : Bool) (comment : Comment) (place : Text)
    (gap : Gap) : List Text :=
  if gap.IsIn settings isModule comment then [gap.message place] else []

section Parts

variable (settings : Settings) (isModule : Bool) (comment : Comment) (place : Text)

theorem errors_since :
    (since comment place settings).errors =
      gapErrors settings isModule comment place .since := by
  cases version : comment.first "since" <;> cases enforced : settings.enforceVersion <;>
    simp [since, gapErrors, Gap.IsIn, Gap.message, version, enforced]

theorem errors_category :
    (category comment place).errors =
      gapErrors settings isModule comment place .category := by
  cases given : comment.hasTag "category" <;> cases value : comment.first "category" <;>
    simp [category, gapErrors, Gap.IsIn, Gap.message, given, value]

theorem errors_description :
    (description comment place settings).errors =
      gapErrors settings isModule comment place .description := by
  cases text : comment.description <;> cases enforced : settings.enforceDescriptions <;>
    simp [description, gapErrors, Gap.IsIn, Gap.message, text, enforced]

/-- No example is given if every value of the tag is missing or empty. -/
theorem givenExamples_eq_nil_iff :
    givenExamples comment = [] ↔
      ∀ value ∈ comment.tags.values "example", value.getD "" = "" := by
  rw [givenExamples, List.filterMap_eq_nil_iff]
  apply forall₂_congr
  intro value _
  cases value with
  | none => simp
  | some text => simp

theorem errors_examples :
    (examples comment place settings isModule).errors =
      gapErrors settings isModule comment place .examples := by
  have given : (givenExamples comment).isEmpty = true ↔
      ∀ value ∈ comment.tags.values "example", value.getD "" = "" := by
    rw [List.isEmpty_iff, givenExamples_eq_nil_iff]
  by_cases empty : (givenExamples comment).isEmpty = true <;>
    cases enforced : settings.enforceExamples <;> cases isModule <;>
    simp [examples, gapErrors, Gap.IsIn, Gap.message, ← given, empty, enforced]

/-- The sentences for some gaps are those for the gaps that the comment has. -/
theorem flatMap_gapErrors (list : List Gap) :
    list.flatMap (gapErrors settings isModule comment place) =
      (list.filter fun gap => gap.IsIn settings isModule comment).map
        (Gap.message place) := by
  induction list with
  | nil => rfl
  | cons gap rest ih =>
      by_cases present : gap.IsIn settings isModule comment <;>
        simp [gapErrors, present, ih]

/-- Checking a comment reports its gaps in order, each of them once. -/
theorem errors_check (name : Text) (path : List Text) :
    (check name path comment isModule settings).errors =
      (gaps settings isModule comment).map (Gap.message (Policy.place path name)) := by
  rw [gaps, ← flatMap_gapErrors]
  simp [check, Gap.order, errors_since settings isModule, errors_category settings isModule,
    errors_description settings isModule, errors_examples]

end Parts

end Policy

end ApiDocs
