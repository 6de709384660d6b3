import Mathlib.Data.List.Forall2
import Mathlib.Logic.Basic

/-!
# Outcomes of one kind

Two outcomes are of one kind if both are values or both are errors.  What is asked of the
values, and what of the errors, is given.

Steps that are taken item by item end with a value for each item, or with the error of the
first item that has one.
-/

namespace ApiDocs

variable {ε ε' φ φ' α α' β β' : Type}

/-- Two values that are alike, or two errors that are. -/
inductive SameOutcome (failing : ε → ε' → Prop) (alike : α → α' → Prop) :
    Except ε α → Except ε' α' → Prop where
  | ok {value : α} {value' : α'} : alike value value' →
      SameOutcome failing alike (.ok value) (.ok value')
  | error {error : ε} {error' : ε'} : failing error error' →
      SameOutcome failing alike (.error error) (.error error')

namespace SameOutcome

variable {failing : ε → ε' → Prop} {widerFailing : φ → φ' → Prop}
variable {alike : α → α' → Prop} {further : β → β' → Prop}
variable {outcome : Except ε α} {outcome' : Except ε' α'}

theorem mapError {change : ε → φ} {change' : ε' → φ'}
    (same : SameOutcome failing alike outcome outcome')
    (each : ∀ error error', failing error error' → widerFailing (change error) (change' error')) :
    SameOutcome widerFailing alike (outcome.mapError change) (outcome'.mapError change') := by
  cases same with
  | ok values => exact .ok values
  | error errors => exact .error (each _ _ errors)

theorem mono {other : α → α' → Prop} (same : SameOutcome failing alike outcome outcome')
    (each : ∀ value value', alike value value' → other value value') :
    SameOutcome failing other outcome outcome' := by
  cases same with
  | ok values => exact .ok (each _ _ values)
  | error errors => exact .error errors

/-- Of two outcomes of one kind, one is a value exactly if the other is the same value. -/
theorem eq_ok_iff {outcome' : Except ε' α} (same : SameOutcome failing Eq outcome outcome')
    {value : α} :
    outcome = .ok value ↔ outcome' = .ok value := by
  cases same with
  | ok values => simp [values]
  | error errors => simp

end SameOutcome

/-- Two steps give a value exactly if the first does and the second does with it. -/
theorem bind_eq_ok_iff {first : Except ε α} {next : α → Except ε β} {value : β} :
    first >>= next = .ok value ↔ ∃ middle, first = .ok middle ∧ next middle = .ok value := by
  cases first with
  | error error => exact ⟨nofun, fun ⟨_, made, _⟩ => nomatch made⟩
  | ok middle =>
      constructor
      · exact fun made => ⟨middle, rfl, made⟩
      · rintro ⟨_, ⟨⟩, made⟩
        exact made

theorem map_eq_ok_iff {outcome : Except ε α} {change : α → β} {value : β} :
    outcome.map change = .ok value ↔
      ∃ original, outcome = .ok original ∧ change original = value := by
  cases outcome <;> simp [Except.map]

theorem exists_of_toOption_map {outcome : Except ε α} {change : α → β} {value : β}
    (made : (outcome.map change).toOption = some value) :
    ∃ original, outcome = .ok original ∧ change original = value := by
  cases outcome with
  | error error => cases made
  | ok original => exact ⟨original, rfl, Option.some.inj made⟩

/-- What is related to items one by one has an item for each of its values. -/
theorem exists_of_mem_forall₂ {relation : α → β → Prop} {left : List α} {right : List β} {value : β}
    (each : List.Forall₂ relation left right) (member : value ∈ right) :
    ∃ item ∈ left, relation item value := by
  induction each with
  | nil => cases member
  | cons first _ ih =>
      rcases List.mem_cons.mp member with rfl | inRest
      · exact ⟨_, List.mem_cons_self, first⟩
      · obtain ⟨item, inLeft, related⟩ := ih inRest
        exact ⟨item, List.mem_cons_of_mem _ inLeft, related⟩

section Steps

variable {step : α → Except ε β} {items : List α}

theorem mapM_eq_ok_iff {values : List β} :
    items.mapM step = .ok values ↔ items.map step = values.map .ok := by
  induction items generalizing values with
  | nil =>
      rw [List.mapM_nil, List.map_nil, List.nil_eq, List.map_eq_nil_iff]
      constructor
      · rintro ⟨⟩
        rfl
      · rintro rfl
        rfl
  | cons item rest ih =>
      rw [List.mapM_cons, List.map_cons]
      constructor
      · intro made
        cases first : step item with
        | error error =>
            rw [first] at made
            cases made
        | ok value =>
            cases others : rest.mapM step with
            | error error =>
                rw [first, others] at made
                cases made
            | ok remaining =>
                rw [first, others] at made
                cases made
                rw [List.map_cons, ih.mp others]
      · intro made
        cases values with
        | nil => cases made
        | cons value remaining =>
            obtain ⟨first, others⟩ := List.cons.inj made
            rw [first, ih.mpr others]
            rfl

theorem exists_mapM_eq_ok (each : ∀ item ∈ items, ∃ value, step item = .ok value) :
    ∃ values, items.mapM step = .ok values := by
  induction items with
  | nil => exact ⟨[], rfl⟩
  | cons item rest ih =>
      obtain ⟨value, first⟩ := each item List.mem_cons_self
      obtain ⟨values, others⟩ := ih fun other member => each other (List.mem_cons_of_mem _ member)
      refine ⟨value :: values, ?_⟩
      rw [List.mapM_cons, first, others]
      rfl

/-- The steps end with an error exactly if an item has it and no item before that one has any. -/
theorem mapM_eq_error_iff {error : ε} :
    items.mapM step = .error error ↔
      ∃ before item after, items = before ++ item :: after ∧
        (∀ other ∈ before, ∃ value, step other = .ok value) ∧ step item = .error error := by
  constructor
  · intro failed
    induction items with
    | nil => cases failed
    | cons item rest ih =>
        rw [List.mapM_cons] at failed
        cases first : step item with
        | error found =>
            rw [first] at failed
            cases failed
            exact ⟨[], item, rest, rfl, by simp, first⟩
        | ok value =>
            cases others : rest.mapM step with
            | ok values =>
                rw [first, others] at failed
                cases failed
            | error found =>
                rw [first, others] at failed
                cases failed
                obtain ⟨before, failing, after, rfl, fine, last⟩ := ih others
                refine ⟨item :: before, failing, after, rfl, ?_, last⟩
                rw [List.forall_mem_cons]
                exact ⟨⟨value, first⟩, fine⟩
  · rintro ⟨before, item, after, rfl, fine, failed⟩
    induction before with
    | nil =>
        rw [List.nil_append, List.mapM_cons, failed]
        rfl
    | cons first rest ih =>
        obtain ⟨⟨value, made⟩, others⟩ := List.forall_mem_cons.mp fine
        rw [List.cons_append, List.mapM_cons, made, ih others]
        rfl

end Steps

end ApiDocs
