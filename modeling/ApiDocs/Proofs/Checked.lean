import ApiDocs.Checked

/-!
# Checks that succeed

What must have happened for a check to be accepted: the checks that it was put
together from were accepted, and its value was put together from theirs.
-/

namespace ApiDocs.Checked

variable {α β : Type}

@[simp]
theorem errors_fail (error : Text) : (fail error : Checked α).errors = [error] := rfl

/-- A check has no value exactly if it has an error. -/
theorem value?_eq_none_iff (checked : Checked α) :
    checked.value? = none ↔ checked.errors ≠ [] := by
  cases checked <;> simp

/-- A check without errors has a value. -/
theorem exists_of_errors_eq_nil {checked : Checked α} (clean : checked.errors = []) :
    ∃ value, checked = accepted value := by
  cases checked with
  | accepted value => exact ⟨value, rfl⟩
  | rejected first others => cases clean

theorem map_eq_accepted_iff (change : α → β) (checked : Checked α) (value : β) :
    checked.map change = accepted value ↔
      ∃ original, checked = accepted original ∧ change original = value := by
  cases checked <;> simp [map]

theorem both_eq_accepted_iff (left : Checked α) (right : Checked β) (pair : α × β) :
    left.both right = accepted pair ↔
      left = accepted pair.1 ∧ right = accepted pair.2 := by
  cases left <;> cases right <;> simp [both, Prod.ext_iff]

/-- A list of checks is accepted exactly if each of them is, value by value. -/
theorem all_eq_accepted_iff (list : List (Checked α)) (values : List α) :
    all list = accepted values ↔ list = values.map accepted := by
  induction list generalizing values with
  | nil =>
      cases values <;> simp [all]
  | cons checked rest ih =>
      rw [all, map_eq_accepted_iff]
      constructor
      · rintro ⟨pair, both, rfl⟩
        obtain ⟨first, others⟩ := (both_eq_accepted_iff _ _ _).mp both
        rw [first, (ih pair.2).mp others]
        rfl
      · intro parts
        cases values with
        | nil => simp at parts
        | cons value values =>
            obtain ⟨first, others⟩ := List.cons.inj parts
            refine ⟨(value, values), ?_, rfl⟩
            exact (both_eq_accepted_iff _ _ _).mpr ⟨first, (ih values).mpr others⟩

theorem each_eq_accepted_iff (check : α → Checked β) (items : List α) (values : List β) :
    each check items = accepted values ↔ items.map check = values.map accepted :=
  all_eq_accepted_iff (items.map check) values

end ApiDocs.Checked
