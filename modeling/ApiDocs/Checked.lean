import ApiDocs.Text.Symbol

/-!
# Checked values

The result of checking something: a value, or the errors that were found, of
which there is at least one.  Checks that do not depend on each other are put
together so that no error is lost; a check that depends on the result of another
one runs only if that one succeeded.
-/

namespace ApiDocs

/-- A value, or at least one error. -/
inductive Checked (α : Type) where
  | accepted (value : α)
  | rejected (first : Text) (others : List Text)
  deriving Repr, DecidableEq

namespace Checked

variable {α β γ : Type}

/-- The errors; none if the value was accepted. -/
def errors : Checked α → List Text
  | .accepted _ => []
  | .rejected first others => first :: others

@[simp]
theorem errors_accepted (value : α) : (accepted value).errors = [] := rfl

@[simp]
theorem errors_rejected (first : Text) (others : List Text) :
    (rejected first others : Checked α).errors = first :: others := rfl

/-- The value, if it was accepted. -/
def value? : Checked α → Option α
  | .accepted value => some value
  | .rejected _ _ => none

@[simp]
theorem value?_accepted (value : α) : (accepted value).value? = some value := rfl

@[simp]
theorem value?_rejected (first : Text) (others : List Text) :
    (rejected first others : Checked α).value? = none := rfl

/-- The value if there are no errors, the errors otherwise. -/
def ofErrors (value : α) : List Text → Checked α
  | [] => .accepted value
  | first :: others => .rejected first others

@[simp]
theorem ofErrors_nil (value : α) : ofErrors value [] = accepted value := rfl

@[simp]
theorem errors_ofErrors (value : α) (list : List Text) : (ofErrors value list).errors = list := by
  cases list <;> rfl

/-- A rejection for the given errors; without an error there is no rejection. -/
def reject? : List Text → Option (Checked α)
  | [] => none
  | first :: others => some (.rejected first others)

/-- A rejection with a single error. -/
def fail (error : Text) : Checked α :=
  .rejected error []

/-- All errors as one text, one to a line. -/
def message (checked : Checked α) : Text :=
  Text.joinWith "\n" checked.errors

/-- Changes an accepted value. -/
def map (change : α → β) : Checked α → Checked β
  | .accepted value => .accepted (change value)
  | .rejected first others => .rejected first others

@[simp]
theorem map_accepted (change : α → β) (value : α) :
    (accepted value).map change = accepted (change value) := rfl

@[simp]
theorem errors_map (change : α → β) (checked : Checked α) :
    (checked.map change).errors = checked.errors := by
  cases checked <;> rfl

/-- Goes on with an accepted value to a check that depends on it. -/
def andThen (checked : Checked α) (next : α → Checked β) : Checked β :=
  match checked with
  | .accepted value => next value
  | .rejected first others => .rejected first others

/-- Puts two independent checks together; the errors of both are kept in order. -/
def both (left : Checked α) (right : Checked β) : Checked (α × β) :=
  match left, right with
  | .accepted first, .accepted second => .accepted (first, second)
  | .accepted _, .rejected first others => .rejected first others
  | .rejected first others, right => .rejected first (others ++ right.errors)

@[simp]
theorem errors_both (left : Checked α) (right : Checked β) :
    (left.both right).errors = left.errors ++ right.errors := by
  cases left <;> cases right <;> simp [both]

/-- Puts a list of independent checks together. -/
def all : List (Checked α) → Checked (List α)
  | [] => .accepted []
  | checked :: rest => (checked.both (all rest)).map fun (value, values) => value :: values

@[simp]
theorem all_nil : all ([] : List (Checked α)) = accepted [] := rfl

/-- The errors of a list of checks are the errors of its members in order. -/
theorem errors_all (list : List (Checked α)) : (all list).errors = list.flatMap errors := by
  induction list with
  | nil => rfl
  | cons checked rest ih => simp [all, ih]

/-- Puts named checks together; a name that occurs twice cannot be told apart and stays twice. -/
def fields (list : List (Text × Checked α)) : Checked (List (Text × α)) :=
  all (list.map fun (name, checked) => checked.map fun value => (name, value))

/-- Checks every item of a list. -/
def each (check : α → Checked β) (items : List α) : Checked (List β) :=
  all (items.map check)

end Checked

end ApiDocs
