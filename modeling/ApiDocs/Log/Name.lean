import ApiDocs.Text.Symbol

/-!
# Names of loggers

Loggers are known by names.  A name is above another if the other can be cut back to
it: at its last point, then at the last point before that, and so on.  The symbol right
before a point where a name was cut is passed over, so that of two points side by side
only the later one is a cut.  The parent of a logger is the nearest logger above it
among those that are in use; names above it that nobody has used are not loggers.

The main statement is that a parent's name is shorter, so that going from parent to
parent comes to an end: at the root, or at a logger that has no parent.
-/

namespace ApiDocs

/-- The name of the logger that all parts of the program are below. -/
def rootLogger : Text := "tsdocgen"

/-- The full name of a part's logger; without a name it is the root. -/
def loggerName (name : Option Text) : Text :=
  match name with
  | none | some "" => rootLogger
  | some name => rootLogger ++ "." ++ name

namespace LoggerName

/-- The names that stand before the cuts of a name; both are read backwards. -/
def cuts : Text → List Text
  | '.' :: before :: rest => (before :: rest) :: cuts rest
  | _ :: rest => cuts rest
  | [] => []

/-- What stands before a cut is shorter than the whole. -/
theorem length_lt_of_mem_cuts {reversed above : Text} (cut : above ∈ cuts reversed) :
    above.length < reversed.length := by
  fun_induction cuts reversed with
  | case1 before rest ih =>
      rcases List.mem_cons.mp cut with same | further
      · simp [same]
      · have := ih further
        simp only [List.length_cons]
        omega
  | case2 first rest _ ih => exact Nat.lt_succ_of_lt (ih cut)
  | case3 => simp at cut

/-- The names above a name, nearest first. -/
def above (name : Text) : List Text :=
  (cuts name.reverse).map List.reverse

/-- The parent of a logger among the loggers in use. -/
def parent? (used : List Text) (name : Text) : Option Text :=
  (above name).find? used.contains

/-- A parent's name is shorter. -/
theorem length_lt_of_parent? {used : List Text} {name parent : Text}
    (found : parent? used name = some parent) : parent.length < name.length := by
  obtain ⟨reversed, cut, rfl⟩ := List.mem_map.mp (List.mem_of_find?_eq_some found)
  simpa using length_lt_of_mem_cuts cut

/-- A parent is in use. -/
theorem mem_of_parent? {used : List Text} {name parent : Text}
    (found : parent? used name = some parent) : parent ∈ used := by
  simpa using List.find?_some found

/-- Whether the root is reached by going from parent to parent. -/
def isBelowRoot (used : List Text) (name : Text) : Bool :=
  if name == rootLogger then true
  else
    match _found : parent? used name with
    | none => false
    | some parent => isBelowRoot used parent
termination_by name.length
decreasing_by exact length_lt_of_parent? _found

end LoggerName

end ApiDocs
